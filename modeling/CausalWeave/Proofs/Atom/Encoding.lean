import CausalWeave.Atom.Encoding
import CausalWeave.Proofs.Json.Parsing

namespace CausalWeave

open Json

theorem Json.Tree.whole?_ofInt {least greatest value : Int} (above : least ≤ value)
    (below : value ≤ greatest) : Tree.whole? least greatest (.number (.ofInt value)) = some value := by
  simp [Tree.whole?, Numeral.whole?_ofInt, above, below]

namespace AtomId

theorem timestamp?_toNat (timestamp : UInt64) :
    timestamp? (.number (.ofInt timestamp.toNat)) = some timestamp := by
  have below : (timestamp.toNat : Int) ≤ UInt64.size - 1 := by
    have less := timestamp.toNat_lt
    simp [UInt64.size]
    omega
  rw [timestamp?, Tree.whole?_ofInt (Int.natCast_nonneg _) below]
  simp

theorem priority?_toInt (priority : Int32) :
    priority? (.number (.ofInt priority.toInt)) = some priority := by
  rw [priority?, Tree.whole?_ofInt priority.minValue_le_toInt priority.toInt_le]
  simp

theorem discrete_toJson (id : AtomId) : id.toJson.Discrete := by
  simp [toJson]

theorem ofTree?_toJson (id : AtomId) : ofTree? id.toJson.toTree = some id := by
  simp [ofTree?, toJson, toTree, fieldTrees, Tree.fields?, Tree.objectFields?, Tree.string?,
    timestamp?_toNat, priority?_toInt]

end AtomId

namespace Payload

def depth : Payload → Nat
  | json value => value.depth
  | _ => 0

@[simp]
theorem depth_json (value : Json) : (json value).depth = value.depth := rfl

/-- A payload that is written without loss: a value in it is well-formed and has no doubles. -/
def Portable : Payload → Prop
  | json value => value.WellFormed ∧ value.Discrete
  | _ => True

instance : (payload : Payload) → Decidable payload.Portable
  | json value => inferInstanceAs (Decidable (value.WellFormed ∧ value.Discrete))
  | empty | bytes _ | text _ => isTrue trivial

theorem discrete_toJson {payload : Payload} (portable : payload.Portable) :
    payload.toJson.Discrete := by
  cases payload with
  | empty => simp [toJson]
  | text value => simp [toJson]
  | bytes value => simp [toJson]
  | json value => simp [toJson, portable.2]

theorem byte?_toNat (byte : UInt8) : byte? (.number (.ofInt byte.toNat)) = some byte := by
  have below : (byte.toNat : Int) ≤ 255 := by
    have less := byte.toNat_lt
    omega
  rw [byte?, Tree.whole?_ofInt (Int.natCast_nonneg _) below]
  simp

theorem bytes?_map (bytes : List UInt8) :
    bytes? (.array (itemTrees (bytes.map fun byte => .whole byte.toNat))) = some bytes := by
  rw [bytes?]
  induction bytes with
  | nil => rfl
  | cons byte rest ih => simp [itemTrees, toTree, byte?_toNat, ih]

theorem ofTree?_toJson {payload : Payload} (portable : payload.Portable) :
    ofTree? payload.toJson.toTree =
      if payload.depth ≤ nestingLimit then some payload else none := by
  cases payload with
  | empty => rfl
  | text value =>
    simp [ofTree?, toJson, toTree, fieldTrees, Tree.fields?, Tree.objectFields?, kind?, ofKind?,
      Tree.string?, depth]
  | bytes value =>
    simp [ofTree?, toJson, toTree, fieldTrees, Tree.fields?, Tree.objectFields?, kind?, ofKind?,
      bytes?_map, depth]
  | json value =>
    obtain ⟨wellFormed, discrete⟩ := portable
    have read := readsBack wellFormed discrete nestingLimit
    by_cases fits : value.depth ≤ nestingLimit <;>
      simp [ofTree?, toJson, toTree, fieldTrees, Tree.fields?, Tree.objectFields?, kind?, ofKind?,
        depth, read, fits]

theorem depth_toJson_le_iff (payload : Payload) :
    payload.toJson.depth + 1 ≤ Json.nestingLimit ↔ payload.depth ≤ nestingLimit := by
  cases payload with
  | json value =>
    simp only [toJson, Json.depth, fieldsDepth, Payload.depth, nestingLimit, Json.nestingLimit]
    omega
  | bytes value =>
    have flat : itemsDepth (value.map fun byte => .whole byte.toNat) = 0 := by
      induction value with
      | nil => rfl
      | cons byte rest ih => simp [itemsDepth, Json.depth, ih]
    simp [toJson, Json.depth, fieldsDepth, Payload.depth, flat, Json.nestingLimit]
  | _ => simp [toJson, Json.depth, fieldsDepth, Payload.depth, Json.nestingLimit]

end Payload

namespace Atom

/-- A written atom is within the limit of the parser when the value of its payload is within its own. -/
theorem depth_toJson_le_iff (atom : Atom) :
    atom.toJson.depth ≤ Json.nestingLimit ↔ atom.payload.depth ≤ Payload.nestingLimit := by
  rw [← Payload.depth_toJson_le_iff]
  have id : ∀ id : AtomId, id.toJson.depth = 1 := fun id => rfl
  have payload : 1 ≤ atom.payload.toJson.depth := by
    cases atom.payload <;> simp [Payload.toJson, Json.depth]
  unfold toJson
  cases atom.cause <;>
    simp only [Json.depth, fieldsDepth, id, List.cons_append, List.nil_append]
  all_goals omega

theorem discrete_toJson {atom : Atom} (portable : atom.payload.Portable) :
    atom.toJson.Discrete := by
  have id := AtomId.discrete_toJson
  have payload := Payload.discrete_toJson portable
  unfold toJson
  cases atom.cause <;> simp [id, payload]

theorem cause?_toJson (id : AtomId) : cause? (some id.toJson.toTree) = some (some id) := by
  have read := AtomId.ofTree?_toJson id
  simp only [AtomId.toJson, toTree] at read ⊢
  rw [cause?, read]
  · rfl
  · simp

theorem ofTree?_toJson {atom : Atom} (portable : atom.payload.Portable) :
    ofTree? atom.toJson.toTree =
      if atom.payload.depth ≤ Payload.nestingLimit then some atom else none := by
  obtain ⟨id, cause, payload⟩ := atom
  have read := Payload.ofTree?_toJson portable
  cases cause with
  | none =>
    by_cases fits : payload.depth ≤ Payload.nestingLimit <;>
      simp [ofTree?, toJson, toTree, fieldTrees, Tree.fields?, Tree.objectFields?,
        AtomId.ofTree?_toJson, cause?, read, fits]
  | some cause =>
    by_cases fits : payload.depth ≤ Payload.nestingLimit <;>
      simp [ofTree?, toJson, toTree, fieldTrees, Tree.fields?, Tree.objectFields?,
        AtomId.ofTree?_toJson, cause?_toJson, read, fits]

theorem parse?_toJson {atom : Atom} (portable : atom.payload.Portable) :
    parse? atom.toJson.compactText =
      if atom.payload.depth ≤ Payload.nestingLimit then some atom else none := by
  rw [parse?, Tree.parse?_compactText (discrete_toJson portable), Option.bind_some,
    ofTree?_toJson portable]

end Atom
end CausalWeave
