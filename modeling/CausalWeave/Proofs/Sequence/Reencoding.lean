import CausalWeave.Proofs.Json.Reading
import CausalWeave.Proofs.Sequence

namespace CausalWeave

namespace Payload

/-- A payload as one that was read: a value in it is well-formed and nested within the limit. -/
def Readable : Payload → Prop
  | json value => Json.Readable nestingLimit value
  | _ => True

def Discrete : Payload → Prop
  | json value => value.Discrete
  | _ => True

variable {payload : Payload}

theorem Readable.portable (readable : payload.Readable) (discrete : payload.Discrete) :
    payload.Portable := by
  cases payload with
  | json value => exact ⟨readable.wellFormed, discrete⟩
  | _ => trivial

theorem Readable.shallow (readable : payload.Readable) : payload.depth ≤ nestingLimit := by
  cases payload with
  | json value => exact Json.Readable.shallow readable
  | _ => exact Nat.zero_le _

/-- The kind decides how a value is read; only JSON has a depth, and it is read within the limit. -/
theorem readable_of_ofKind? {kind : String} {value : Option Json.Tree}
    (read : ofKind? kind value = some payload) : payload.Readable := by
  unfold ofKind? at read
  split at read
  · exact Option.some.inj read ▸ trivial
  · exact Option.some.inj read ▸ trivial
  · obtain ⟨_, _, rfl⟩ := Option.map_eq_some_iff.mp read
    trivial
  · obtain ⟨_, _, rfl⟩ := Option.map_eq_some_iff.mp read
    trivial
  · obtain ⟨_, found, rfl⟩ := Option.map_eq_some_iff.mp read
    exact Json.readable_of_ofTree? found
  · cases read

theorem readable_of_ofTree? {tree : Json.Tree} (read : ofTree? tree = some payload) :
    payload.Readable := by
  unfold ofTree? at read
  split at read
  · obtain ⟨kind, _, found⟩ := Option.bind_eq_some_iff.mp read
    exact readable_of_ofKind? found
  · obtain ⟨kind, _, found⟩ := Option.bind_eq_some_iff.mp read
    exact readable_of_ofKind? found
  · cases read

end Payload

namespace Atom

theorem readable_of_ofTree? {tree : Json.Tree} {atom : Atom} (read : ofTree? tree = some atom) :
    atom.payload.Readable := by
  unfold ofTree? at read
  split at read
  · rename_i id cause payload _
    cases payload with
    | none =>
      simp only [bind, Option.bind_eq_some_iff, pure, Option.some.injEq] at read
      obtain ⟨_, _, _, _, _, rfl, rfl⟩ := read
      trivial
    | some tree =>
      simp only [bind, Option.bind_eq_some_iff, pure, Option.some.injEq] at read
      obtain ⟨_, _, _, _, _, found, rfl⟩ := read
      exact Payload.readable_of_ofTree? found
  · cases read

theorem readable_of_parse? {chars : List Char} {atom : Atom} (read : parse? chars = some atom) :
    atom.payload.Readable := by
  obtain ⟨tree, _, found⟩ := Option.bind_eq_some_iff.mp read
  exact readable_of_ofTree? found

end Atom

namespace Sequence

theorem readable_of_decodeLines {number : Nat} {lines : List (List Char)} {atoms : List Atom}
    (read : decodeLines number lines = .ok atoms) : ∀ atom ∈ atoms, atom.payload.Readable := by
  induction lines generalizing number atoms with
  | nil =>
    obtain rfl : [] = atoms := by simpa [decodeLines] using read
    simp
  | cons line rest ih =>
    rw [decodeLines] at read
    split at read
    · exact ih read
    · split at read
      · cases read
      · rename_i first found
        cases others : decodeLines (number + 1) rest with
        | error failed => simp [others, Except.map] at read
        | ok later =>
          obtain rfl : first :: later = atoms := by simpa [others, Except.map] using read
          exact List.forall_mem_cons.mpr ⟨Atom.readable_of_parse? found, ih others⟩

/-- The header and the atoms are the lines of what is written. -/
theorem lines_encode {atoms : List Atom} (portable : ∀ atom ∈ atoms, atom.payload.Portable) :
    lines (encode atoms).toList = header.toList :: atoms.map fun atom => atom.toJson.compactText := by
  have headed : Json.OneLine header.toList := by decide
  rw [encode, String.toList_ofList, lines, linesFrom_line headed, linesFrom_encodeLines portable]

/-- Whatever a text is read as, in whichever notation, holds no value that is not well-formed or is nested
too deep. If no number in it is a double, it is written so that the same is read again. -/
theorem decode_encode_of_decode {text : String} {atoms : List Atom} (read : decode text = .ok atoms)
    (discrete : ∀ atom ∈ atoms, atom.payload.Discrete) :
    (∀ atom ∈ atoms, atom.payload.Readable) ∧ decode (encode atoms) = .ok atoms := by
  have readable : ∀ atom ∈ atoms, atom.payload.Readable := readable_of_decodeLines read
  have portable : ∀ atom ∈ atoms, atom.payload.Portable := fun atom member =>
    (readable atom member).portable (discrete atom member)
  have shallow : atoms.findIdx? (fun atom => Payload.nestingLimit < atom.payload.depth) = none := by
    apply List.findIdx?_eq_none_iff.mpr
    intro atom member
    simpa using (readable atom member).shallow
  have skipped : isSkipped header.toList = true := by decide
  refine ⟨readable, ?_⟩
  rw [decode, lines_encode portable, decodeLines, if_pos skipped, decodeLines_toJson portable, shallow]

/-- A comment, a blank line, records as an array and as an object, fields in another order, defaults, a
repeated name, an unknown one with a number out of range, and lines that end in different ways. -/
def mixedText : String :=
  "#\r\n \n[[\"a\",7],null,[\"json\",\x7b\"b\":1,\"\\u0061\":[],\"b\":[-2]\x7d]]\r\n" ++
    "\x7b\"payload\":\x7b\"value\":\"#\\n\",\"kind\":\"text\"\x7d,\"x\":1e999,\"id\":[\"a\",8]\x7d"

def mixedAtoms : List Atom :=
  [{ id := { site := ⟨"a"⟩, timestamp := 7 }
     payload := .json (.object [("a", .array []), ("b", .array [.whole (-2)])]) },
   { id := { site := ⟨"a"⟩, timestamp := 8 }, payload := .text "#\n" }]

theorem decode_encode_of_decode_mixed :
    decode mixedText = .ok mixedAtoms ∧ decode (encode mixedAtoms) = .ok mixedAtoms := by
  have read : decode mixedText = .ok mixedAtoms := by
    set_option maxRecDepth 1000 in
    rfl
  have discrete : ∀ atom ∈ mixedAtoms, atom.payload.Discrete := by
    simp [mixedAtoms, Payload.Discrete]
  exact ⟨read, (decode_encode_of_decode read discrete).2⟩

end Sequence
end CausalWeave
