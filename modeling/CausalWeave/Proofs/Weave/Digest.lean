import CausalWeave.Weave.Digest
import CausalWeave.Proofs.Replica.Reachable
import Mathlib.Data.List.Permutation

/-! The ids of a weave are hashed one after the other with nothing between them, and still the bytes give back
the ids: each id begins with the length of its only part that varies. -/

namespace CausalWeave

/-- A name whose length fits into the eight bytes that are there for it, as any name in memory does. -/
def Site.Fits (site : Site) : Prop :=
  site.name.utf8ByteSize < UInt64.size

instance (site : Site) : Decidable site.Fits :=
  inferInstanceAs (Decidable (site.name.utf8ByteSize < UInt64.size))

def digestInput (ids : List AtomId) : ByteArray :=
  ByteArray.mk (ids.flatMap AtomId.digestBytes).toArray

def Weave.ids (weave : Weave) : List AtomId :=
  weave.toList.map (·.id)

theorem Weave.digest_eq (weave : Weave) : weave.digest =
    "blake3:" ++ String.ofList (hexText (Blake3.hash (digestInput weave.ids))) :=
  rfl

theorem littleEndian_inj {width first second : Nat}
    (same : littleEndian width first = littleEndian width second) (bounded : first < Nat.pow 256 width)
    (bounded' : second < Nat.pow 256 width) : first = second := by
  induction width generalizing first second with
  | zero =>
    have zero : first < 1 := bounded
    have zero' : second < 1 := bounded'
    omega
  | succ width ih =>
    rw [littleEndian, littleEndian, List.cons.injEq] at same
    have low := congrArg UInt8.toNat same.1
    simp only [UInt8.toNat_ofNat', Nat.reducePow, Nat.mod_mod] at low
    have high : first / 256 = second / 256 :=
      ih same.2 (Nat.div_lt_of_lt_mul (Nat.mul_comm .. ▸ bounded))
        (Nat.div_lt_of_lt_mul (Nat.mul_comm .. ▸ bounded'))
    omega

private theorem toList_loop_eq (bytes : ByteArray) (index : Nat) (read : List UInt8) :
    ByteArray.toList.loop bytes index read = read.reverse ++ bytes.data.toList.drop index := by
  fun_induction ByteArray.toList.loop bytes index read with
  | case1 index read inside ih =>
    have short : index < bytes.data.toList.length := by simpa using inside
    rw [ih, List.drop_eq_getElem_cons short]
    simp [ByteArray.get!, inside]
  | case2 index read outside =>
    rw [List.drop_eq_nil_of_le (by simpa using outside), List.append_nil]

theorem toList_toUTF8 (text : String) : text.toUTF8.toList = text.toByteArray.data.toList := by
  rw [ByteArray.toList, toList_loop_eq]
  simp

theorem length_toUTF8 (text : String) : text.toUTF8.toList.length = text.utf8ByteSize := by
  rw [toList_toUTF8, Array.length_toList, ByteArray.size_data, String.size_toByteArray]

theorem toUTF8_inj {first second : String} (same : first.toUTF8.toList = second.toUTF8.toList) :
    first = second := by
  rw [toList_toUTF8, toList_toUTF8, Array.toList_inj] at same
  exact String.toByteArray_inj.mp (ByteArray.ext same)

namespace AtomId

/-- An id is read off the front of the bytes, whatever follows it. -/
theorem digestBytes_append_inj {first second : AtomId} (fits : first.site.Fits)
    (fits' : second.site.Fits) {rest rest' : List UInt8}
    (same : first.digestBytes ++ rest = second.digestBytes ++ rest') : first = second ∧ rest = rest' := by
  simp only [digestBytes, List.append_assoc] at same
  have widths : ∀ width value value',
      (littleEndian width value).length = (littleEndian width value').length := by
    simp [length_littleEndian]
  obtain ⟨length, same⟩ := List.append_inj same (widths ..)
  have size := littleEndian_inj length (by rw [length_toUTF8]; exact fits)
    (by rw [length_toUTF8]; exact fits')
  obtain ⟨name, same⟩ := List.append_inj same size
  obtain ⟨timestamp, same⟩ := List.append_inj same (widths ..)
  obtain ⟨priority, rest⟩ := List.append_inj same (widths ..)
  refine ⟨?_, rest⟩
  have site : first.site = second.site := congrArg Site.mk (toUTF8_inj name)
  have time : first.timestamp = second.timestamp := UInt64.toNat_inj.mp
    (littleEndian_inj timestamp first.timestamp.toNat_lt_size second.timestamp.toNat_lt_size)
  have rank : first.priority = second.priority := congrArg Int32.ofUInt32 (UInt32.toNat_inj.mp
    (littleEndian_inj priority (UInt32.toNat_lt_size _) (UInt32.toNat_lt_size _)))
  cases first
  cases second
  simp_all

theorem digestBytes_ne_nil (id : AtomId) : id.digestBytes ≠ [] := by
  apply List.ne_nil_of_length_pos
  simp only [digestBytes, List.length_append, length_littleEndian]
  omega

end AtomId

/-- Ids in an order are read off their bytes one by one. -/
theorem flatMap_digestBytes_inj {first second : List AtomId} (fits : ∀ id ∈ first, id.site.Fits)
    (fits' : ∀ id ∈ second, id.site.Fits)
    (same : first.flatMap AtomId.digestBytes = second.flatMap AtomId.digestBytes) : first = second := by
  induction first generalizing second with
  | nil =>
    cases second with
    | nil => rfl
    | cons id rest => simp [AtomId.digestBytes_ne_nil] at same
  | cons id rest ih =>
    cases second with
    | nil => simp [AtomId.digestBytes_ne_nil] at same
    | cons other others =>
      rw [List.forall_mem_cons] at fits fits'
      rw [List.flatMap_cons, List.flatMap_cons] at same
      obtain ⟨here, later⟩ := AtomId.digestBytes_append_inj fits.1 fits'.1 same
      rw [here, ih fits.2 fits'.2 later]

theorem digestInput_inj {first second : List AtomId} (fits : ∀ id ∈ first, id.site.Fits)
    (fits' : ∀ id ∈ second, id.site.Fits) (same : digestInput first = digestInput second) :
    first = second := by
  apply flatMap_digestBytes_inj fits fits'
  simpa [digestInput] using same

theorem hexDigit_inj : ∀ first < 16, ∀ second < 16,
    Json.hexDigit first = Json.hexDigit second → first = second := by
  decide

theorem hexText_inj {first second : List UInt8} (same : hexText first = hexText second) :
    first = second := by
  induction first generalizing second with
  | nil =>
    cases second with
    | nil => rfl
    | cons byte rest => simp [hexText] at same
  | cons byte rest ih =>
    cases second with
    | nil => simp [hexText] at same
    | cons other others =>
      obtain ⟨high, low, same⟩ : Json.hexDigit (byte.toNat / 16) = Json.hexDigit (other.toNat / 16) ∧
          Json.hexDigit (byte.toNat % 16) = Json.hexDigit (other.toNat % 16) ∧
            hexText rest = hexText others := by
        simpa [hexText] using same
      have bounded := byte.toNat_lt
      have bounded' := other.toNat_lt
      have high := hexDigit_inj _ (by omega) _ (by omega) high
      have low := hexDigit_inj _ (by omega) _ (by omega) low
      have here : byte = other := UInt8.toNat_inj.mp (by omega)
      rw [here, ih same]

namespace Weave

theorem digest_eq_iff {first second : Weave} : first.digest = second.digest ↔
    Blake3.hash (digestInput first.ids) = Blake3.hash (digestInput second.ids) := by
  rw [digest_eq, digest_eq, String.append_right_inj, String.ofList_inj]
  exact ⟨hexText_inj, congrArg hexText⟩

/-- The bytes that are hashed name ids and their order. So do digests, for two weaves on whose bytes the
hash does not collide. -/
theorem digest_names_order :
    (∀ first second : List AtomId, (∀ id ∈ first, id.site.Fits) → (∀ id ∈ second, id.site.Fits) →
        digestInput first = digestInput second → first = second) ∧
      ∀ first second : Weave, (∀ id ∈ first.ids, id.site.Fits) → (∀ id ∈ second.ids, id.site.Fits) →
        (Blake3.hash (digestInput first.ids) = Blake3.hash (digestInput second.ids) →
          digestInput first.ids = digestInput second.ids) →
        (first.digest = second.digest ↔ first.ids = second.ids) := by
  refine ⟨fun _ _ => digestInput_inj, ?_⟩
  intro first second fits fits' collisionless
  rw [digest_eq_iff]
  constructor
  · exact fun same => digestInput_inj fits fits' (collisionless same)
  · exact fun same => by rw [same]

/-- The same three ids in two orders, some of them with names that look like lengths. -/
theorem digest_names_order_swapped :
    let root : Atom := { id := { site := ⟨""⟩, timestamp := 1 } }
    let child : Atom := { id := { site := ⟨"\x01\x00"⟩, timestamp := 2, priority := -1 }, cause := some root.id }
    let last : AtomId := { site := ⟨"\x00"⟩, timestamp := 3 }
    let chain := Replica.after ⟨"x"⟩ .unbounded ()
      [.receiveAll [root, child, { id := last, cause := some child.id }]]
    let fan := Replica.after ⟨"x"⟩ .unbounded ()
      [.receiveAll [root, child, { id := last, cause := some root.id }]]
    chain.weave.digest ≠ fan.weave.digest := by
  intro root child last chain fan
  have deep : chain.weave.ids = [root.id, child.id, last] := by
    dsimp +zetaDelta only
    cbv
  have wide : fan.weave.ids = [root.id, last, child.id] := by
    dsimp +zetaDelta only
    cbv
  clear_value chain fan
  have fits : ∀ id ∈ chain.weave.ids, id.site.Fits := by
    rw [deep]
    decide
  have fits' : ∀ id ∈ fan.weave.ids, id.site.Fits := by
    rw [wide]
    decide
  have hashes : Blake3.hash (digestInput chain.weave.ids) ≠ Blake3.hash (digestInput fan.weave.ids) := by
    rw [deep, wide]
    decide +kernel
  rw [ne_eq, digest_names_order.2 _ _ fits fits' fun same => absurd same hashes, deep, wide]
  decide

end Weave
end CausalWeave
