import CausalWeave.Atom
import Mathlib.Data.List.Nodup

namespace CausalWeave

theorem Double.same_symm {first second : Double} (agree : first.same second = true) :
    second.same first = true := by
  simp only [same, Bool.and_eq_true, Bool.or_eq_true, beq_iff_eq] at agree ⊢
  obtain ⟨rank, sign | zero⟩ := agree
  · exact ⟨rank.symm, .inl sign.symm⟩
  · exact ⟨rank.symm, .inr (rank.symm.trans zero)⟩

theorem Double.same_trans {first second third : Double} (agree : first.same second = true)
    (also : second.same third = true) : first.same third = true := by
  simp only [same, Bool.and_eq_true, Bool.or_eq_true, beq_iff_eq] at agree also ⊢
  obtain ⟨rank, sign⟩ := agree
  obtain ⟨rank', sign'⟩ := also
  refine ⟨rank.trans rank', ?_⟩
  rcases sign with sign | zero
  · rcases sign' with sign' | zero
    · exact .inl (sign.trans sign')
    · exact .inr (rank.trans zero)
  · exact .inr zero

namespace Json

mutual

theorem same_symm : {first second : Json} → first.same second = true → second.same first = true
  | null, second, agree => by cases second <;> simp_all [same]
  | bool _, second, agree => by cases second <;> simp_all [same]
  | whole _, second, agree => by cases second <;> simp_all [same]
  | text _, second, agree => by cases second <;> simp_all [same]
  | double _, second, agree => by
    cases second with
    | double _ => exact Double.same_symm (by simpa [same] using agree)
    | _ => simp [same] at agree
  | array _, second, agree => by
    cases second with
    | array _ => simpa [same] using sameItems_symm (by simpa [same] using agree)
    | _ => simp [same] at agree
  | object _, second, agree => by
    cases second with
    | object _ => simpa [same] using sameFields_symm (by simpa [same] using agree)
    | _ => simp [same] at agree

private theorem sameItems_symm : {firsts seconds : List Json} →
    sameItems firsts seconds = true → sameItems seconds firsts = true
  | [], [], _ => rfl
  | first :: firsts, second :: seconds, agree => by
    simp only [sameItems, Bool.and_eq_true] at agree ⊢
    exact ⟨same_symm agree.1, sameItems_symm agree.2⟩

private theorem sameFields_symm : {firsts seconds : List (String × Json)} →
    sameFields firsts seconds = true → sameFields seconds firsts = true
  | [], [], _ => rfl
  | (_, first) :: firsts, (_, second) :: seconds, agree => by
    simp only [sameFields, Bool.and_eq_true, beq_iff_eq] at agree ⊢
    exact ⟨⟨agree.1.1.symm, same_symm agree.1.2⟩, sameFields_symm agree.2⟩

end

mutual

theorem same_trans : {first second third : Json} → first.same second = true →
    second.same third = true → first.same third = true
  | null, second, third, agree, also => by
    cases second with
    | null => exact also
    | _ => simp [same] at agree
  | bool _, second, third, agree, also => by
    cases second with
    | bool _ =>
      rw [same, beq_iff_eq] at agree
      exact agree ▸ also
    | _ => simp [same] at agree
  | whole _, second, third, agree, also => by
    cases second with
    | whole _ =>
      rw [same, beq_iff_eq] at agree
      exact agree ▸ also
    | _ => simp [same] at agree
  | text _, second, third, agree, also => by
    cases second with
    | text _ =>
      rw [same, beq_iff_eq] at agree
      exact agree ▸ also
    | _ => simp [same] at agree
  | double _, second, third, agree, also => by
    cases second with
    | double _ =>
      cases third with
      | double _ =>
        simp only [same] at agree also ⊢
        exact Double.same_trans agree also
      | _ => simp [same] at also
    | _ => simp [same] at agree
  | array _, second, third, agree, also => by
    cases second with
    | array _ =>
      cases third with
      | array _ =>
        simp only [same] at agree also ⊢
        exact sameItems_trans agree also
      | _ => simp [same] at also
    | _ => simp [same] at agree
  | object _, second, third, agree, also => by
    cases second with
    | object _ =>
      cases third with
      | object _ =>
        simp only [same] at agree also ⊢
        exact sameFields_trans agree also
      | _ => simp [same] at also
    | _ => simp [same] at agree

private theorem sameItems_trans : {firsts seconds thirds : List Json} →
    sameItems firsts seconds = true → sameItems seconds thirds = true →
      sameItems firsts thirds = true
  | [], [], [], _, _ => rfl
  | first :: firsts, second :: seconds, third :: thirds, agree, also => by
    simp only [sameItems, Bool.and_eq_true] at agree also ⊢
    exact ⟨same_trans agree.1 also.1, sameItems_trans agree.2 also.2⟩

private theorem sameFields_trans : {firsts seconds thirds : List (String × Json)} →
    sameFields firsts seconds = true → sameFields seconds thirds = true →
      sameFields firsts thirds = true
  | [], [], [], _, _ => rfl
  | (_, first) :: firsts, (_, second) :: seconds, (_, third) :: thirds, agree, also => by
    simp only [sameFields, Bool.and_eq_true, beq_iff_eq] at agree also ⊢
    exact ⟨⟨agree.1.1.trans also.1.1, same_trans agree.1.2 also.1.2⟩,
      sameFields_trans agree.2 also.2⟩

end

end Json

theorem Payload.same_symm {first second : Payload} (agree : first.same second = true) :
    second.same first = true := by
  cases first <;> cases second <;> simp_all [same, Json.same_symm]

theorem Payload.same_trans {first second third : Payload} (agree : first.same second = true)
    (also : second.same third = true) : first.same third = true := by
  cases first with
  | json first =>
    cases second with
    | json second =>
      cases third with
      | json third =>
        simp only [same] at agree also ⊢
        exact Json.same_trans agree also
      | _ => simp [same] at also
    | _ => simp [same] at agree
  | _ => cases second <;> simp_all [same]

namespace Atom

theorem same_symm {first second : Atom} (agree : first.same second = true) :
    second.same first = true := by
  simp only [same, Bool.and_eq_true, beq_iff_eq] at agree ⊢
  exact ⟨⟨agree.1.1.symm, agree.1.2.symm⟩, Payload.same_symm agree.2⟩

theorem same_trans {first second third : Atom} (agree : first.same second = true)
    (also : second.same third = true) : first.same third = true := by
  simp only [same, Bool.and_eq_true, beq_iff_eq] at agree also ⊢
  exact ⟨⟨agree.1.1.trans also.1.1, agree.1.2.trans also.1.2⟩, Payload.same_trans agree.2 also.2⟩

end Atom

/-- No two atoms of the list share a site and a timestamp and differ in content. -/
def Coherent (atoms : List Atom) : Prop :=
  ∀ first ∈ atoms, ∀ second ∈ atoms, first.id.key = second.id.key → first.same second = true

/-- Every atom of the first list has the content of an atom of the second. -/
def Within (some atoms : List Atom) : Prop :=
  ∀ atom ∈ some, ∃ other ∈ atoms, atom.same other = true

theorem within_of_subset {some atoms : List Atom} (subset : ∀ atom ∈ some, atom ∈ atoms) :
    Within some atoms :=
  fun atom member => ⟨atom, subset atom member, atom.same_refl⟩

theorem Within.trans {first second third : List Atom} (within : Within first second)
    (further : Within second third) : Within first third := by
  intro atom member
  obtain ⟨other, present, same⟩ := within atom member
  obtain ⟨last, known, same'⟩ := further other present
  exact ⟨last, known, Atom.same_trans same same'⟩

theorem Within.append {first second third fourth : List Atom} (within : Within first second)
    (also : Within third fourth) : Within (first ++ third) (second ++ fourth) := by
  intro atom member
  rcases List.mem_append.mp member with here | there
  · obtain ⟨other, present, same⟩ := within atom here
    exact ⟨other, List.mem_append_left _ present, same⟩
  · obtain ⟨other, present, same⟩ := also atom there
    exact ⟨other, List.mem_append_right _ present, same⟩

theorem coherent_of_unique {atoms : List Atom} (unique : (atoms.map (·.id.key)).Nodup) :
    Coherent atoms := by
  intro first member second present key
  rw [List.inj_on_of_nodup_map unique member present key]
  exact second.same_refl

theorem Coherent.of_within {some atoms : List Atom} (coherent : Coherent atoms)
    (within : Within some atoms) : Coherent some := by
  intro first member second present key
  obtain ⟨other, known, same⟩ := within first member
  obtain ⟨other', known', same'⟩ := within second present
  rw [Atom.id_eq_of_same same, Atom.id_eq_of_same same'] at key
  have agree := coherent other known other' known' key
  exact Atom.same_trans same (Atom.same_trans agree (Atom.same_symm same'))

theorem Within.coherent {some atoms : List Atom} (within : Within some atoms)
    (unique : (atoms.map (·.id.key)).Nodup) : Coherent some :=
  (coherent_of_unique unique).of_within within

end CausalWeave
