import CausalWeave.Proofs.Content
import Mathlib.Logic.Relation

namespace CausalWeave

/-- An atom of the list has the first id and names the second as its cause. -/
def NamesCause (atoms : List Atom) (effect cause : AtomId) : Prop :=
  ∃ atom ∈ atoms, atom.id = effect ∧ atom.cause = some cause

/-- The chain of causes of an atom stays in the list and ends at a root. -/
inductive Rooted (atoms : List Atom) : Atom → Prop where
  | root {atom : Atom} (member : atom ∈ atoms) (uncaused : atom.cause = none) : Rooted atoms atom
  | effect {parent atom : Atom} (parent_rooted : Rooted atoms parent) (member : atom ∈ atoms)
      (caused : atom.cause = some parent.id) : Rooted atoms atom

/-- The causes of atoms of the list lead from the first id to the second, in one step or more. -/
abbrev Descends (atoms : List Atom) (descendant ancestor : AtomId) : Prop :=
  Relation.TransGen (NamesCause atoms) descendant ancestor

/-- The chain of causes that begins at an id comes back to it, after one step or more. -/
def OnCycle (atoms : List Atom) (id : AtomId) : Prop :=
  Relation.TransGen (NamesCause atoms) id id

theorem Rooted.mem (rooted : Rooted atoms atom) : atom ∈ atoms := by
  cases rooted with
  | root member _ => exact member
  | effect _ member _ => exact member

theorem Rooted.mono {some atoms : List Atom} (subset : ∀ atom ∈ some, atom ∈ atoms)
    (rooted : Rooted some atom) : Rooted atoms atom := by
  induction rooted with
  | root member uncaused => exact .root (subset _ member) uncaused
  | effect _ member caused ih => exact .effect ih (subset _ member) caused

theorem onCycle_of_self {atoms : List Atom} {atom : Atom} (member : atom ∈ atoms)
    (caused : atom.cause = some atom.id) : OnCycle atoms atom.id :=
  .single ⟨atom, member, rfl, caused⟩

theorem Within.namesCause {some atoms : List Atom} (within : Within some atoms)
    (names : NamesCause some effect cause) : NamesCause atoms effect cause := by
  obtain ⟨atom, member, same, caused⟩ := names
  obtain ⟨other, present, agree⟩ := within atom member
  exact ⟨other, present, (Atom.id_eq_of_same agree).symm.trans same,
    (Atom.cause_eq_of_same agree).symm.trans caused⟩

theorem Within.rooted {some atoms : List Atom} (within : Within some atoms)
    (rooted : Rooted some atom) : ∃ other, atom.same other = true ∧ Rooted atoms other := by
  induction rooted with
  | root member uncaused =>
    obtain ⟨other, present, same⟩ := within _ member
    exact ⟨other, same, .root present ((Atom.cause_eq_of_same same).symm.trans uncaused)⟩
  | effect _ member caused ih =>
    obtain ⟨parent, agree, parent_rooted⟩ := ih
    obtain ⟨other, present, same⟩ := within _ member
    refine ⟨other, same, .effect parent_rooted present ?_⟩
    rw [← Atom.cause_eq_of_same same, caused, Atom.id_eq_of_same agree]

theorem NamesCause.cause_eq {atoms : List Atom} (distinct : (atoms.map (·.id)).Nodup)
    (names : NamesCause atoms effect cause) {atom : Atom} (member : atom ∈ atoms)
    (same : atom.id = effect) : atom.cause = some cause := by
  obtain ⟨other, present, here, caused⟩ := names
  rw [List.inj_on_of_nodup_map distinct member present (same.trans here.symm), caused]

/-- A chain that ends at a root does not come back to its start. -/
theorem Rooted.not_onCycle {atoms : List Atom} (distinct : (atoms.map (·.id)).Nodup)
    (rooted : Rooted atoms atom) : ¬ OnCycle atoms atom.id := by
  induction rooted with
  | root member uncaused =>
    intro cycle
    obtain ⟨cause, names, _⟩ := Relation.TransGen.head'_iff.mp cycle
    have caused := names.cause_eq distinct member rfl
    simp [uncaused] at caused
  | effect _ member caused ih =>
    intro cycle
    obtain ⟨cause, names, back⟩ := Relation.TransGen.head'_iff.mp cycle
    have next := (names.cause_eq distinct member rfl).symm.trans caused
    rw [Option.some.inj next] at names back
    exact ih (.tail' back names)

section Unique

variable {atoms : List Atom} (unique : (atoms.map (·.id.key)).Nodup)

include unique

theorem eq_of_key {first second : Atom} (member : first ∈ atoms) (present : second ∈ atoms)
    (key : first.id.key = second.id.key) : first = second :=
  List.inj_on_of_nodup_map unique member present key

theorem nodup_ids_of_keys : (atoms.map (·.id)).Nodup := by
  have keys : ((atoms.map (·.id)).map AtomId.key).Nodup := by
    rw [List.map_map]
    exact unique
  exact List.Nodup.of_map _ keys

end Unique
end CausalWeave
