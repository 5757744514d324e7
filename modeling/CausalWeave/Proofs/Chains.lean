import CausalWeave.Proofs.Causality
import Mathlib.Data.Finset.Card

namespace CausalWeave

open Relation

def Acyclic (atoms : List Atom) : Prop :=
  ∀ id, ¬ OnCycle atoms id

/-- The causes, followed through atoms of the list, end at an id that none of them has. -/
inductive Awaits (atoms : List Atom) : Atom → AtomId → Prop where
  | directly {atom : Atom} {missing : AtomId} (caused : atom.cause = some missing)
      (absent : ∀ other ∈ atoms, other.id ≠ missing) : Awaits atoms atom missing
  | behind {atom other : Atom} {missing : AtomId} (caused : atom.cause = some other.id)
      (member : other ∈ atoms) (further : Awaits atoms other missing) : Awaits atoms atom missing

theorem acyclic_nil : Acyclic [] := by
  intro id cycle
  obtain ⟨cause, ⟨atom, member, _⟩, _⟩ := TransGen.head'_iff.mp cycle
  simp at member

theorem Acyclic.subset {some atoms : List Atom} (acyclic : Acyclic atoms)
    (subset : ∀ atom ∈ some, atom ∈ atoms) : Acyclic some := by
  intro id cycle
  refine acyclic id (TransGen.mono ?_ _ _ cycle)
  intro effect cause names
  exact (within_of_subset subset).namesCause names

/-- A chain through one more atom does not pass it, or passes it once at last. -/
theorem Descends.of_cons {atoms : List Atom} {atom : Atom} (caused : atom.cause = some cause)
    (descends : Descends (atom :: atoms) descendant ancestor) :
    Descends atoms descendant ancestor ∨
      ReflTransGen (NamesCause atoms) descendant atom.id ∧
        ReflTransGen (NamesCause atoms) cause ancestor := by
  have edge : ∀ {effect named}, NamesCause (atom :: atoms) effect named →
      effect = atom.id ∧ named = cause ∨ NamesCause atoms effect named := by
    rintro effect named ⟨other, member, same, names⟩
    rcases List.mem_cons.mp member with here | old
    · rw [here, caused, Option.some.injEq] at names
      exact .inl ⟨by rw [← same, here], names.symm⟩
    · exact .inr ⟨other, old, same, names⟩
  induction descends with
  | single names =>
    rcases edge names with ⟨rfl, rfl⟩ | old
    · exact .inr ⟨.refl, .refl⟩
    · exact .inl (.single old)
  | tail _ names ih =>
    rcases edge names with ⟨rfl, rfl⟩ | old
    · rcases ih with before | ⟨before, _⟩
      · exact .inr ⟨before.to_reflTransGen, .refl⟩
      · exact .inr ⟨before, .refl⟩
    · rcases ih with before | ⟨before, further⟩
      · exact .inl (before.tail old)
      · exact .inr ⟨before, further.tail old⟩

/-- An atom closes no cycle if its cause is another id that does not lead to it. -/
theorem Acyclic.cons {atoms : List Atom} (acyclic : Acyclic atoms) {atom : Atom}
    (caused : atom.cause = some cause) (apart : cause ≠ atom.id)
    (onward : ¬ Descends atoms cause atom.id) : Acyclic (atom :: atoms) := by
  intro id cycle
  rcases Descends.of_cons caused cycle with old | ⟨before, further⟩
  · exact acyclic id old
  · rcases reflTransGen_iff_eq_or_transGen.mp (further.trans before) with same | descends
    · exact apart same.symm
    · exact onward descends

section Length

variable {atoms : List Atom}

open Classical in
/-- How many atoms of the list have an id to which the chain from an id comes. -/
noncomputable def chainLength (atoms : List Atom) (id : AtomId) : Nat :=
  ((atoms.map (·.id)).toFinset.filter fun other => ReflTransGen (NamesCause atoms) id other).card

theorem chainLength_le (id : AtomId) : chainLength atoms id ≤ atoms.length := by
  classical
  calc chainLength atoms id ≤ (atoms.map (·.id)).toFinset.card := Finset.card_filter_le _ _
    _ ≤ (atoms.map (·.id)).length := List.toFinset_card_le _
    _ = atoms.length := List.length_map _

variable (acyclic : Acyclic atoms)

include acyclic

theorem Acyclic.chainLength_lt (names : NamesCause atoms effect cause) :
    chainLength atoms cause < chainLength atoms effect := by
  classical
  apply Finset.card_lt_card
  rw [Finset.ssubset_iff_of_subset]
  · have ⟨atom, member, same, _⟩ := names
    refine ⟨effect, ?_, ?_⟩
    · simpa using ⟨⟨atom, member, same⟩, ReflTransGen.refl⟩
    · intro passed
      exact acyclic effect (.head' names (Finset.mem_filter.mp passed).2)
  · intro other passed
    rw [Finset.mem_filter] at passed ⊢
    exact ⟨passed.1, .head names passed.2⟩

theorem Acyclic.exists_awaits (caused : ∀ atom ∈ atoms, ∃ cause, atom.cause = some cause)
    (member : atom ∈ atoms) : ∃ missing, Awaits atoms atom missing := by
  induction length : chainLength atoms atom.id using Nat.strongRecOn generalizing atom with
  | ind count ih =>
    obtain ⟨cause, names⟩ := caused atom member
    by_cases held : ∃ other ∈ atoms, other.id = cause
    · obtain ⟨other, present, rfl⟩ := held
      have shorter := acyclic.chainLength_lt ⟨atom, member, rfl, names⟩
      obtain ⟨missing, further⟩ := ih _ (length ▸ shorter) present rfl
      exact ⟨missing, .behind names present further⟩
    · push Not at held
      exact ⟨cause, .directly names held⟩

end Length

namespace Awaits

variable {atoms : List Atom} {atom : Atom} {missing : AtomId}

theorem absent (awaits : Awaits atoms atom missing) : ∀ other ∈ atoms, other.id ≠ missing := by
  induction awaits with
  | directly _ absent => exact absent
  | behind _ _ _ ih => exact ih

theorem exists_caused (awaits : Awaits atoms atom missing) (member : atom ∈ atoms) :
    ∃ other ∈ atoms, other.cause = some missing := by
  induction awaits with
  | directly caused _ => exact ⟨_, member, caused⟩
  | behind _ present _ ih => exact ih present

theorem unique (distinct : (atoms.map (·.id)).Nodup) (awaits : Awaits atoms atom missing)
    (also : Awaits atoms atom other) : other = missing := by
  induction awaits with
  | directly caused absent =>
    cases also with
    | directly caused' _ => simpa [caused] using caused'.symm
    | behind caused' member _ =>
      rw [caused, Option.some.injEq] at caused'
      exact absurd caused'.symm (absent _ member)
  | behind caused member _ ih =>
    cases also with
    | directly caused' absent =>
      rw [caused, Option.some.injEq] at caused'
      exact absurd caused' (absent _ member)
    | behind caused' member' further =>
      rw [caused, Option.some.injEq] at caused'
      have same := List.inj_on_of_nodup_map distinct member member' caused'
      exact ih (same ▸ further)

end Awaits
end CausalWeave
