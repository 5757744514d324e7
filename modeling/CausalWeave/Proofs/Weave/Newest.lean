import CausalWeave.Proofs.Weave.Children
import CausalWeave.Proofs.Weave.Position
import Mathlib.Algebra.GroupWithZero.Nat

namespace CausalWeave

/-- A newer sibling comes first unless its priority is lower. -/
theorem AtomId.siblingOrder_of_newer {id other : AtomId} (newer : other.timestamp < id.timestamp) :
    id.siblingOrder other = .lt ↔ other.priority ≤ id.priority := by
  have later : compare other.timestamp id.timestamp = .lt := Std.compare_eq_lt.mpr newer
  have order : id.siblingOrder other =
      ((compare other.priority id.priority).then (compare other.timestamp id.timestamp)).then
        (compare id.site.name other.site.name) := rfl
  rw [order, later, ← Std.isLE_compare]
  cases compare other.priority id.priority <;> simp

theorem Atom.Precedes.priority_le {first second : Atom} (precedes : first.Precedes second) :
    second.id.priority ≤ first.id.priority := by
  have order : ((compare second.id.priority first.id.priority).then
      (compare second.id.timestamp first.id.timestamp)).then
        (compare first.id.site.name second.id.site.name) = .lt := precedes
  rw [← Std.isLE_compare]
  cases rank : compare second.id.priority first.id.priority with
  | lt => rfl
  | eq => rfl
  | gt => simp [rank] at order

namespace Weave

/-- The index at which the atoms with a cause begin, or the roots; none when the cause is not woven. -/
def firstIndex? (weave : Weave) : Option AtomId → Option Nat
  | none => some 0
  | some cause => (weave.position? cause).map (· + 1)

def extent (weave : Weave) (id : AtomId) : Nat :=
  1 + (weave.descendantCount? id).getD 0

/-- How many atoms there are in the subtrees of the siblings that have a higher priority. -/
def extentAbove (weave : Weave) (siblings : List AtomId) (priority : Int32) : Nat :=
  ((siblings.filter (priority < ·.priority)).map weave.extent).sum

theorem extentAbove_eq_zero {weave : Weave} {siblings : List AtomId} {priority : Int32}
    (lower : ∀ sibling ∈ siblings, sibling.priority ≤ priority) :
    weave.extentAbove siblings priority = 0 := by
  have none_above : siblings.filter (priority < ·.priority) = [] := by
    apply List.filter_eq_nil_iff.mpr
    intro sibling member
    simpa using lower sibling member
  simp [extentAbove, none_above]

theorem slot_of_newest {weave : Weave} {forest : Forest} {id : AtomId}
    (held : forest.Held weave.nodes parent)
    (known : ∀ handle atom, (handle, atom) ∈ forest.entries → weave.handle? atom.id = some handle)
    (sorted : forest.row.Pairwise Atom.Precedes)
    (newest : ∀ sibling ∈ forest.row, sibling.id.timestamp < id.timestamp) :
    forest.slot id = weave.extentAbove (forest.row.map (·.id)) id.priority := by
  induction forest with
  | nil => rfl
  | cons handle sibling below beside _ ih =>
    obtain ⟨node, _, _, outer⟩ := held
    obtain ⟨first, later⟩ := List.pairwise_cons.mp sorted
    have order := AtomId.siblingOrder_of_newer (newest sibling (by simp [Forest.row]))
    by_cases above : id.priority < sibling.id.priority
    · have extent : weave.extent sibling.id = 1 + below.size := by
        have found := known handle sibling (by simp [Forest.entries])
        simp [Weave.extent, descendantCount?, found, span, node]
      have passed : id.siblingOrder sibling.id ≠ .lt := by
        rw [ne_eq, order]
        exact Int32.not_le.mpr above
      have rest := ih outer (fun handle atom member => known handle atom (by simp [Forest.entries, member]))
        later (fun other member => newest other (by simp [Forest.row, member]))
      simp [Forest.slot, passed, rest, Forest.row, extentAbove, above, extent]
    · have low : sibling.id.priority ≤ id.priority := Int32.not_lt.mp above
      rw [Forest.slot, if_pos (order.mpr low)]
      symm
      apply extentAbove_eq_zero
      intro other member
      rcases List.mem_cons.mp member with same | behind
      · exact same ▸ low
      · obtain ⟨atom, present, rfl⟩ := List.mem_map.mp behind
        exact Int32.le_trans (first atom present).priority_le low

theorem start_siblings? (weave : Weave) (cause : Option AtomId) :
    (weave.siblings? cause).map (·.start) = weave.firstIndex? cause := by
  cases cause with
  | none => rfl
  | some cause => simp [siblings?, firstIndex?, position?, Function.comp_def]

theorem exists_siblings_of_inserted {weave : Weave} {atom : Atom}
    (inserted : weave.insert atom = .ok (.inserted position, later)) :
    ∃ run, weave.siblings? atom.cause = some run ∧
      weave.insertionIndex run.start run.stop atom.id = position := by
  unfold insert at inserted
  split at inserted
  · simp at inserted
  · split at inserted
    · split at inserted <;> simp at inserted
    · split at inserted
      · simp at inserted
      · rename_i run found
        simp only [Except.ok.injEq, Prod.mk.injEq, Placement.inserted.injEq] at inserted
        exact ⟨run, found, inserted.1⟩

/-- An atom that is newer than all others is placed behind the siblings of a higher priority. -/
theorem Sound.placed_newest {weave : Weave} (sound : weave.Sound) {atom : Atom}
    (newest : ∀ other ∈ weave.toList, other.id.timestamp < atom.id.timestamp)
    (inserted : weave.insert atom = .ok (.inserted position, later)) :
    ∃ first, weave.firstIndex? atom.cause = some first ∧
      position = first + weave.extentAbove (weave.effects atom.cause) atom.id.priority := by
  have causal := (sound.exists_inserted_iff.mp ⟨position, later, inserted⟩).2
  obtain ⟨run, found, rfl⟩ := exists_siblings_of_inserted inserted
  obtain ⟨forest, holds⟩ := sound
  obtain ⟨path, level, skip, leads, caused, siblings⟩ := holds.siblings?_of_contains causal
  rw [found, Option.some.injEq] at siblings
  subst run
  obtain ⟨_, _, stands, length⟩ := holds.row_stands leads
  have held := leads.held holds.held
  have index := weave.insertionIndex_of_stands held stands atom.id
  have ids := weave.siblingIds_of_stands held stands
  rw [length] at index ids
  have row := holds.row_eq leads
  have slot : level.forest.slot atom.id = _ := slot_of_newest held ?known ?sorted ?newest
  case known =>
    intro handle other member
    obtain ⟨before, after, walk, _⟩ := leads.split
    apply holds.handle?_eq_some_iff.mpr
    exact ⟨other, by simp [show forest.entries = _ from walk, member], rfl⟩
  case sorted =>
    rw [row]
    exact pairwise_siblingsIn (holds.toList_eq ▸ holds.distinct) level.cause
  case newest =>
    intro sibling member
    rw [row] at member
    exact newest sibling (mem_siblingsIn.mp member).1
  refine ⟨skip, ?_, ?_⟩
  · rw [← start_siblings?, found]
    rfl
  · rw [effects_of_siblings? found, ids, ← slot]
    exact index

end Weave
end CausalWeave
