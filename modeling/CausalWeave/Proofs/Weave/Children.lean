import CausalWeave.Proofs.Weave.Linearization
import CausalWeave.Proofs.Weave.Subtree

namespace CausalWeave

/-- The row to which a path leads has all atoms with its cause, and no others. -/
theorem Leads.mem_row_iff {forest : Forest} (leads : Leads ⟨none, none, forest⟩ path found skip)
    (ordered : forest.Ordered none) (distinct : forest.Distinct) {atom : Atom} :
    atom ∈ found.forest.row ↔ atom ∈ forest.atoms ∧ atom.cause = found.cause := by
  obtain ⟨row, inner, all⟩ := leads.family ordered distinct forest.covers_atoms
  constructor
  · intro member
    exact ⟨inner.contained atom (found.forest.row_subset_atoms atom member),
      row.cause_of_mem_row member⟩
  · rintro ⟨member, caused⟩
    have present : atom ∈ found.forest.atoms := by
      cases path with
      | nil =>
        cases leads
        exact member
      | cons target rest => exact all (by simp) atom member caused
    exact row.mem_row_of_cause inner.outside present caused

namespace Weave

theorem siblingIds_of_stands {weave : Weave} {forest : Forest}
    (held : forest.Held weave.nodes parent) {before after : List Handle}
    (stands : weave.order.toList = before ++ forest.handles ++ after) :
    weave.siblingIds before.length (before.length + forest.size) = forest.row.map (·.id) := by
  induction forest generalizing before with
  | nil =>
    rw [siblingIds]
    simp [Forest.row]
  | cons handle sibling below beside _ ih =>
    obtain ⟨here, beyond, length, size⟩ := scan_of_stands held stands
    have further := ih held.2.2.2 beyond
    rw [length] at further
    have inside : before.length < before.length + 1 + below.size + beside.size := by omega
    rw [siblingIds, size]
    simp only [inside, if_true, here, Forest.row, List.map_cons, further]

theorem Holds.row_eq {weave : Weave} {forest : Forest} (holds : weave.Holds forest)
    (leads : Leads ⟨none, none, forest⟩ path found skip) :
    found.forest.row = siblingsIn weave.toList found.cause := by
  rw [holds.toList_eq]
  apply eq_siblingsIn holds.distinct
  · exact (leads.family holds.ordered holds.distinct forest.covers_atoms).1.pairwise_row
  · intro atom
    exact leads.mem_row_iff holds.ordered holds.distinct

def effects (weave : Weave) : Option AtomId → List AtomId
  | none => weave.roots
  | some cause => weave.children cause

theorem effects_of_siblings? {weave : Weave} {cause : Option AtomId} {run : Siblings}
    (found : weave.siblings? cause = some run) :
    weave.effects cause = weave.siblingIds run.start run.stop := by
  cases cause with
  | none =>
    cases found
    rfl
  | some cause => rw [effects, children, found]

theorem Sound.effects_eq {weave : Weave} (sound : weave.Sound) {cause : Option AtomId}
    (woven : ∀ id ∈ cause, weave.contains id = true) :
    weave.effects cause = (siblingsIn weave.toList cause).map (·.id) := by
  obtain ⟨forest, holds⟩ := sound
  obtain ⟨path, level, skip, leads, rfl, found⟩ := holds.siblings?_of_contains woven
  obtain ⟨_, _, stands, length⟩ := holds.row_stands leads
  have ids := weave.siblingIds_of_stands (leads.held holds.held) stands
  rw [length, holds.row_eq leads] at ids
  rw [effects_of_siblings? found, ids]

/-- The ids of the woven atoms with a cause, or of the roots, each once and in the order of siblings. -/
structure ListsEffects (weave : Weave) (cause : Option AtomId) (ids : List AtomId) : Prop where
  members : ∀ id, id ∈ ids ↔ ∃ atom ∈ weave.toList, atom.id = id ∧ atom.cause = cause
  distinct : ids.Nodup
  ascending : ids.Pairwise fun first second => first.siblingOrder second = .lt

open Classical in
/-- A woven id stands at a position, and the atoms that descend from it are as many as the weave counts
and stand right behind it. -/
structure Encloses (weave : Weave) (id : AtomId) (position count : Nat) : Prop where
  stands : weave.position? id = some position
  counted : weave.descendantCount? id = some count
  descendants : weave.toList.countP (fun other => Descends weave.toList other.id id) = count
  inside : position + count < weave.toList.length
  run : ∀ index other, weave.toList[index]? = some other →
    (Descends weave.toList other.id id ↔ position + 1 ≤ index ∧ index ≤ position + count)

namespace Sound

variable {weave : Weave} (sound : weave.Sound)

include sound

/-- The effects of a woven cause, or the roots, are listed without a look at causes. -/
theorem listsEffects {cause : Option AtomId} (woven : ∀ id ∈ cause, weave.contains id = true) :
    weave.ListsEffects cause (weave.effects cause) := by
  have ascending := pairwise_siblingsIn sound.nodup_ids cause
  rw [sound.effects_eq woven]
  constructor
  case members =>
    intro id
    simp only [List.mem_map, mem_siblingsIn]
    constructor
    · rintro ⟨atom, ⟨member, caused⟩, same⟩
      exact ⟨atom, member, same, caused⟩
    · rintro ⟨atom, member, same, caused⟩
      exact ⟨atom, ⟨member, caused⟩, same⟩
  case distinct =>
    apply List.pairwise_map.mpr
    apply ascending.imp
    intro first second precedes same
    simp [Atom.Precedes, same, AtomId.siblingOrder_self] at precedes
  case ascending => exact List.pairwise_map.mpr ascending

theorem unknown {id : AtomId} (missing : ∀ atom ∈ weave.toList, atom.id ≠ id) :
    weave.children id = [] ∧ weave.descendantCount? id = none := by
  obtain ⟨forest, holds⟩ := sound
  have absent : weave.contains id ≠ true := by
    intro woven
    obtain ⟨atom, member, same⟩ := holds.contains_iff.mp woven
    exact missing atom member same
  have unlocated := holds.locate?_eq_none missing
  rw [contains, ne_eq, Option.not_isSome_iff_eq_none] at absent
  exact ⟨by simp [children, siblings?, unlocated], by simp [descendantCount?, absent]⟩

theorem encloses {atom : Atom} (woven : atom ∈ weave.toList) :
    ∃ position count, weave.Encloses atom.id position count := by
  classical
  obtain ⟨before, below, after, order, position, count, descendants⟩ := sound.subtree woven
  have distinct : weave.toList.Nodup := sound.nodup_ids.of_map
  refine ⟨before.length, below.length, position, count, ?descendants, ?inside, ?run⟩
  case descendants =>
    have selected : (weave.toList.filter fun other => Descends weave.toList other.id atom.id).Perm
        below := by
      have part : below.Nodup := by
        rw [order] at distinct
        exact (List.nodup_cons.mp distinct.of_append_right).2.of_append_left
      apply (List.perm_ext_iff_of_nodup (distinct.filter _) part).mpr
      intro other
      simp [descendants other]
    rw [List.countP_eq_length_filter, ← selected.length_eq]
  case inside =>
    rw [order]
    simp only [List.length_append, List.length_cons]
    omega
  case run =>
    have standing : ∀ offset other, below[offset]? = some other →
        weave.toList[before.length + 1 + offset]? = some other := by
      intro offset other here
      have short : offset < below.length := (List.getElem?_eq_some_iff.mp here).1
      rw [order, Nat.add_assoc, List.getElem?_append_right (by omega), Nat.add_sub_cancel_left,
        Nat.add_comm 1, List.getElem?_cons_succ, List.getElem?_append_left short, here]
    intro index other stands
    constructor
    · intro descends
      have member := (descendants other).mpr ⟨List.mem_of_getElem? stands, descends⟩
      obtain ⟨offset, here⟩ := List.mem_iff_getElem?.mp member
      have short : offset < below.length := (List.getElem?_eq_some_iff.mp here).1
      have inside : index < weave.toList.length := (List.getElem?_eq_some_iff.mp stands).1
      have same := (List.getElem?_inj inside distinct).mp (stands.trans (standing offset other here).symm)
      omega
    · rintro ⟨above, upTo⟩
      have short : index - (before.length + 1) < below.length := by omega
      have here := standing _ _ (List.getElem?_eq_getElem short)
      rw [Nat.add_sub_of_le above, stands, Option.some.injEq] at here
      exact ((descendants other).mp (here ▸ List.getElem_mem short)).2

end Sound

/-- Whatever calls have built a weave, the descendants and the children of its atoms and the roots are
those that the causes make them, and an id that is not woven has neither, though its key may be. -/
theorem Session.subtrees_agree [Observer σ] (observer : σ) (calls : List Call) :
    let weave := (after observer calls).weave
    (∀ atom ∈ weave.toList, (∃ position count, weave.Encloses atom.id position count) ∧
        weave.ListsEffects (some atom.id) (weave.children atom.id)) ∧
      weave.ListsEffects none weave.roots ∧
      (∀ id, (∀ atom ∈ weave.toList, atom.id ≠ id) →
        weave.children id = [] ∧ weave.descendantCount? id = none) ∧
      ∀ atom ∈ weave.toList, ∀ priority, priority ≠ atom.id.priority →
        weave.children { atom.id with priority } = [] ∧
          weave.descendantCount? { atom.id with priority } = none := by
  intro weave
  have sound : weave.Sound := (faithful_after observer calls).sound
  refine ⟨?woven, sound.listsEffects (by simp), fun _ => sound.unknown, ?mistaken⟩
  case woven =>
    intro atom woven
    have contained := sound.contains_iff.mpr ⟨atom, woven, rfl⟩
    exact ⟨sound.encloses woven, sound.listsEffects (by simpa using contained)⟩
  case mistaken =>
    intro atom woven priority other
    apply sound.unknown
    intro twin member same
    have here := eq_of_key sound.nodup_keys member woven (by simp [AtomId.key, same])
    rw [here] at same
    exact other (congrArg AtomId.priority same).symm

end Weave
end CausalWeave
