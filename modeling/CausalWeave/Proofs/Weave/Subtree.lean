import CausalWeave.Proofs.Causality
import CausalWeave.Proofs.Weave.Insertion

namespace CausalWeave

/-- Every atom of the row below a cause, and of the trees in it, descends from the cause. -/
theorem Forest.Ordered.descends {forest : Forest} {cause : AtomId}
    (ordered : forest.Ordered (some cause)) {atoms : List Atom}
    (contained : ∀ atom ∈ forest.atoms, atom ∈ atoms) {atom : Atom} (member : atom ∈ forest.atoms) :
    Descends atoms atom.id cause := by
  induction forest generalizing cause with
  | nil => simp at member
  | cons handle head below beside belowHypothesis besideHypothesis =>
    obtain ⟨named, _, children, others⟩ := ordered
    have first : NamesCause atoms head.id cause := ⟨head, contained head (by simp), rfl, named⟩
    have inside : ∀ atom ∈ below.atoms, atom ∈ atoms := by
      intro atom member
      exact contained atom (by simp [member])
    have outside : ∀ atom ∈ beside.atoms, atom ∈ atoms := by
      intro atom member
      exact contained atom (by simp [member])
    simp only [atoms_cons, List.mem_cons, List.mem_append] at member
    rcases member with here | deeper | later
    · rw [here]
      exact .single first
    · exact (belowHypothesis children inside deeper).tail first
    · exact besideHypothesis others outside later

theorem Forest.Covers.mem_of_descends {forest : Forest} {cause : AtomId} {atoms : List Atom}
    (covers : forest.Covers (some cause) atoms) (distinct : (atoms.map (·.id)).Nodup)
    (children : ∀ atom ∈ atoms, atom.cause = some cause → atom ∈ forest.atoms) {id : AtomId}
    (descends : Descends atoms id cause) : ∀ atom ∈ atoms, atom.id = id → atom ∈ forest.atoms := by
  induction descends using Relation.TransGen.head_induction_on with
  | single names =>
    intro atom member same
    exact children atom member (names.cause_eq distinct member same)
  | head names further ih =>
    intro atom member same
    obtain ⟨_, ⟨parent, present, here, _⟩, _⟩ := Relation.TransGen.head'_iff.mp further
    apply covers.closed parent (ih parent present here) atom member
    rw [names.cause_eq distinct member same, here]

namespace Leads

variable {atoms : List Atom}

/-- The row at the end of a path is ordered and covers the descendants of its cause, as the first row
does, and it has all atoms with its cause. -/
theorem family (leads : Leads level path found skip) (ordered : level.forest.Ordered level.cause)
    (distinct : level.forest.Distinct) (covers : level.forest.Covers level.cause atoms) :
    found.forest.Ordered found.cause ∧ found.forest.Covers found.cause atoms ∧
      (path ≠ [] → ∀ atom ∈ atoms, atom.cause = found.cause → atom ∈ found.forest.atoms) := by
  induction leads with
  | here => exact ⟨ordered, covers, fun far => absurd rfl far⟩
  | @down handle sibling below beside parent cause path found skip deeper ih =>
    have inner := covers.in_below ordered distinct
    have row : ∀ atom, atom ∈ below.row ↔ atom ∈ atoms ∧ atom.cause = some sibling.id :=
      fun _ => covers.mem_row_below ordered distinct
    obtain ⟨_, _, children, _⟩ := ordered
    obtain ⟨_, innerDistinct, _, _⟩ := Forest.Distinct.cons_iff.mp distinct
    obtain ⟨foundOrdered, foundCovers, all⟩ := ih children innerDistinct inner
    refine ⟨foundOrdered, foundCovers, ?_⟩
    intro _ atom member caused
    cases path with
    | nil =>
      cases deeper with
      | here => exact below.row_subset_atoms atom ((row atom).mpr ⟨member, caused⟩)
    | cons child rest => exact all (by simp) atom member caused
  | aside other further ih =>
    have outer := covers.in_beside ordered distinct
    obtain ⟨_, _, _, others⟩ := ordered
    obtain ⟨_, _, outerDistinct, _⟩ := Forest.Distinct.cons_iff.mp distinct
    exact ih others outerDistinct outer

end Leads

/-- The descendants of a woven atom are one run of the sequence, right after the atom. -/
theorem Weave.Sound.subtree {weave : Weave} (sound : weave.Sound) {atom : Atom}
    (woven : atom ∈ weave.toList) :
    ∃ before below after, weave.toList = before ++ atom :: (below ++ after) ∧
      weave.position? atom.id = some before.length ∧
      weave.descendantCount? atom.id = some below.length ∧
      ∀ other, other ∈ below ↔ other ∈ weave.toList ∧ Descends weave.toList other.id atom.id := by
  obtain ⟨forest, holds⟩ := sound
  rw [holds.toList_eq] at woven ⊢
  obtain ⟨handle, member⟩ := Forest.mem_atoms.mp woven
  obtain ⟨path, children, skip, leads, found, located⟩ := holds.locate?_of_mem member
  have far : path ≠ [] := by
    rintro rfl
    cases leads
  obtain ⟨_, _, _, parent, _, node⟩ := leads.node holds.held far
  rw [← Option.some.inj parent] at node
  obtain ⟨ordered, inner, all⟩ := leads.family holds.ordered holds.distinct forest.covers_atoms
  obtain ⟨upTo, after, walk, length⟩ := leads.split
  obtain ⟨before, last, rfl⟩ := List.eq_nil_or_concat' upTo |>.resolve_left (by rintro rfl; simp at length)
  have standing : before.length = skip := by simpa using length
  have here : last = (handle, atom) := by
    rw [show forest.entries = before ++ last :: (children.entries ++ after) by simpa using walk,
      ← standing] at found
    simpa using found
  refine ⟨before.map (·.2), children.atoms, after.map (·.2), ?_, ?_, ?_, ?_⟩
  · simp [Forest.atoms, show forest.entries = _ from walk, here]
  · simp [position?, located, standing]
  · have lookup := holds.handle?_eq_some_iff.mpr ⟨atom, member, rfl⟩
    simp [descendantCount?, lookup, Weave.span, node]
  · intro other
    constructor
    · intro below
      exact ⟨inner.contained other below, ordered.descends inner.contained below⟩
    · rintro ⟨present, descends⟩
      exact inner.mem_of_descends holds.distinct (all far) descends other present rfl

end CausalWeave
