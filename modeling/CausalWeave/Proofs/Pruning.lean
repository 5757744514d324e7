import CausalWeave.Proofs.Weave.Insertion

/-! When the cause of every atom that passes a test passes as well, the atoms that pass are a forest again and
stand in the order in which they stood. -/

namespace CausalWeave

/-- No atom of the list passes the test when its cause is in the list and fails it. -/
def CauseClosed (test : Atom → Bool) (atoms : List Atom) : Prop :=
  ∀ parent ∈ atoms, ∀ atom ∈ atoms, atom.cause = some parent.id → test parent = false →
    test atom = false

namespace CauseClosed

variable {test : Atom → Bool}

theorem subset {some atoms : List Atom} (closed : CauseClosed test atoms)
    (subset : ∀ atom ∈ some, atom ∈ atoms) : CauseClosed test some :=
  fun parent present atom member => closed parent (subset parent present) atom (subset atom member)

variable {handle : Handle} {head : Atom} {below beside : Forest}
  (closed : CauseClosed test (Forest.cons handle head below beside).atoms)

include closed

theorem in_below : CauseClosed test (head :: below.atoms) := by
  apply closed.subset
  intro atom member
  rw [Forest.atoms_cons, ← List.cons_append]
  exact List.mem_append_left _ member

theorem in_beside : CauseClosed test beside.atoms := by
  apply closed.subset
  intro atom member
  simp [member]

end CauseClosed

namespace Forest

/-- The forest without the trees whose root fails a test. -/
def prune (test : Atom → Bool) : Forest → Forest
  | nil => nil
  | cons handle atom below beside =>
    if test atom then cons handle atom (below.prune test) (beside.prune test)
    else beside.prune test

theorem row_prune_sublist (test : Atom → Bool) (forest : Forest) :
    (forest.prune test).row.Sublist forest.row := by
  induction forest with
  | nil => exact .refl _
  | cons handle atom below beside _ ih =>
    rw [prune]
    split
    · exact ih.cons_cons atom
    · exact ih.cons atom

variable {forest : Forest} {test : Atom → Bool}

theorem Ordered.prune (ordered : forest.Ordered cause) : (forest.prune test).Ordered cause := by
  induction forest generalizing cause with
  | nil => exact trivial
  | cons handle atom below beside belowHypothesis besideHypothesis =>
    obtain ⟨named, precedes, children, others⟩ := ordered
    rw [Forest.prune]
    split
    · refine ⟨named, ?_, belowHypothesis children, besideHypothesis others⟩
      intro sibling member
      exact precedes sibling ((row_prune_sublist test beside).subset member)
    · exact besideHypothesis others

/-- No child of an atom that fails the test passes it. -/
theorem Ordered.row_fails {head : Atom} (children : forest.Ordered (some head.id))
    (closed : CauseClosed test (head :: forest.atoms)) (headFails : test head = false) :
    ∀ atom ∈ forest.row, test atom = false := by
  intro atom member
  have inside := forest.row_subset_atoms atom member
  exact closed head (by simp) atom (by simp [inside]) (children.cause_of_mem_row member) headFails

theorem Ordered.fails (ordered : forest.Ordered cause) (closed : CauseClosed test forest.atoms)
    (row : ∀ atom ∈ forest.row, test atom = false) : ∀ atom ∈ forest.atoms, test atom = false := by
  induction forest generalizing cause with
  | nil => simp
  | cons handle head below beside belowHypothesis besideHypothesis =>
    obtain ⟨_, _, children, others⟩ := ordered
    have whole := closed.in_below
    obtain ⟨headFails, rowFails⟩ := List.forall_mem_cons.mp row
    rw [atoms_cons, List.forall_mem_cons, List.forall_mem_append]
    refine ⟨headFails, ?_, besideHypothesis others closed.in_beside rowFails⟩
    exact belowHypothesis children (whole.subset (List.subset_cons_self ..))
      (children.row_fails whole headFails)

/-- Pruning a forest filters its walk. -/
theorem Ordered.atoms_prune (ordered : forest.Ordered cause)
    (closed : CauseClosed test forest.atoms) :
    (forest.prune test).atoms = forest.atoms.filter test := by
  induction forest generalizing cause with
  | nil => rfl
  | cons handle head below beside belowHypothesis besideHypothesis =>
    obtain ⟨_, _, children, others⟩ := ordered
    have whole := closed.in_below
    have inner := whole.subset (List.subset_cons_self ..)
    have outer := closed.in_beside
    rw [Forest.prune]
    cases passes : test head with
    | true => simp [passes, belowHypothesis children inner, besideHypothesis others outer]
    | false =>
      have nothing : below.atoms.filter test = [] := by
        simpa [List.filter_eq_nil_iff] using children.fails inner (children.row_fails whole passes)
      simp [passes, nothing, besideHypothesis others outer]

end Forest

/-- The atoms of a sequence that pass a test stand in their own canonical order. -/
theorem Weave.Sound.canonicalOrder_filter {weave : Weave} (sound : weave.Sound) {test : Atom → Bool}
    (closed : CauseClosed test weave.toList) :
    canonicalOrder (weave.toList.filter test) = weave.toList.filter test := by
  obtain ⟨forest, holds⟩ := sound
  rw [holds.toList_eq] at closed ⊢
  have pruned := holds.ordered.atoms_prune closed
  have distinct : (forest.prune test).Distinct := by
    rw [Forest.Distinct, pruned]
    exact holds.distinct.sublist (List.filter_sublist.map _)
  rw [← pruned]
  exact holds.ordered.prune.canonicalOrder_atoms distinct

end CausalWeave
