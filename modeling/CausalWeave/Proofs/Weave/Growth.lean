import CausalWeave.Proofs.Weave.Navigation

namespace CausalWeave

namespace Forest

/-- How far into the pre-order walk of a row an atom with the given id belongs. -/
def slot (id : AtomId) : Forest → Nat
  | nil => 0
  | cons _ sibling below beside =>
    if id.siblingOrder sibling.id = .lt then 0 else 1 + below.size + beside.slot id

/-- The row with one more leaf in it. -/
def plant (leaf : Handle) (atom : Atom) : Forest → Forest
  | nil => cons leaf atom nil nil
  | cons handle sibling below beside =>
    if atom.id.siblingOrder sibling.id = .lt then
      cons leaf atom nil (cons handle sibling below beside)
    else cons handle sibling below (beside.plant leaf atom)

/-- The forest with one more leaf in the row to which a path leads. -/
def graft (leaf : Handle) (atom : Atom) : Forest → List Handle → Forest
  | forest, [] => forest.plant leaf atom
  | nil, _ :: _ => nil
  | cons handle sibling below beside, target :: path =>
    if target = handle then cons handle sibling (graft leaf atom below path) beside
    else cons handle sibling below (graft leaf atom beside (target :: path))

@[simp] theorem graft_nil (leaf : Handle) (atom : Atom) (forest : Forest) :
    forest.graft leaf atom [] = forest.plant leaf atom := by
  cases forest <;> rfl

theorem plant_entries (leaf : Handle) (atom : Atom) (forest : Forest) :
    ∃ before after, forest.entries = before ++ after ∧ before.length = forest.slot atom.id ∧
      (forest.plant leaf atom).entries = before ++ (leaf, atom) :: after := by
  induction forest with
  | nil => exact ⟨[], [], rfl, rfl, rfl⟩
  | cons handle sibling below beside _ ih =>
    by_cases earlier : atom.id.siblingOrder sibling.id = .lt
    · exact ⟨[], _, rfl, by simp [slot, earlier], by simp [plant, earlier, entries]⟩
    · obtain ⟨before, after, walk, length, grown⟩ := ih
      refine ⟨(handle, sibling) :: (below.entries ++ before), after, by simp [entries, walk], ?_,
        by simp [plant, earlier, entries, grown]⟩
      simp only [List.length_cons, List.length_append, length, slot, earlier, if_false, size]
      omega

theorem mem_row_plant {leaf : Handle} {atom : Atom} {forest : Forest} {sibling : Atom} :
    sibling ∈ (forest.plant leaf atom).row ↔ sibling = atom ∨ sibling ∈ forest.row := by
  induction forest with
  | nil => simp [plant, row]
  | cons handle other below beside _ ih =>
    by_cases earlier : atom.id.siblingOrder other.id = .lt
    · simp [plant, earlier, row]
    · simp only [plant, earlier, if_false, row, List.mem_cons, ih]
      exact or_left_comm

theorem Ordered.plant {forest : Forest} (ordered : forest.Ordered cause) {atom : Atom}
    (caused : atom.cause = cause) (fresh : ∀ sibling ∈ forest.row, atom.id ≠ sibling.id)
    (leaf : Handle) : (forest.plant leaf atom).Ordered cause := by
  induction forest with
  | nil => exact ⟨caused, by simp [row], trivial, trivial⟩
  | cons handle sibling below beside _ ih =>
    obtain ⟨named, precedes, children, others⟩ := ordered
    by_cases earlier : atom.id.siblingOrder sibling.id = .lt
    · simp only [Forest.plant, earlier, if_true]
      refine ⟨caused, ?_, trivial, named, precedes, children, others⟩
      intro other member
      rcases List.mem_cons.mp member with same | later
      · exact same ▸ earlier
      · exact Atom.Precedes.trans earlier (precedes other later)
    · simp only [Forest.plant, earlier, if_false]
      refine ⟨named, ?_, children, ?_⟩
      · intro other member
        rcases mem_row_plant.mp member with same | later
        · rw [same]
          exact Atom.precedes_of_not (fresh sibling (by simp [row])) earlier
        · exact precedes other later
      · apply ih others
        intro other member
        exact fresh other (by simp [row, member])

theorem Held.plant {forest : Forest} (held : forest.Held nodes parent)
    (added : nodes[leaf]? = some { atom, parent, span := 0 })
    (younger : ∀ elder ∈ parent, elder < leaf) : (forest.plant leaf atom).Held nodes parent := by
  induction forest with
  | nil => exact ⟨added, younger, trivial, trivial⟩
  | cons handle sibling below beside _ ih =>
    obtain ⟨node, elders, inner, outer⟩ := held
    by_cases earlier : atom.id.siblingOrder sibling.id = .lt
    · simp only [Forest.plant, earlier, if_true]
      exact ⟨added, younger, trivial, node, elders, inner, outer⟩
    · simp only [Forest.plant, earlier, if_false]
      exact ⟨node, elders, inner, ih outer⟩

theorem row_graft {leaf : Handle} {atom : Atom} {forest : Forest} {target : Handle}
    {path : List Handle} : (forest.graft leaf atom (target :: path)).row = forest.row := by
  induction forest with
  | nil => rfl
  | cons handle sibling below beside _ ih =>
    by_cases here : target = handle
    · simp [graft, here, row]
    · simp [graft, here, row, ih]

end Forest

namespace Leads

variable {leaf : Handle} {atom : Atom}

/-- The leaf joins the pre-order walk at its slot of the row to which the path leads. -/
theorem graft_entries (leads : Leads level path found skip) (leaf : Handle) (atom : Atom) :
    ∃ before after, level.forest.entries = before ++ after ∧
      before.length = skip + found.forest.slot atom.id ∧
      (level.forest.graft leaf atom path).entries = before ++ (leaf, atom) :: after := by
  induction leads with
  | @here level =>
    obtain ⟨before, after, walk, length, grown⟩ := level.forest.plant_entries leaf atom
    exact ⟨before, after, walk, by simp [length], by simp [grown]⟩
  | @down handle sibling below beside parent cause path found skip deeper ih =>
    obtain ⟨before, after, walk, length, grown⟩ := ih
    refine ⟨(handle, sibling) :: before, after ++ beside.entries,
      by simp [Forest.entries, walk], ?_, by simp [Forest.graft, Forest.entries, grown]⟩
    simp only [List.length_cons, length]
    omega
  | @aside target handle sibling below beside parent cause path found skip other further ih =>
    obtain ⟨before, after, walk, length, grown⟩ := ih
    refine ⟨(handle, sibling) :: (below.entries ++ before), after,
      by simp [Forest.entries, walk], ?_, by simp [Forest.graft, other, Forest.entries, grown]⟩
    simp only [List.length_cons, List.length_append, length, Forest.size]
    omega

theorem size_graft (leads : Leads level path found skip) :
    (level.forest.graft leaf atom path).size = level.forest.size + 1 := by
  obtain ⟨before, after, walk, _, grown⟩ := leads.graft_entries leaf atom
  simp only [Forest.size, walk, grown, List.length_append, List.length_cons]
  omega

theorem ordered_graft (leads : Leads level path found skip)
    (ordered : level.forest.Ordered level.cause) (caused : atom.cause = found.cause)
    (fresh : ∀ other ∈ level.forest.atoms, atom.id ≠ other.id) :
    (level.forest.graft leaf atom path).Ordered level.cause := by
  induction leads with
  | @here level =>
    rw [Forest.graft_nil]
    apply ordered.plant caused
    intro sibling member
    exact fresh sibling (level.forest.row_subset_atoms sibling member)
  | @down handle sibling below beside parent cause path found skip deeper ih =>
    obtain ⟨named, precedes, children, others⟩ := ordered
    simp only [Forest.graft, if_true]
    refine ⟨named, precedes, ?_, others⟩
    apply ih children caused
    intro other member
    exact fresh other (by simp [member])
  | @aside target handle sibling below beside parent cause path found skip other further ih =>
    obtain ⟨named, precedes, children, others⟩ := ordered
    simp only [Forest.graft, other, if_false]
    refine ⟨named, ?_, children, ?_⟩
    · intro sibling member
      rw [Forest.row_graft] at member
      exact precedes sibling member
    · apply ih others caused
      intro other member
      exact fresh other (by simp [member])

/-- The grown forest is held by nodes among which those on the path count one more descendant and
the leaf is new. -/
theorem held_graft (leads : Leads level path found skip)
    (held : level.forest.Held nodes level.parent) (unique : level.forest.handles.Nodup)
    (counted : ∀ handle ∈ level.forest.handles, nodes'[handle]? =
      if handle ∈ path then nodes[handle]?.map Weave.grown else nodes[handle]?)
    (added : nodes'[leaf]? = some { atom, parent := found.parent, span := 0 })
    (younger : ∀ elder ∈ found.parent, elder < leaf) :
    (level.forest.graft leaf atom path).Held nodes' level.parent := by
  induction leads with
  | @here level =>
    have kept : level.forest.Held nodes' level.parent := by
      apply held.congr
      intro handle member
      simpa using counted handle member
    rw [Forest.graft_nil]
    exact kept.plant added younger
  | @down handle sibling below beside parent cause path found skip deeper ih =>
    obtain ⟨node, elders, inner, outer⟩ := held
    simp only [Forest.handles_cons, List.nodup_cons, List.nodup_append, List.mem_append] at unique
    obtain ⟨fresh, innerUnique, outerUnique, apart⟩ := unique
    have here := counted handle (by simp)
    simp only [List.mem_cons, true_or, if_true, node, Option.map_some, Weave.grown] at here
    simp only [Forest.graft, if_true]
    refine ⟨by rw [here, deeper.size_graft], elders, ?_, ?_⟩
    · apply ih inner innerUnique _ added younger
      intro other member
      have different : other ≠ handle := by
        rintro rfl
        exact fresh (.inl member)
      have count := counted other (by simp [member])
      simpa [different] using count
    · apply outer.congr
      intro other member
      have different : other ≠ handle := by
        rintro rfl
        exact fresh (.inr member)
      have absent : other ∉ path := by
        intro present
        exact apart other (deeper.path_subset other present) other member rfl
      have count := counted other (by simp [member])
      simpa [different, absent] using count
  | @aside target handle sibling below beside parent cause path found skip other further ih =>
    obtain ⟨node, elders, inner, outer⟩ := held
    simp only [Forest.handles_cons, List.nodup_cons, List.nodup_append, List.mem_append] at unique
    obtain ⟨fresh, innerUnique, outerUnique, apart⟩ := unique
    simp only [Forest.graft, other, if_false]
    have absent : ∀ handle, handle ∈ target :: path → handle ∈ beside.handles :=
      further.path_subset
    refine ⟨?_, elders, ?_, ?_⟩
    · have outside : handle ∉ target :: path := by
        intro present
        exact fresh (.inr (absent handle present))
      have count := counted handle (by simp)
      rw [if_neg outside] at count
      rw [count, node]
    · apply inner.congr
      intro other member
      have outside : other ∉ target :: path := by
        intro present
        exact apart other member other (absent other present) rfl
      have count := counted other (by simp [member])
      rwa [if_neg outside] at count
    · apply ih outer outerUnique _ added younger
      intro other member
      exact counted other (by simp [member])

end Leads
end CausalWeave
