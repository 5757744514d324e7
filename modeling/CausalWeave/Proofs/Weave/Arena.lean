import CausalWeave.Proofs.Weave.Linearization

namespace CausalWeave

/-- The parent of a node is older. It is that of the whole row, and so is the cause, or it is another
node of the forest, which holds the cause. -/
theorem Forest.Held.parent_of_mem {forest : Forest} (held : forest.Held nodes parent)
    (ordered : forest.Ordered cause) {handle : Handle} {atom : Atom}
    (member : (handle, atom) ∈ forest.entries) :
    ∃ up span, nodes[handle]? = some { atom, parent := up, span } ∧ (∀ elder ∈ up, elder < handle) ∧
      (up = parent ∧ atom.cause = cause ∨
        ∃ elder above, up = some elder ∧ (elder, above) ∈ forest.entries ∧
          atom.cause = some above.id) := by
  induction forest generalizing parent cause with
  | nil => simp [entries] at member
  | cons head root below beside belowHypothesis besideHypothesis =>
    obtain ⟨found, younger, inner, outer⟩ := held
    obtain ⟨named, _, children, others⟩ := ordered
    simp only [entries, List.mem_cons, Prod.mk.injEq, List.mem_append] at member
    rcases member with ⟨rfl, rfl⟩ | inside | later
    · exact ⟨_, _, found, younger, .inl ⟨rfl, named⟩⟩
    · obtain ⟨up, span, here, older, ⟨rfl, caused⟩ | ⟨elder, above, rfl, present, caused⟩⟩ :=
        belowHypothesis inner children inside
      · exact ⟨_, _, here, older, .inr ⟨head, root, rfl, by simp [entries], caused⟩⟩
      · exact ⟨_, _, here, older, .inr ⟨elder, above, rfl, by simp [entries, present], caused⟩⟩
    · obtain ⟨up, span, here, older, direct | ⟨elder, above, rfl, present, caused⟩⟩ :=
        besideHypothesis outer others later
      · exact ⟨_, _, here, older, .inl direct⟩
      · exact ⟨_, _, here, older, .inr ⟨elder, above, rfl, by simp [entries, present], caused⟩⟩

namespace Weave

/-- Arena, order and index fit together. -/
structure WellFormed (weave : Weave) : Prop where
  order : weave.order.toList.Perm (List.range weave.nodes.size)
  /-- The index leads from a key to the node of the atom with it, and has nothing else in it. -/
  index : ∀ key handle, weave.index[key]? = some handle ↔
    ∃ node : Node, weave.nodes[handle]? = some node ∧ node.atom.id.key = key
  root : ∀ (handle : Handle) (node : Node), weave.nodes[handle]? = some node →
    node.atom.cause = none → node.parent = none
  /-- The parent of a node is older and holds the atom with exactly the id that is the cause. -/
  parent : ∀ (handle : Handle) (node : Node) (cause : AtomId), weave.nodes[handle]? = some node →
    node.atom.cause = some cause → ∃ (elder : Handle) (above : Node), node.parent = some elder ∧
      elder < handle ∧ weave.nodes[elder]? = some above ∧ above.atom.id = cause
  span : ∀ position node, weave.nodeAt? position = some node → position + node.span < weave.size

namespace Holds

variable {weave : Weave} {forest : Forest} (holds : weave.Holds forest) {handle : Handle} {node : Node}

include holds

/-- The arena has no nodes but those of the forest. -/
theorem mem_entries_of_node (found : weave.nodes[handle]? = some node) :
    (handle, node.atom) ∈ forest.entries := by
  have inside : handle < weave.nodes.size := (Array.getElem?_eq_some_iff.mp found).1
  have present : handle ∈ forest.handles := holds.complete.mem_iff.mpr (List.mem_range.mpr inside)
  obtain ⟨⟨_, atom⟩, member, rfl⟩ := List.mem_map.mp present
  have same := holds.held.atom_of_mem member
  rw [found, Option.map_some, Option.some.injEq] at same
  exact same ▸ member

theorem parent_of_node (found : weave.nodes[handle]? = some node) :
    (∀ elder ∈ node.parent, elder < handle) ∧
      (node.parent = none ∧ node.atom.cause = none ∨
        ∃ (elder : Handle) (above : Node), node.parent = some elder ∧
          weave.nodes[elder]? = some above ∧ node.atom.cause = some above.atom.id) := by
  obtain ⟨up, span, here, older, above⟩ :=
    holds.held.parent_of_mem holds.ordered (holds.mem_entries_of_node found)
  have same : up = node.parent := by
    rw [found, Option.some.injEq] at here
    rw [here]
  subst up
  refine ⟨older, above.imp_right ?_⟩
  rintro ⟨elder, atom, parent, member, caused⟩
  obtain ⟨_, _, upper⟩ := holds.held.node_of_mem member
  exact ⟨elder, _, parent, upper, caused⟩

/-- A row is part of the order, and the row below an atom begins right after the atom. -/
theorem span_lt {position : Nat} (found : weave.nodeAt? position = some node) :
    position + node.span < weave.size := by
  obtain ⟨handle, standing, here⟩ := Option.bind_eq_some_iff.mp found
  obtain ⟨target, path, children, skip, leads, stands⟩ :=
    Leads.exists_of_mem holds.unique (holds.mem_entries_of_node here) none none
  obtain ⟨_, _, _, same, _, counted⟩ := leads.node holds.held (by simp)
  rw [← Option.some.inj same, here, Option.some.injEq] at counted
  have place : position = skip := by
    have ranked : forest.handles[position]? = some handle := by
      rw [← holds.order, Array.getElem?_toList, standing]
    have ranked' : forest.handles[skip]? = some handle := by
      simp [Forest.handles, stands]
    have inside : position < forest.handles.length := (List.getElem?_eq_some_iff.mp ranked).1
    exact (List.getElem?_inj inside holds.unique).mp (ranked.trans ranked'.symm)
  obtain ⟨before, after, walk, length⟩ := leads.split
  have whole := congrArg List.length walk
  simp only [List.length_append, length] at whole
  rw [holds.size_eq, counted, place]
  simp only [Forest.size]
  omega

theorem wellFormed : weave.WellFormed := by
  constructor
  case order => exact holds.order ▸ holds.complete
  case index =>
    intro key handle
    rw [holds.index]
    constructor
    · rintro ⟨atom, member, same⟩
      obtain ⟨_, _, found⟩ := holds.held.node_of_mem member
      exact ⟨_, found, same⟩
    · rintro ⟨node, found, same⟩
      exact ⟨node.atom, holds.mem_entries_of_node found, same⟩
  case root =>
    intro handle node found rooted
    rcases (holds.parent_of_node found).2 with ⟨top, _⟩ | ⟨_, _, _, _, caused⟩
    · exact top
    · simp [rooted] at caused
  case parent =>
    intro handle node cause found caused
    obtain ⟨older, ⟨_, rooted⟩ | ⟨elder, above, parent, upper, named⟩⟩ := holds.parent_of_node found
    · simp [caused] at rooted
    · exact ⟨elder, above, parent, older elder parent, upper,
        Option.some.inj (named.symm.trans caused)⟩
  case span => exact fun _ _ => holds.span_lt

end Holds

theorem Sound.wellFormed {weave : Weave} (sound : weave.Sound) : weave.WellFormed := by
  obtain ⟨forest, holds⟩ := sound
  exact holds.wellFormed

end Weave
end CausalWeave
