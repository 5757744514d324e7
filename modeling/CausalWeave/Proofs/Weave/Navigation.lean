import CausalWeave.Proofs.Forest

namespace CausalWeave

/-- The arena has a node for each atom of the forest, with its parent and the size of what stands
below it. A node is younger than its parent. -/
def Forest.Held (nodes : Array Node) : Option Handle → Forest → Prop
  | _, .nil => True
  | parent, .cons handle atom below beside =>
    nodes[handle]? = some { atom, parent, span := below.size } ∧
      (∀ elder ∈ parent, elder < handle) ∧
      Held nodes (some handle) below ∧ Held nodes parent beside

structure Level where
  parent : Option Handle
  cause : Option AtomId
  forest : Forest

/-- A path of handles leads from a row down to another one, which begins so many steps of the
pre-order walk after the first row. -/
inductive Leads : Level → List Handle → Level → Nat → Prop where
  | here {level : Level} : Leads level [] level 0
  | down {handle : Handle} {atom : Atom} {below beside : Forest} {parent : Option Handle}
      {cause : Option AtomId} {path : List Handle} {level : Level} {skip : Nat}
      (deeper : Leads ⟨some handle, some atom.id, below⟩ path level skip) :
      Leads ⟨parent, cause, .cons handle atom below beside⟩ (handle :: path) level (skip + 1)
  | aside {target handle : Handle} {atom : Atom} {below beside : Forest} {parent : Option Handle}
      {cause : Option AtomId} {path : List Handle} {level : Level} {skip : Nat}
      (other : target ≠ handle)
      (further : Leads ⟨parent, cause, beside⟩ (target :: path) level skip) :
      Leads ⟨parent, cause, .cons handle atom below beside⟩ (target :: path) level
        (1 + below.size + skip)

/-- What the weave keeps of a forest: nodes, order and index agree with it, and there is nothing
else in them. -/
structure Weave.Holds (weave : Weave) (forest : Forest) : Prop where
  held : forest.Held weave.nodes none
  order : weave.order.toList = forest.handles
  ordered : forest.Ordered none
  complete : forest.handles.Perm (List.range weave.nodes.size)
  index : ∀ key handle, weave.index[key]? = some handle ↔
    ∃ atom, (handle, atom) ∈ forest.entries ∧ atom.id.key = key

namespace Forest

theorem Held.node_of_mem {forest : Forest} (held : forest.Held nodes parent) {handle : Handle}
    {atom : Atom} (member : (handle, atom) ∈ forest.entries) :
    ∃ elder span, nodes[handle]? = some { atom, parent := elder, span } := by
  induction forest generalizing parent with
  | nil => simp [entries] at member
  | cons head root below beside belowHypothesis besideHypothesis =>
    obtain ⟨found, _, inner, outer⟩ := held
    simp only [entries, List.mem_cons, Prod.mk.injEq, List.mem_append] at member
    rcases member with ⟨rfl, rfl⟩ | inside | later
    · exact ⟨parent, below.size, found⟩
    · exact belowHypothesis inner inside
    · exact besideHypothesis outer later

theorem Held.atom_of_mem {forest : Forest} (held : forest.Held nodes parent) {handle : Handle}
    {atom : Atom} (member : (handle, atom) ∈ forest.entries) :
    nodes[handle]?.map (·.atom) = some atom := by
  obtain ⟨_, _, found⟩ := held.node_of_mem member
  simp [found]

theorem Held.filterMap_handles {forest : Forest} (held : forest.Held nodes parent) :
    (forest.handles.filterMap fun handle => nodes[handle]?.map (·.atom)) = forest.atoms := by
  induction forest generalizing parent with
  | nil => rfl
  | cons head root below beside belowHypothesis besideHypothesis =>
    obtain ⟨found, _, inner, outer⟩ := held
    simp [found, belowHypothesis inner, besideHypothesis outer]

/-- What the arena holds of a forest depends on the nodes of the forest alone. -/
theorem Held.congr {forest : Forest} (held : forest.Held nodes parent)
    (same : ∀ handle ∈ forest.handles, nodes'[handle]? = nodes[handle]?) :
    forest.Held nodes' parent := by
  induction forest generalizing parent with
  | nil => trivial
  | cons head root below beside belowHypothesis besideHypothesis =>
    obtain ⟨found, younger, inner, outer⟩ := held
    refine ⟨by rw [same head (by simp), found], younger, ?_, ?_⟩
    · apply belowHypothesis inner
      intro handle member
      exact same handle (by simp [member])
    · apply besideHypothesis outer
      intro handle member
      exact same handle (by simp [member])

end Forest

namespace Leads

theorem path_subset (leads : Leads level path found skip) :
    ∀ handle ∈ path, handle ∈ level.forest.handles := by
  induction leads with
  | here => simp
  | down deeper ih =>
    intro handle member
    rcases List.mem_cons.mp member with same | later
    · simp [same]
    · simp [ih handle later]
  | aside other further ih =>
    intro handle member
    simp [ih handle member]

theorem nodup_path (leads : Leads level path found skip) (unique : level.forest.handles.Nodup) :
    path.Nodup := by
  induction leads with
  | here => exact .nil
  | down deeper ih =>
    simp only [Forest.handles_cons, List.nodup_cons, List.nodup_append, List.mem_append] at unique
    refine List.nodup_cons.mpr ⟨?_, ih unique.2.1⟩
    intro member
    exact unique.1 (.inl (deeper.path_subset _ member))
  | aside _ _ ih =>
    simp only [Forest.handles_cons, List.nodup_cons, List.nodup_append] at unique
    exact ih unique.2.2.1

theorem held (leads : Leads level path found skip)
    (held : level.forest.Held nodes level.parent) : found.forest.Held nodes found.parent := by
  induction leads with
  | here => exact held
  | down _ ih => exact ih held.2.2.1
  | aside _ _ ih => exact ih held.2.2.2

theorem skip_ne_zero (leads : Leads level (target :: path) found skip) : skip ≠ 0 := by
  cases leads with
  | down _ => omega
  | aside _ _ => omega

/-- A row that is not the first one stands below the last node of the path. -/
theorem node (leads : Leads level path found skip)
    (held : level.forest.Held nodes level.parent) (far : path ≠ []) :
    ∃ handle atom elder, found.parent = some handle ∧ found.cause = some atom.id ∧
      nodes[handle]? = some { atom, parent := elder, span := found.forest.size } := by
  induction leads with
  | here => exact absurd rfl far
  | @down handle atom below beside parent cause path found skip deeper ih =>
    cases path with
    | nil =>
      cases deeper with
      | here => exact ⟨handle, atom, parent, rfl, rfl, held.1⟩
    | cons child rest => exact ih held.2.2.1 (by simp)
  | aside _ _ ih => exact ih held.2.2.2 far

/-- The row at the end of a path is one run of the pre-order walk. -/
theorem split (leads : Leads level path found skip) :
    ∃ before after, level.forest.entries = before ++ found.forest.entries ++ after ∧
      before.length = skip := by
  induction leads with
  | here => exact ⟨[], [], by simp, rfl⟩
  | @down handle atom below beside parent cause path found skip deeper ih =>
    obtain ⟨before, after, walk, length⟩ := ih
    exact ⟨(handle, atom) :: before, after ++ beside.entries, by simp [Forest.entries, walk],
      by simp [length]⟩
  | @aside target handle atom below beside parent cause path found skip other further ih =>
    obtain ⟨before, after, walk, length⟩ := ih
    refine ⟨(handle, atom) :: (below.entries ++ before), after, by simp [Forest.entries, walk], ?_⟩
    simp only [List.length_cons, List.length_append, length, Forest.size]
    omega

/-- Every atom of a forest is at the end of a path. -/
theorem exists_of_mem {forest : Forest} (unique : forest.handles.Nodup) {handle : Handle}
    {atom : Atom} (member : (handle, atom) ∈ forest.entries) (parent : Option Handle)
    (cause : Option AtomId) :
    ∃ target path children skip, Leads ⟨parent, cause, forest⟩ (target :: path)
      ⟨some handle, some atom.id, children⟩ (skip + 1) ∧
      forest.entries[skip]? = some (handle, atom) := by
  induction forest generalizing parent cause with
  | nil => simp [Forest.entries] at member
  | cons head root below beside belowHypothesis besideHypothesis =>
    simp only [Forest.handles_cons, List.nodup_cons, List.nodup_append] at unique
    obtain ⟨fresh, inner, outer, _⟩ := unique
    simp only [Forest.entries, List.mem_cons, Prod.mk.injEq, List.mem_append] at member
    rcases member with ⟨rfl, rfl⟩ | inside | later
    · exact ⟨handle, [], below, 0, .down .here, rfl⟩
    · obtain ⟨target, path, children, skip, leads, found⟩ :=
        belowHypothesis inner inside (some head) (some root.id)
      have short : skip < below.entries.length := (List.getElem?_eq_some_iff.mp found).1
      exact ⟨head, target :: path, children, skip + 1, .down leads,
        by simp [Forest.entries, List.getElem?_append_left short, found]⟩
    · obtain ⟨target, path, children, skip, leads, found⟩ := besideHypothesis outer later parent cause
      have other : target ≠ head := by
        rintro rfl
        have present : target ∈ beside.handles := leads.path_subset target (by simp)
        exact fresh (by simp [present])
      refine ⟨target, path, children, 1 + below.size + skip, .aside other leads, ?_⟩
      rw [Forest.entries, show 1 + below.size + skip = below.entries.length + skip + 1 by
        simp only [Forest.size]; omega]
      simpa [List.getElem?_append_right] using found

end Leads

namespace Weave

def ancestry (weave : Weave) (parent : Option Handle) : List Handle :=
  (parent.map weave.lineage).getD []

theorem mem_lineage (weave : Weave) (handle : Handle) : handle ∈ weave.lineage handle := by
  rw [lineage]
  split
  · simp
  · split <;> simp

theorem lineage_of_node {weave : Weave} (found : weave.nodes[handle]? = some node)
    (younger : ∀ elder ∈ node.parent, elder < handle) :
    weave.lineage handle = handle :: weave.ancestry node.parent := by
  rw [lineage, found]
  cases parent : node.parent with
  | none => simp [parent, ancestry]
  | some elder =>
    have before : elder < handle := younger elder (by simp [parent])
    simp [parent, ancestry, before]

/-- The ancestors of a row are found on the path that leads to it. -/
theorem ancestry_of_leads {weave : Weave} (leads : Leads level path found skip)
    (held : level.forest.Held weave.nodes level.parent) :
    weave.ancestry found.parent = path.reverse ++ weave.ancestry level.parent := by
  induction leads with
  | here => simp
  | @down handle atom below beside parent cause path found skip deeper ih =>
    obtain ⟨node, younger, inner, _⟩ := held
    have above : weave.ancestry (some handle) = handle :: weave.ancestry parent :=
      weave.lineage_of_node node younger
    simp [ih inner, above]
  | aside _ _ ih => exact ih held.2.2.2

theorem order_getElem?_of_stands {weave : Weave} {handle : Handle} {before after : List Handle}
    (stands : weave.order.toList = before ++ handle :: after) :
    weave.order[before.length]? = some handle := by
  rw [← Array.getElem?_toList, stands]
  simp

theorem nodeAt?_of_stands {weave : Weave} {handle : Handle} {before after : List Handle}
    (stands : weave.order.toList = before ++ handle :: after) :
    weave.nodeAt? before.length = weave.nodes[handle]? := by
  simp [nodeAt?, order_getElem?_of_stands stands]

variable {weave : Weave} {handle : Handle} {atom : Atom} {below beside : Forest}
  {before after : List Handle}

/-- A scan of a row finds its first atom, and behind the subtree of that the rest of the row. -/
theorem scan_of_stands (held : (Forest.cons handle atom below beside).Held weave.nodes parent)
    (stands : weave.order.toList =
      before ++ (Forest.cons handle atom below beside).handles ++ after) :
    weave.nodeAt? before.length = some { atom, parent, span := below.size } ∧
      weave.order.toList = (before ++ handle :: below.handles) ++ beside.handles ++ after ∧
      (before ++ handle :: below.handles).length = before.length + 1 + below.size ∧
      before.length + (Forest.cons handle atom below beside).size =
        before.length + 1 + below.size + beside.size := by
  have standing : weave.order.toList =
      before ++ handle :: (below.handles ++ beside.handles ++ after) := by
    simpa using stands
  refine ⟨by rw [nodeAt?_of_stands standing, held.1], by simpa using stands, ?_, ?_⟩
  · simp only [List.length_append, List.length_cons, Forest.length_handles]
    omega
  · simp only [Forest.size_cons]
    omega

theorem findSibling?_self (stands : weave.order.toList = before ++ handle :: after)
    (inside : before.length < stop) :
    weave.findSibling? before.length stop handle = some before.length := by
  rw [findSibling?]
  simp [inside, order_getElem?_of_stands stands]

theorem findSibling?_of_ne (stands : weave.order.toList = before ++ handle :: after)
    (inside : before.length < stop) (other : target ≠ handle) :
    weave.findSibling? before.length stop target =
      weave.findSibling? (before.length + 1 + weave.span handle) stop target := by
  rw [findSibling?]
  simp [inside, order_getElem?_of_stands stands, other.symm]

theorem descend?_congr (same : weave.findSibling? start stop target =
    weave.findSibling? start' stop target) (path : List Handle) :
    weave.descend? start stop (target :: path) = weave.descend? start' stop (target :: path) := by
  cases path <;> simp [descend?, same]

/-- The descent along a path ends right before the row to which the path leads. -/
theorem descend?_of_leads {weave : Weave} (leads : Leads level path found skip)
    (held : level.forest.Held weave.nodes level.parent) {before after : List Handle}
    (stands : weave.order.toList = before ++ level.forest.handles ++ after) (far : path ≠ []) :
    weave.descend? before.length (before.length + level.forest.size) path =
      some (before.length + skip - 1) := by
  induction leads generalizing before after with
  | here => exact absurd rfl far
  | @down handle atom below beside parent cause path found skip deeper ih =>
    obtain ⟨node, _, inner, _⟩ := held
    have span : weave.span handle = below.size := by simp [Weave.span, node]
    have standing : weave.order.toList =
        before ++ handle :: (below.handles ++ beside.handles ++ after) := by
      simpa using stands
    have inside : before.length < before.length + (Forest.cons handle atom below beside).size := by
      simp only [Forest.size_cons]
      omega
    have self := findSibling?_self standing inside
    cases path with
    | nil =>
      cases deeper with
      | here => simpa [descend?] using self
    | cons child rest =>
      have beyond : weave.order.toList =
          (before ++ [handle]) ++ below.handles ++ (beside.handles ++ after) := by simpa using stands
      have further := ih inner beyond (by simp)
      have positive := deeper.skip_ne_zero
      simp only [descend?, self, span]
      simp only [List.length_append, List.length_singleton] at further
      rw [further]
      congr 1
      omega
  | @aside target handle atom below beside parent cause path found skip other further ih =>
    obtain ⟨_, beyond, length, size⟩ := scan_of_stands held stands
    have span : weave.span handle = below.size := by simp [Weave.span, held.1]
    have standing : weave.order.toList =
        before ++ handle :: (below.handles ++ beside.handles ++ after) := by
      simpa using stands
    have passed := findSibling?_of_ne standing
      (show before.length < before.length + 1 + below.size + beside.size by omega) other
    have found := ih held.2.2.2 beyond far
    rw [length] at found
    rw [size, descend?_congr passed, span, found]
    congr 1
    omega

end Weave

namespace Weave.Holds

variable {weave : Weave} {forest : Forest} (holds : weave.Holds forest)

include holds

theorem unique : forest.handles.Nodup :=
  holds.complete.nodup_iff.mpr List.nodup_range

theorem toList_eq : weave.toList = forest.atoms := by
  rw [toList, holds.order, holds.held.filterMap_handles]

theorem size_eq : weave.size = forest.size := by
  rw [size, ← Array.length_toList, holds.order, Forest.length_handles]

theorem nodup_keys : (forest.atoms.map (·.id.key)).Nodup := by
  have apart : forest.entries.Pairwise fun first second => first.1 ≠ second.1 :=
    List.pairwise_map.mp holds.unique
  rw [Forest.atoms, List.map_map]
  apply List.pairwise_map.mpr
  apply apart.imp_of_mem
  intro first second member member' different same
  have found := (holds.index first.2.id.key first.1).mpr ⟨first.2, member, rfl⟩
  have found' := (holds.index second.2.id.key second.1).mpr ⟨second.2, member', rfl⟩
  rw [show first.2.id.key = second.2.id.key from same, found'] at found
  exact different (Option.some.inj found).symm

theorem distinct : forest.Distinct := by
  apply (List.pairwise_map.mp holds.nodup_keys).map
  intro first second different same
  exact different (congrArg AtomId.key same)

theorem handle?_eq_some_iff {id : AtomId} {handle : Handle} : weave.handle? id = some handle ↔
    ∃ atom, (handle, atom) ∈ forest.entries ∧ atom.id = id := by
  rw [handle?, Option.filter_eq_some_iff, holder?, holds.index]
  constructor
  · rintro ⟨⟨atom, member, _⟩, same⟩
    have node := holds.held.atom_of_mem member
    refine ⟨atom, member, ?_⟩
    obtain ⟨held, found, named⟩ := Option.map_eq_some_iff.mp node
    simpa [found, named] using same
  · rintro ⟨atom, member, rfl⟩
    obtain ⟨held, found, named⟩ := Option.map_eq_some_iff.mp (holds.held.atom_of_mem member)
    exact ⟨⟨atom, member, rfl⟩, by simp [found, named]⟩

theorem contains_iff {id : AtomId} :
    weave.contains id = true ↔ ∃ atom ∈ weave.toList, atom.id = id := by
  rw [contains, Option.isSome_iff_exists, holds.toList_eq]
  simp only [holds.handle?_eq_some_iff, Forest.mem_atoms]
  constructor
  · rintro ⟨handle, atom, member, same⟩
    exact ⟨atom, ⟨handle, member⟩, same⟩
  · rintro ⟨atom, ⟨handle, member⟩, same⟩
    exact ⟨handle, atom, member, same⟩

/-- An atom is found at its index of the order, at the end of a path from the roots. -/
theorem locate?_of_mem {handle : Handle} {atom : Atom} (member : (handle, atom) ∈ forest.entries) :
    ∃ path children skip, Leads ⟨none, none, forest⟩ path
      ⟨some handle, some atom.id, children⟩ (skip + 1) ∧
      forest.entries[skip]? = some (handle, atom) ∧
      weave.locate? atom.id = some (handle, skip) := by
  obtain ⟨target, path, children, skip, leads, found⟩ :=
    Leads.exists_of_mem holds.unique member none none
  refine ⟨target :: path, children, skip, leads, found, ?_⟩
  have lookup : weave.handle? atom.id = some handle :=
    holds.handle?_eq_some_iff.mpr ⟨atom, member, rfl⟩
  have lineage : weave.lineage handle = (target :: path).reverse := by
    simpa [ancestry] using weave.ancestry_of_leads leads holds.held
  have stands : weave.order.toList = [] ++ forest.handles ++ [] := by simpa using holds.order
  have descent := weave.descend?_of_leads leads holds.held stands (by simp)
  simp only [List.length_nil, Nat.zero_add, Nat.add_sub_cancel] at descent
  simp [locate?, lookup, lineage, holds.size_eq, descent]

theorem locate?_eq_none {id : AtomId} (missing : ∀ atom ∈ weave.toList, atom.id ≠ id) :
    weave.locate? id = none := by
  have absent : weave.handle? id = none := by
    cases found : weave.handle? id with
    | none => rfl
    | some handle =>
      obtain ⟨atom, member, same⟩ := holds.handle?_eq_some_iff.mp found
      exact absurd same (missing atom (holds.toList_eq ▸ Forest.mem_atoms.mpr ⟨handle, member⟩))
  simp [locate?, absent]

/-- The row at the end of a path stands as one run in the order. -/
theorem row_stands (leads : Leads ⟨none, none, forest⟩ path found skip) :
    ∃ before after, weave.order.toList = before ++ found.forest.handles ++ after ∧
      before.length = skip := by
  obtain ⟨before, after, walk, length⟩ := leads.split
  exact ⟨before.map (·.1), after.map (·.1), by simp [holds.order, Forest.handles, walk],
    by rw [List.length_map, length]⟩

/-- The siblings of an atom with a woven cause, or without one, are a row of the forest. -/
theorem siblings?_of_contains {cause : Option AtomId}
    (woven : ∀ id ∈ cause, weave.contains id = true) :
    ∃ path found skip, Leads ⟨none, none, forest⟩ path found skip ∧ found.cause = cause ∧
      weave.siblings? cause = some ⟨found.parent, skip, skip + found.forest.size⟩ := by
  cases cause with
  | none => exact ⟨[], ⟨none, none, forest⟩, 0, .here, rfl, by simp [siblings?, holds.size_eq]⟩
  | some id =>
    obtain ⟨atom, present, rfl⟩ := holds.contains_iff.mp (woven id rfl)
    rw [holds.toList_eq, Forest.mem_atoms] at present
    obtain ⟨handle, member⟩ := present
    obtain ⟨path, children, skip, leads, _, located⟩ := holds.locate?_of_mem member
    refine ⟨path, _, _, leads, rfl, ?_⟩
    have far : path ≠ [] := by
      rintro rfl
      cases leads
    obtain ⟨_, _, _, parent, _, node⟩ := leads.node holds.held far
    have span : weave.span handle = children.size := by
      rw [← Option.some.inj parent] at node
      simp [Weave.span, node]
    simp [siblings?, located, span]

end Weave.Holds
end CausalWeave
