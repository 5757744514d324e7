import CausalWeave.Proofs.CanonicalOrder
import CausalWeave.Proofs.Weave.Growth

namespace CausalWeave

theorem insertIdx_append (before after : List α) (item : α) :
    (before ++ after).insertIdx before.length item = before ++ item :: after := by
  induction before with
  | nil => rfl
  | cons first rest ih => simp [ih]

namespace Weave

private theorem getElem?_foldl_grown (handles : List Handle) (unique : handles.Nodup)
    (nodes : Array Node) (handle : Handle) :
    (handles.foldl (fun nodes handle => nodes.modify handle grown) nodes)[handle]? =
      if handle ∈ handles then nodes[handle]?.map grown else nodes[handle]? := by
  induction handles generalizing nodes with
  | nil => simp
  | cons first rest ih =>
    obtain ⟨absent, unique⟩ := List.nodup_cons.mp unique
    rw [List.foldl_cons, ih unique, Array.getElem?_modify]
    by_cases same : first = handle
    · subst first
      simp [absent]
    · simp [same, Ne.symm same]

private theorem size_foldl_grown (handles : List Handle) (nodes : Array Node) :
    (handles.foldl (fun nodes handle => nodes.modify handle grown) nodes).size = nodes.size := by
  induction handles generalizing nodes with
  | nil => rfl
  | cons first rest ih => rw [List.foldl_cons, ih, Array.size_modify]

theorem getElem?_nodesWith {weave : Weave} {parent : Option Handle}
    (unique : (weave.ancestry parent).Nodup) (atom : Atom) (handle : Handle) :
    (weave.nodesWith atom parent)[handle]? =
      if handle = weave.nodes.size then some { atom, parent, span := 0 }
      else if handle ∈ weave.ancestry parent then weave.nodes[handle]?.map grown
      else weave.nodes[handle]? := by
  change (Array.push ((weave.ancestry parent).foldl _ _) _)[handle]? = _
  rw [Array.getElem?_push, size_foldl_grown, getElem?_foldl_grown _ unique]

theorem size_nodesWith (weave : Weave) (atom : Atom) (parent : Option Handle) :
    (weave.nodesWith atom parent).size = weave.nodes.size + 1 := by
  change (Array.push ((weave.ancestry parent).foldl _ _) _).size = _
  rw [Array.size_push, size_foldl_grown]

theorem insertionIndex_of_stands {weave : Weave} {forest : Forest}
    (held : forest.Held weave.nodes parent) {before after : List Handle}
    (stands : weave.order.toList = before ++ forest.handles ++ after) (id : AtomId) :
    weave.insertionIndex before.length (before.length + forest.size) id =
      before.length + forest.slot id := by
  induction forest generalizing before with
  | nil =>
    rw [insertionIndex]
    simp [Forest.slot]
  | cons handle sibling below beside _ ih =>
    obtain ⟨here, beyond, length, size⟩ := scan_of_stands held stands
    have further := ih held.2.2.2 beyond
    rw [length] at further
    have inside : before.length < before.length + 1 + below.size + beside.size := by omega
    rw [insertionIndex, size]
    by_cases earlier : id.siblingOrder sibling.id = .lt
    · simp [here, inside, earlier, Forest.slot]
    · simp only [inside, if_true, here, earlier, if_false, Forest.slot, further]
      omega

/-- Placing an atom at its slot of the row below its cause makes the forest grow by that atom. -/
theorem Holds.place {weave : Weave} {forest : Forest} (holds : weave.Holds forest) {atom : Atom}
    (leads : Leads ⟨none, none, forest⟩ path found skip) (caused : atom.cause = found.cause)
    (fresh : ∀ other ∈ forest.atoms, atom.id.key ≠ other.id.key) :
    (weave.place atom found.parent (skip + found.forest.slot atom.id)).Holds
      (forest.graft weave.nodes.size atom path) := by
  have ancestors : weave.ancestry found.parent = path.reverse := by
    simpa [ancestry] using weave.ancestry_of_leads leads holds.held
  have unique : (weave.ancestry found.parent).Nodup := by
    rw [ancestors, List.nodup_reverse]
    exact leads.nodup_path holds.unique
  have bounded : ∀ handle ∈ forest.handles, handle < weave.nodes.size := by
    intro handle member
    exact List.mem_range.mp (holds.complete.mem_iff.mp member)
  obtain ⟨before, after, walk, length, grown⟩ :=
    leads.graft_entries weave.nodes.size atom
  change forest.entries = before ++ after at walk
  constructor
  case held =>
    apply leads.held_graft holds.held holds.unique
    · intro handle member
      have old : handle ≠ weave.nodes.size := Nat.ne_of_lt (bounded handle member)
      simp [Weave.place, getElem?_nodesWith unique, old, ancestors]
    · simp [Weave.place, getElem?_nodesWith unique]
    · intro elder above
      have elders : elder ∈ path := by
        have lineage := ancestors
        rw [show found.parent = some elder from above] at lineage
        rw [← List.mem_reverse, ← lineage]
        exact weave.mem_lineage elder
      exact bounded elder (leads.path_subset elder elders)
  case order =>
    have arranged : weave.order = (forest.entries.map (·.1)).toArray := by
      rw [← Forest.handles, ← holds.order, Array.toArray_toList]
    have index : skip + found.forest.slot atom.id = (before.map (·.1)).length := by
      rw [List.length_map, length]
    rw [Weave.place, arranged, walk, List.map_append, index, List.insertIdxIfInBounds_toArray,
      insertIdx_append]
    simp [Forest.handles, grown]
  case ordered =>
    apply leads.ordered_graft holds.ordered caused
    intro other member same
    exact fresh other member (congrArg AtomId.key same)
  case complete =>
    rw [Weave.place, size_nodesWith, List.range_succ]
    have old := holds.complete
    rw [Forest.handles, walk, List.map_append] at old
    rw [Forest.handles, grown, List.map_append, List.map_cons]
    exact List.perm_middle.trans ((old.cons _).trans (List.perm_append_singleton _ _).symm)
  case index =>
    intro key handle
    have entry : ∀ other, (handle, other) ∈ before ++ (weave.nodes.size, atom) :: after ↔
        (handle = weave.nodes.size ∧ other = atom) ∨ (handle, other) ∈ forest.entries := by
      intro other
      simp only [walk, List.mem_append, List.mem_cons, Prod.mk.injEq]
      exact or_left_comm
    simp only [Weave.place, Std.HashMap.getElem?_insert, grown, entry, beq_iff_eq]
    by_cases same : atom.id.key = key
    · simp only [same, if_true, Option.some.injEq]
      constructor
      · rintro rfl
        exact ⟨atom, .inl ⟨rfl, rfl⟩, same⟩
      · rintro ⟨other, ⟨rfl, _⟩ | member, other_key⟩
        · rfl
        · exact absurd (same.trans other_key.symm)
            (fresh other (Forest.mem_atoms.mpr ⟨handle, member⟩))
    · simp only [same, if_false, holds.index]
      constructor
      · rintro ⟨other, member, other_key⟩
        exact ⟨other, .inr member, other_key⟩
      · rintro ⟨other, ⟨_, rfl⟩ | member, other_key⟩
        · exact absurd other_key same
        · exact ⟨other, member, other_key⟩

/-- A weave that holds some forest. -/
def Sound (weave : Weave) : Prop :=
  ∃ forest, weave.Holds forest

theorem sound_empty : Sound {} :=
  ⟨.nil, trivial, rfl, trivial, .rfl, by simp [Forest.entries]⟩

@[simp] theorem toList_empty : ({} : Weave).toList = [] := rfl

@[simp] theorem contains_empty (id : AtomId) : ({} : Weave).contains id = false := by
  simp [contains, handle?, holder?]

namespace Sound

variable {weave : Weave} (sound : weave.Sound)

include sound

theorem canonicalOrder_toList : canonicalOrder weave.toList = weave.toList := by
  obtain ⟨forest, holds⟩ := sound
  rw [holds.toList_eq]
  exact holds.ordered.canonicalOrder_atoms holds.distinct

theorem size_eq : weave.size = weave.toList.length := by
  obtain ⟨forest, holds⟩ := sound
  rw [holds.size_eq, holds.toList_eq, Forest.length_atoms]

theorem nodup_keys : (weave.toList.map (·.id.key)).Nodup := by
  obtain ⟨forest, holds⟩ := sound
  rw [holds.toList_eq]
  exact holds.nodup_keys

theorem nodup_ids : (weave.toList.map (·.id)).Nodup := by
  obtain ⟨forest, holds⟩ := sound
  rw [holds.toList_eq]
  exact holds.distinct

theorem contains_iff {id : AtomId} :
    weave.contains id = true ↔ ∃ atom ∈ weave.toList, atom.id = id := by
  obtain ⟨forest, holds⟩ := sound
  exact holds.contains_iff

theorem cause_before {before after : List Atom} {atom : Atom} {cause : AtomId}
    (order : weave.toList = before ++ atom :: after) (caused : atom.cause = some cause) :
    ∃ parent ∈ before, parent.id = cause := by
  obtain ⟨forest, holds⟩ := sound
  rw [holds.toList_eq] at order
  rcases holds.ordered.cause_before order with rooted | ⟨parent, present, named⟩
  · simp [rooted] at caused
  · exact ⟨parent, present, Option.some.inj (named.symm.trans caused)⟩

theorem contains_cause {atom : Atom} {cause : AtomId} (woven : atom ∈ weave.toList)
    (caused : atom.cause = some cause) : weave.contains cause = true := by
  obtain ⟨before, after, order⟩ := List.append_of_mem woven
  obtain ⟨parent, present, named⟩ := sound.cause_before order caused
  exact sound.contains_iff.mpr ⟨parent, by simp [order, present], named⟩

/-- No woven atom is its own cause. -/
theorem apart {atom : Atom} (woven : atom ∈ weave.toList) : atom.cause ≠ some atom.id := by
  intro caused
  obtain ⟨before, after, order⟩ := List.append_of_mem woven
  obtain ⟨parent, present, same⟩ := sound.cause_before order caused
  have unique := sound.nodup_ids
  rw [order, List.map_append] at unique
  apply List.disjoint_of_nodup_append unique
  · exact List.mem_map.mpr ⟨parent, present, same⟩
  · exact List.mem_map.mpr ⟨atom, by simp, rfl⟩

end Sound

/-- All that adding an atom can come to, told of the sequence of the weave. -/
inductive Attempt (weave : Weave) (atom : Atom) : Except Refusal (Placement × Weave) → Prop where
  | selfCausation (caused : atom.cause = some atom.id) :
      Attempt weave atom (.error (.selfCausation atom.id))
  | identityCollision (apart : atom.cause ≠ some atom.id) (other : Atom)
      (woven : other ∈ weave.toList) (key : other.id.key = atom.id.key)
      (different : other.same atom = false) :
      Attempt weave atom (.error (.identityCollision atom.id))
  | alreadyPresent (apart : atom.cause ≠ some atom.id) (other : Atom)
      (woven : other ∈ weave.toList) (same : other.same atom = true) :
      Attempt weave atom (.ok (.alreadyPresent, weave))
  | causeMissing (apart : atom.cause ≠ some atom.id)
      (fresh : ∀ other ∈ weave.toList, other.id.key ≠ atom.id.key) (cause : AtomId)
      (caused : atom.cause = some cause) (missing : weave.contains cause = false) :
      Attempt weave atom (.ok (.causeMissing, weave))
  | inserted (apart : atom.cause ≠ some atom.id)
      (fresh : ∀ other ∈ weave.toList, other.id.key ≠ atom.id.key)
      (causal : ∀ cause ∈ atom.cause, weave.contains cause = true) (later : Weave)
      (sound : later.Sound) (before after : List Atom) (order : weave.toList = before ++ after)
      (placed : later.toList = before ++ atom :: after) :
      Attempt weave atom (.ok (.inserted before.length, later))

private theorem Holds.attempt_place {weave : Weave} {forest : Forest} (holds : weave.Holds forest)
    {atom : Atom} (apart : atom.cause ≠ some atom.id)
    (fresh : ∀ other ∈ weave.toList, other.id.key ≠ atom.id.key)
    (causal : ∀ cause ∈ atom.cause, weave.contains cause = true) :
    ∃ run, weave.siblings? atom.cause = some run ∧
      weave.Attempt atom (.ok (.inserted (weave.insertionIndex run.start run.stop atom.id),
        weave.place atom run.parent (weave.insertionIndex run.start run.stop atom.id))) := by
  obtain ⟨path, found, skip, leads, caused, run⟩ := holds.siblings?_of_contains causal
  refine ⟨_, run, ?_⟩
  have apart_keys : ∀ other ∈ forest.atoms, atom.id.key ≠ other.id.key := by
    intro other member same
    exact fresh other (holds.toList_eq ▸ member) same.symm
  have grown := holds.place leads caused.symm apart_keys
  obtain ⟨_, _, stands, length⟩ := holds.row_stands leads
  have index := weave.insertionIndex_of_stands (leads.held holds.held) stands atom.id
  rw [length] at index
  obtain ⟨before, after, walk, length, leaf⟩ :=
    leads.graft_entries weave.nodes.size atom
  have placed := Attempt.inserted apart fresh causal _ ⟨_, grown⟩ (before.map (·.2)) (after.map (·.2))
    (by rw [holds.toList_eq, Forest.atoms, ← List.map_append, ← walk])
    (by simp [grown.toList_eq, Forest.atoms, leaf])
  rw [List.length_map, length] at placed
  simpa [index] using placed

/-- Adding an atom to a sound weave does one of the five things, and keeps the weave sound. -/
theorem Sound.attempt {weave : Weave} (sound : weave.Sound) (atom : Atom) :
    weave.Attempt atom (weave.insert atom) := by
  obtain ⟨forest, holds⟩ := sound
  unfold insert
  by_cases apart : atom.cause = some atom.id
  · simpa [apart] using Attempt.selfCausation apart
  simp only [apart, if_false]
  cases slot : weave.holder? atom.id with
  | some handle =>
    obtain ⟨other, member, key⟩ := (holds.index _ _).mp slot
    have woven : other ∈ weave.toList := holds.toList_eq ▸ Forest.mem_atoms.mpr ⟨handle, member⟩
    obtain ⟨_, _, node⟩ := holds.held.node_of_mem member
    by_cases same : other.same atom = true
    · simpa [node, same] using Attempt.alreadyPresent apart other woven same
    · simpa [node, same] using Attempt.identityCollision apart other woven key (by simpa using same)
  | none =>
    have fresh : ∀ other ∈ weave.toList, other.id.key ≠ atom.id.key := by
      intro other woven key
      obtain ⟨handle, member⟩ := Forest.mem_atoms.mp (holds.toList_eq ▸ woven)
      have taken := (holds.index atom.id.key handle).mpr ⟨other, member, key⟩
      simp [holder?, taken] at slot
    by_cases causal : ∀ cause ∈ atom.cause, weave.contains cause = true
    · obtain ⟨run, siblings, placed⟩ := holds.attempt_place apart fresh causal
      simpa [siblings] using placed
    · simp only [not_forall] at causal
      obtain ⟨cause, caused, missing⟩ := causal
      rw [Option.mem_def] at caused
      have unknown : weave.locate? cause = none := by
        apply holds.locate?_eq_none
        intro other woven same
        exact missing (holds.contains_iff.mpr ⟨other, woven, same⟩)
      simpa [caused, siblings?, unknown] using
        Attempt.causeMissing apart fresh cause caused (by simpa using missing)

end Weave
end CausalWeave
