import CausalWeave.Proofs.Replica.Convergence
import CausalWeave.Proofs.Replica.Reachable
import CausalWeave.Proofs.Weave.Subtree

namespace CausalWeave

namespace Weave.Sound

variable {weave : Weave} (sound : weave.Sound)

include sound

theorem contains_of_descends {atoms : List Atom} (subset : ∀ atom ∈ weave.toList, atom ∈ atoms)
    (distinct : (atoms.map (·.id)).Nodup) {descendant ancestor : AtomId}
    (woven : weave.contains descendant = true) (descends : Descends atoms descendant ancestor) :
    weave.contains ancestor = true := by
  have closed : ∀ {effect cause}, weave.contains effect = true → NamesCause atoms effect cause →
      weave.contains cause = true := by
    intro effect cause woven names
    obtain ⟨atom, member, same⟩ := sound.contains_iff.mp woven
    exact sound.contains_cause member (names.cause_eq distinct (subset atom member) same)
  induction descends with
  | single names => exact closed woven names
  | tail _ names ih => exact closed ih names

theorem not_descends_self {atom : Atom} (woven : atom ∈ weave.toList) :
    ¬ Descends weave.toList atom.id atom.id :=
  (sound.rooted woven).not_onCycle sound.nodup_ids

section Outside

variable {atom : Atom} {outside : Atom → Bool}
  (test : ∀ other, outside other = true ↔ ¬ Descends weave.toList other.id atom.id)

include test

/-- Without the run of its descendants the sequence has the atom between the two parts around it. -/
theorem filter_of_run {before run after : List Atom}
    (order : weave.toList = before ++ atom :: (run ++ after))
    (descendants : ∀ other, other ∈ run ↔
      other ∈ weave.toList ∧ Descends weave.toList other.id atom.id) :
    weave.toList.filter outside = before ++ atom :: after := by
  have unique := sound.nodup_ids.of_map
  rw [order, List.nodup_middle, List.nodup_cons] at unique
  have disjoint : run.Disjoint (before ++ after) :=
    List.disjoint_of_nodup_append
      ((List.perm_append_comm_assoc before run after).nodup_iff.mp unique.2)
  have kept : ∀ part : List Atom, part ⊆ before ++ after → part.filter outside = part := by
    intro part within
    rw [List.filter_eq_self]
    intro other member
    have present : other ∈ weave.toList := by
      rw [order]
      rcases List.mem_append.mp (within member) with early | late
      · simp [early]
      · simp [late]
    rw [test]
    intro descends
    exact disjoint ((descendants other).mpr ⟨present, descends⟩) (within member)
  have dropped : run.filter outside = [] := by
    rw [List.filter_eq_nil_iff]
    intro other member
    rw [test, not_not]
    exact ((descendants other).mp member).2
  have head : outside atom = true := (test atom).mpr (sound.not_descends_self (by simp [order]))
  rw [order, List.filter_append, List.filter_cons_of_pos head, List.filter_append, dropped,
    kept before (List.subset_append_left _ _), kept after (List.subset_append_right _ _),
    List.nil_append]

/-- Without the descendants of an atom the sequence is what it was before they were placed. -/
theorem filter_of_grows {before after : List Atom} {landings : List (Atom × Nat)}
    (grown : Grows (before ++ atom :: after) landings weave.toList)
    (landed : ∀ landing ∈ landings, Descends weave.toList landing.1.id atom.id)
    (apart : ∀ other ∈ before ++ after, ¬ Descends weave.toList other.id atom.id) :
    weave.toList.filter outside = before ++ atom :: after := by
  have placed : ∀ landing ∈ landings, outside landing.1 = false := by
    intro landing member
    rw [← Bool.not_eq_true, test, not_not]
    exact landed landing member
  rw [grown.filter placed, List.filter_eq_self]
  intro other member
  rw [test]
  by_cases here : other = atom
  · rw [here]
    exact sound.not_descends_self (grown.sublist.subset (by simp))
  · apply apart other
    simpa [here] using member

end Outside

/-- When all that was placed after an atom descends from it and nothing else does, what was placed is
the run of its descendants. -/
theorem run_of_grows {before after : List Atom} {atom : Atom} {landings : List (Atom × Nat)}
    (grown : Grows (before ++ atom :: after) landings weave.toList)
    (landed : ∀ landing ∈ landings, Descends weave.toList landing.1.id atom.id)
    (apart : ∀ other ∈ before ++ after, ¬ Descends weave.toList other.id atom.id) :
    ∃ run, weave.toList = before ++ atom :: (run ++ after) ∧ run.Perm (landings.map (·.1)) ∧
      weave.position? atom.id = some before.length ∧
      weave.descendantCount? atom.id = some run.length := by
  classical
  obtain ⟨first, run, last, order, position, count, descendants⟩ :=
    sound.subtree (grown.sublist.subset (by simp) : atom ∈ weave.toList)
  obtain ⟨outside, test⟩ : ∃ outside : Atom → Bool, ∀ other,
      outside other = true ↔ ¬ Descends weave.toList other.id atom.id :=
    ⟨fun other => !decide (Descends weave.toList other.id atom.id), by simp⟩
  have old := sound.filter_of_grows test grown landed apart
  have new := sound.filter_of_run test order descendants
  have unique := sound.nodup_ids.of_map
  rw [order, List.nodup_middle, List.nodup_cons] at unique
  simp only [List.mem_append, not_or] at unique
  obtain ⟨rfl, _, rfl⟩ :=
    (List.append_cons_inj_of_notMem unique.1.1 unique.1.2.2).mp (new.symm.trans old)
  have members : (first ++ atom :: last ++ run).Perm (first ++ atom :: last ++ landings.map (·.1)) := by
    apply List.Perm.trans _ grown.perm
    rw [order, List.append_assoc, List.cons_append]
    exact .append_left _ (.cons _ List.perm_append_comm)
  exact ⟨run, order, (List.perm_append_left_iff _).mp members, position, count⟩

end Weave.Sound

namespace Replica

/-- How a sequence has grown by an atom, which was woven at an index, and by what this set free. -/
structure Block (replica later : Replica σ) (atom : Atom) (position : Nat)
    (landings : List Landing) (run : List Atom) : Prop where
  sequence : later.weave.toList =
    replica.weave.toList.take position ++ atom :: (run ++ replica.weave.toList.drop position)
  released : (run.map (·.id)).Perm (landings.map (·.id))
  waited : ∀ other ∈ run, other ∈ replica.pending.atoms
  descends : ∀ other ∈ run, Descends later.weave.toList other.id atom.id
  position : later.weave.position? atom.id = some position
  descendants : later.weave.descendantCount? atom.id = some landings.length
  order : replica.weave.toList.Sublist later.weave.toList

variable {replica : Replica σ} {atom : Atom}

/-- An atom that waited and is woven now descends from the atom that came. Its cause was not woven
before, so that is this atom or one that waited as well. -/
theorem Sound.descends_of_landed (sound : replica.Sound) {weave : Weave} {landed : List Atom}
    (members : weave.toList.Perm (atom :: replica.weave.toList ++ landed))
    (waited : ∀ other ∈ landed, other ∈ replica.pending.atoms) (rooted : Rooted weave.toList other)
    (member : other ∈ landed) : Descends weave.toList other.id atom.id := by
  induction rooted with
  | root _ uncaused =>
    obtain ⟨cause, caused⟩ := sound.pending.exists_cause (waited _ member)
    simp [uncaused] at caused
  | @effect parent other parentRooted present caused ih =>
    have names : NamesCause weave.toList other.id parent.id := ⟨other, present, rfl, caused⟩
    have parentPresent := members.mem_iff.mp parentRooted.mem
    simp only [List.cons_append, List.mem_cons, List.mem_append] at parentPresent
    rcases parentPresent with here | old | further
    · exact .single (here ▸ names)
    · have woven := sound.weave.contains_iff.mpr ⟨parent, old, rfl⟩
      simp [sound.absent other (waited other member) parent.id caused] at woven
    · exact .head names (ih further)

variable [Observer σ]

/-- An atom that is woven is placed first, and then atoms that waited are. -/
theorem Encounter.places (encounter : replica.Encounter atom result)
    (outcome : result.1 = .ok (.woven position released)) :
    ∃ before after landings, replica.weave.toList = before ++ after ∧ before.length = position ∧
      (∀ other ∈ replica.weave.toList, other.id ≠ atom.id) ∧
      Grows (before ++ atom :: after) landings result.2.weave.toList ∧
      (∀ other ∈ landings.map (·.1), other ∈ replica.pending.atoms) ∧
      released = landings.map fun landing => { id := landing.1.id, position := landing.2 } := by
  cases encounter with
  | woven fresh causal placed before after order walk ledger cascade accounts ended =>
    cases outcome
    refine ⟨before, after, ledger.landings, order, rfl, ?_, walk ▸ accounts.grown, ?_, accounts.landed⟩
    · intro other member same
      exact fresh other member (congrArg AtomId.key same)
    · intro other landed
      exact accounts.accounted.mem_iff.mpr (List.mem_append_left _ landed)
  | _ => simp at outcome

theorem Sound.block (sound : replica.Sound) (encounter : replica.Encounter atom result)
    (outcome : result.1 = .ok (.woven position released)) :
    ∃ run, Block replica result.2 atom position released run := by
  have later := (encounter.sound sound).weave
  have subset := encounter.woven_subset
  have kept := encounter.grows.choose_spec.1.sublist
  obtain ⟨before, after, landings, old, rfl, fresh, grown, waited, rfl⟩ := encounter.places outcome
  have members : result.2.weave.toList.Perm
      (atom :: replica.weave.toList ++ landings.map (·.1)) := by
    apply grown.perm.trans (List.Perm.append_right _ _)
    rw [old]
    exact List.perm_middle
  have landed : ∀ other ∈ landings.map (·.1), Descends result.2.weave.toList other.id atom.id := by
    intro other member
    have rooted := later.rooted (members.mem_iff.mpr (List.mem_append_right _ member))
    exact sound.descends_of_landed members waited rooted member
  have apart : ∀ other ∈ before ++ after, ¬ Descends result.2.weave.toList other.id atom.id := by
    intro other member descends
    have woven := sound.weave.contains_iff.mpr ⟨other, old ▸ member, rfl⟩
    obtain ⟨twin, present, same⟩ := sound.weave.contains_iff.mp
      (sound.weave.contains_of_descends subset later.nodup_ids woven descends)
    exact fresh twin present same
  obtain ⟨run, sequence, placed, position, count⟩ := later.run_of_grows grown
    (fun landing member => landed landing.1 (List.mem_map.mpr ⟨landing, member, rfl⟩)) apart
  refine ⟨run, ?_⟩
  constructor
  case sequence => simp [sequence, old]
  case released => simpa [Function.comp_def] using placed.map (·.id)
  case waited =>
    intro other member
    exact waited other (placed.mem_iff.mp member)
  case descends =>
    intro other member
    exact landed other (placed.mem_iff.mp member)
  case position => exact position
  case descendants => rw [count, placed.length_eq, List.length_map, List.length_map]
  case order => exact kept

/-- An atom that a reachable replica weaves comes into the sequence in one run with what it sets
free, all of which descends from it. -/
theorem Reachable.exists_block (reachable : replica.Reachable)
    (outcome : (replica.receive atom).1 = .ok (.woven position released)) :
    ∃ run, Block replica (replica.receive atom).2 atom position released run :=
  reachable.sound.block (reachable.sound.encounter atom) outcome

/-- A root that comes after its child brings the child into the sequence. -/
theorem exists_block_belated :
    let root : Atom := { id := { site := ⟨"a"⟩, timestamp := 1 } }
    let child : Atom := { id := { site := ⟨"b"⟩, timestamp := 2 }, cause := some root.id }
    let replica := after ⟨"x"⟩ .unbounded () [.receive child]
    ∃ position released run,
      (replica.receive root).1 = .ok (.woven position released) ∧
        Block replica (replica.receive root).2 root position released run ∧ child ∈ run := by
  intro root child replica
  have reachable : replica.Reachable := ⟨_, _, _, _, rfl⟩
  have only : ∀ other ∈ replica.held, other ∈ [child] := mem_of_held_after _ _ _ [child]
  have bucket : replica.pending.bucket root.id = [child] := by
    simp [replica, root, child, after, perform, receive, fresh, Replica.Config.unbounded,
      Replica.Config.bound, Weave.insertObserved, Weave.insert, Weave.holder?, Weave.siblings?,
      Weave.locate?, Weave.handle?, PendingBuffer.hold, PendingBuffer.contains,
      PendingBuffer.leadsTo, PendingBuffer.reaches, PendingBuffer.push, PendingBuffer.bucket]
  have waiting : child ∈ replica.pending.atoms :=
    PendingBuffer.mem_atoms.mpr ⟨root.id, by simp [bucket]⟩
  clear_value replica
  have encounter := reachable.sound.encounter root
  have later := reachable.sound.receive root
  have coherent : Coherent (root :: replica.held) := by
    have unique : ([root, child].map (·.id.key)).Nodup := by decide
    apply (coherent_of_unique unique).of_within (within_of_subset _)
    exact List.cons_subset_cons root only
  have agrees : ∀ other ∈ replica.held, other.id.key = root.id.key → other.same root = true := by
    intro other held
    exact coherent other (by simp [held]) root (by simp)
  have unwoven : child ∉ replica.weave.toList := by
    intro woven
    have apart := reachable.sound.not_woven_of_waiting waiting woven
    simp [child.same_refl] at apart
  rcases encounter.weaves reachable.sound agrees (by decide) (by simp [root]) with
    ⟨other, woven, _⟩ | ⟨position, released, outcome, present⟩
  · rw [List.mem_singleton.mp (only other (List.mem_append_left _ woven))] at woven
    exact absurd woven unwoven
  · obtain ⟨run, block⟩ := reachable.exists_block outcome
    refine ⟨position, released, run, outcome, block, ?_⟩
    have held := encounter.held_kept reachable.sound coherent child (List.mem_append_right _ waiting)
    rcases List.mem_append.mp held with woven | still
    · rw [block.sequence] at woven
      simp only [List.mem_append, List.mem_cons] at woven
      rcases woven with before | here | inside | after
      · exact absurd (List.mem_of_mem_take before) unwoven
      · simp [root, child] at here
      · exact inside
      · exact absurd (List.mem_of_mem_drop after) unwoven
    · have missing := later.absent child still root.id rfl
      simp [later.weave.contains_iff.mpr ⟨root, present, rfl⟩] at missing

end Replica
end CausalWeave
