import CausalWeave.Proofs.Replica.Convergence
import CausalWeave.Proofs.Replica.Reachable

namespace CausalWeave

theorem Weave.Sound.sameSequence {first second : Weave} (sound : first.Sound)
    (sound' : second.Sound) (delivers : Delivers first.toList second.toList) :
    SameSequence first.toList second.toList := by
  rw [← sound.canonicalOrder_toList, ← sound'.canonicalOrder_toList]
  exact delivers.sameSequence sound.nodup_ids sound'.nodup_ids

namespace Replica

/-- All atoms that one replica holds and that another has woven, in the version of the first where
both have one. -/
def union (one : Replica σ) (other : Replica τ) : List Atom :=
  one.held ++ other.weave.toList.filter fun atom => !one.held.any (·.same atom)

theorem Sound.sequence_eq {replica : Replica σ} (sound : replica.Sound) {atoms : List Atom}
    (distinct : (atoms.map (·.id)).Nodup) (held : ∀ atom, atom ∈ replica.held ↔ atom ∈ atoms) :
    replica.weave.toList = canonicalOrder (rootedAtoms atoms) := by
  rw [← sound.weave.canonicalOrder_toList]
  apply canonicalOrder_congr sound.weave.nodup_ids (distinct.sublist (rootedAtoms_sublist.map _))
  intro atom
  rw [sound.woven_iff held, mem_rootedAtoms]

theorem Sound.waiting_perm {replica : Replica σ} (sound : replica.Sound) {atoms : List Atom}
    (distinct : (atoms.map (·.id)).Nodup) (held : ∀ atom, atom ∈ replica.held ↔ atom ∈ atoms) :
    replica.pending.atoms.Perm (unrootedAtoms atoms) := by
  apply (List.perm_ext_iff_of_nodup sound.pending.distinct.of_map
    (distinct.of_map.sublist unrootedAtoms_sublist)).mpr
  intro atom
  rw [mem_unrootedAtoms, ← sound.woven_iff held, ← held]
  constructor
  · intro waiting
    refine ⟨List.mem_append_right _ waiting, ?_⟩
    intro woven
    have apart := sound.not_woven_of_waiting waiting woven
    simp [atom.same_refl] at apart
  · intro ⟨member, unwoven⟩
    exact (List.mem_append.mp member).resolve_left unwoven

section Union

variable {one : Replica σ} {other : Replica τ} (giver : other.weave.Sound)
  (coherent : Coherent (one.held ++ other.weave.toList))

theorem mem_union {atom : Atom} : atom ∈ union one other ↔
    atom ∈ one.held ∨ atom ∈ other.weave.toList ∧ ∀ twin ∈ one.held, twin.same atom = false := by
  simp [union]

include giver coherent

theorem nodup_union (sound : one.Sound) : ((union one other).map (·.id)).Nodup := by
  have own : Coherent one.held := by
    apply coherent.of_within (within_of_subset _)
    exact fun atom held => List.mem_append_left _ held
  rw [union, List.map_append, List.nodup_append']
  refine ⟨sound.nodup_held own, giver.nodup_ids.sublist (List.filter_sublist.map _), ?_⟩
  intro id here there
  obtain ⟨atom, member, rfl⟩ := List.mem_map.mp here
  obtain ⟨twin, present, id⟩ := List.mem_map.mp there
  simp only [List.mem_filter, Bool.not_eq_true', List.any_eq_false] at present
  apply present.2 atom member
  exact coherent atom (by simp [member]) twin (by simp [present.1]) (congrArg AtomId.key id.symm)

end Union

/-- Where a replica stands that has taken in some atoms of another's sequence. -/
structure Absorbed (replica : Replica σ) (received : List Atom) (state : Intake × Replica σ) :
    Prop where
  sound : state.2.Sound
  deferred : state.1.deferred = 0
  rejected : state.1.rejected = []
  drawn : ∀ atom ∈ state.2.held, atom ∈ replica.held ++ received
  kept : ∀ atom ∈ replica.held, atom ∈ state.2.held
  grown : ∀ atom ∈ replica.weave.toList, atom ∈ state.2.weave.toList
  taken : ∀ atom ∈ received, ∃ other ∈ state.2.weave.toList, other.same atom = true

namespace Absorbed

variable {replica : Replica σ} {received : List Atom} {state : Intake × Replica σ}
  (absorbed : Absorbed replica received state)

include absorbed

/-- After a merge a replica holds what is in the union, and nothing else. -/
theorem mem_held_iff {other : Replica τ} (giver : other.weave.Sound)
    (coherent : Coherent (replica.held ++ other.weave.toList))
    (whole : received = other.weave.toList) : atom ∈ state.2.held ↔ atom ∈ union replica other := by
  subst whole
  rw [mem_union]
  constructor
  · intro held
    by_cases own : atom ∈ replica.held
    · exact .inl own
    · have given := (List.mem_append.mp (absorbed.drawn atom held)).resolve_left own
      refine .inr ⟨given, ?_⟩
      intro twin present
      rw [← Bool.not_eq_true]
      intro same
      have unique := absorbed.sound.nodup_held (coherent.of_within (within_of_subset absorbed.drawn))
      have equal := List.inj_on_of_nodup_map unique (absorbed.kept twin present) held
        (Atom.id_eq_of_same same)
      exact own (equal ▸ present)
  · intro member
    rcases member with own | ⟨given, apart⟩
    · exact absorbed.kept atom own
    · obtain ⟨twin, woven, same⟩ := absorbed.taken atom given
      have held := List.mem_append_left state.2.pending.atoms woven
      rcases List.mem_append.mp (absorbed.drawn twin held) with own | given'
      · simp [apart twin own] at same
      · have equal := List.inj_on_of_nodup_map giver.nodup_ids given' given (Atom.id_eq_of_same same)
        exact equal ▸ held

section Empty

variable (empty : replica.pending.atoms = [])

include empty

/-- Where nothing waited, nothing waits. -/
theorem pending_eq_nil : state.2.pending.atoms = [] := by
  apply List.eq_nil_iff_forall_not_mem.mpr
  intro atom waiting
  have drawn := absorbed.drawn atom (List.mem_append_right _ waiting)
  rw [held, empty, List.append_nil] at drawn
  rcases List.mem_append.mp drawn with own | given
  · have apart := absorbed.sound.not_woven_of_waiting waiting (absorbed.grown atom own)
    simp [atom.same_refl] at apart
  · obtain ⟨twin, woven, same⟩ := absorbed.taken atom given
    simp [absorbed.sound.not_woven_of_waiting waiting woven] at same

theorem delivers : Delivers state.2.weave.toList (replica.weave.toList ++ received) := by
  constructor
  · apply within_of_subset
    intro atom woven
    simpa [held, empty] using absorbed.drawn atom (List.mem_append_left _ woven)
  · intro atom member
    rcases List.mem_append.mp member with own | given
    · exact ⟨atom, absorbed.grown atom own, atom.same_refl⟩
    · obtain ⟨twin, woven, same⟩ := absorbed.taken atom given
      exact ⟨twin, woven, Atom.same_symm same⟩

end Empty
end Absorbed

/-- Roots do not wait. -/
theorem Sound.size_eq_zero {replica : Replica σ} (sound : replica.Sound)
    (roots : ∀ atom ∈ replica.held, atom.cause = none) : replica.pending.size = 0 := by
  rw [sound.pending.size_eq, List.length_eq_zero_iff, List.eq_nil_iff_forall_not_mem]
  intro atom waiting
  obtain ⟨cause, caused⟩ := sound.pending.exists_cause waiting
  simp [roots atom (List.mem_append_right _ waiting)] at caused

variable [Observer σ]

theorem Absorbed.receive {replica : Replica σ} {state : Intake × Replica σ}
    (absorbed : Absorbed replica received state)
    (coherent : Coherent (replica.held ++ (received ++ [atom]))) (apart : atom.cause ≠ some atom.id)
    (causal : ∀ cause ∈ atom.cause, ∃ parent ∈ received, parent.id = cause) :
    Absorbed replica (received ++ [atom])
      (state.1.add (state.2.receive atom).1, (state.2.receive atom).2) := by
  have sound := absorbed.sound
  have encounter := sound.encounter atom
  have known : Within (atom :: state.2.held) (replica.held ++ (received ++ [atom])) := by
    apply within_of_subset
    intro other member
    rcases List.mem_cons.mp member with here | held
    · simp [here]
    · simpa [or_assoc] using Or.inl (absorbed.drawn other held)
  have coherent := coherent.of_within known
  have agrees : ∀ other ∈ state.2.held, other.id.key = atom.id.key → other.same atom = true := by
    intro other held
    exact coherent other (List.mem_cons_of_mem _ held) atom (List.mem_cons_self ..)
  have causal : ∀ cause ∈ atom.cause, state.2.weave.contains cause = true := by
    intro cause caused
    obtain ⟨parent, present, rfl⟩ := causal cause caused
    obtain ⟨other, woven, same⟩ := absorbed.taken parent present
    exact sound.weave.contains_iff.mpr ⟨other, woven, Atom.id_eq_of_same same⟩
  have weaves := encounter.weaves sound agrees apart causal
  constructor
  case sound => exact sound.receive atom
  case deferred =>
    rcases weaves with ⟨_, _, _, outcome⟩ | ⟨_, _, outcome, _⟩ <;>
      simp [Intake.add, outcome, absorbed.deferred]
  case rejected =>
    rcases weaves with ⟨_, _, _, outcome⟩ | ⟨_, _, outcome, _⟩ <;>
      simp [Intake.add, outcome, absorbed.rejected]
  case drawn =>
    intro other member
    rcases List.mem_cons.mp (encounter.held_subset other member) with here | held
    · simp [here]
    · simpa [or_assoc] using Or.inl (absorbed.drawn other held)
  case kept =>
    intro other member
    exact encounter.held_kept sound coherent other (absorbed.kept other member)
  case grown =>
    intro other woven
    exact encounter.woven_subset other (absorbed.grown other woven)
  case taken =>
    intro other member
    rcases List.mem_append.mp member with earlier | last
    · obtain ⟨twin, woven, same⟩ := absorbed.taken other earlier
      exact ⟨twin, encounter.woven_subset twin woven, same⟩
    · rw [List.mem_singleton.mp last]
      rcases weaves with ⟨twin, woven, same, _⟩ | ⟨_, _, _, woven⟩
      · exact ⟨twin, encounter.woven_subset twin woven, same⟩
      · exact ⟨atom, woven, atom.same_refl⟩

/-- Whatever part of another's sequence has been taken in from its start, all of it is woven. -/
theorem Sound.absorbed {replica : Replica σ} (sound : replica.Sound) {giver : Weave}
    (whole : giver.Sound) (coherent : Coherent (replica.held ++ giver.toList))
    (order : giver.toList = received ++ rest) :
    Absorbed replica received (replica.receiveAll received) := by
  induction received using List.reverseRecOn generalizing rest with
  | nil =>
    exact
      { sound := sound
        deferred := rfl
        rejected := rfl
        drawn := by simp [receiveAll]
        kept := by simp [receiveAll]
        grown := by simp [receiveAll]
        taken := by simp }
  | append_singleton received atom ih =>
    rw [receiveAll_concat]
    have stands : giver.toList = received ++ atom :: rest := by simpa using order
    have part : Coherent (replica.held ++ (received ++ [atom])) := by
      apply coherent.of_within (within_of_subset _)
      rw [order]
      intro other member
      rw [← List.append_assoc]
      exact List.mem_append_left _ member
    apply (ih stands).receive part
    · exact whole.apart (by simp [stands])
    · intro cause caused
      exact whole.cause_before stands caused

/-- How a replica ends that has taken in all that another has woven. -/
structure Joins (one : Replica σ) (other : Replica τ) (result : Intake × Replica σ) : Prop where
  deferred : result.1.deferred = 0
  rejected : result.1.rejected = []
  sequence : result.2.weave.toList = canonicalOrder (rootedAtoms (union one other))
  waiting : result.2.pending.atoms.Perm (unrootedAtoms (union one other))
  again : result.2.merge other = ({ duplicates := other.weave.toList.length }, result.2)
  itself : result.2.merge result.2 = ({ duplicates := result.2.weave.toList.length }, result.2)

section Merge

variable {one : Replica σ} {other : Replica τ} {third : Replica υ} (sound : one.Sound)

include sound

theorem Sound.merge_self : one.merge one = ({ duplicates := one.weave.toList.length }, one) :=
  sound.receiveAll_of_woven fun atom woven => ⟨atom, woven, atom.same_refl⟩

theorem Sound.absorbed_merge (giver : other.weave.Sound)
    (coherent : Coherent (one.held ++ other.weave.toList)) :
    Absorbed one other.weave.toList (one.merge other) :=
  sound.absorbed giver coherent (List.append_nil _).symm

theorem Sound.joins (giver : other.weave.Sound)
    (coherent : Coherent (one.held ++ other.weave.toList)) : Joins one other (one.merge other) := by
  have absorbed := sound.absorbed_merge giver coherent
  have distinct := nodup_union giver coherent sound
  have held : ∀ atom, atom ∈ (one.merge other).2.held ↔ atom ∈ union one other :=
    fun _ => absorbed.mem_held_iff giver coherent rfl
  constructor
  case deferred => exact absorbed.deferred
  case rejected => exact absorbed.rejected
  case sequence => exact absorbed.sound.sequence_eq distinct held
  case waiting => exact absorbed.sound.waiting_perm distinct held
  case again => exact absorbed.sound.receiveAll_of_woven absorbed.taken
  case itself => exact absorbed.sound.merge_self

/-- A replica on which nothing waits weaves all that it takes over. -/
theorem Sound.merge_of_empty (giver : other.weave.Sound) (empty : one.pending.atoms = [])
    (coherent : Coherent (one.weave.toList ++ other.weave.toList)) :
    (one.merge other).2.Sound ∧ (one.merge other).2.pending.atoms = [] ∧
      Delivers (one.merge other).2.weave.toList (one.weave.toList ++ other.weave.toList) := by
  have absorbed := sound.absorbed_merge giver (by simpa [held, empty] using coherent)
  exact ⟨absorbed.sound, absorbed.pending_eq_nil empty, absorbed.delivers empty⟩

variable [Observer τ] (sound' : other.Sound) (empty : one.pending.atoms = [])
  (empty' : other.pending.atoms = [])

include sound' empty empty'

theorem Sound.merge_comm (coherent : Coherent (one.weave.toList ++ other.weave.toList)) :
    SameSequence (one.merge other).2.weave.toList (other.merge one).2.weave.toList := by
  have swapped : Delivers (other.weave.toList ++ one.weave.toList)
      (one.weave.toList ++ other.weave.toList) := delivers_of_mem_iff fun atom => by simp [or_comm]
  obtain ⟨forth, _, delivers⟩ := sound.merge_of_empty sound'.weave empty coherent
  obtain ⟨back, _, delivers'⟩ :=
    sound'.merge_of_empty sound.weave empty' (coherent.of_within swapped.1)
  exact forth.weave.sameSequence back.weave (delivers.trans (delivers'.trans swapped).symm)

theorem Sound.merge_assoc (giver : third.weave.Sound)
    (coherent : Coherent (one.weave.toList ++ (other.weave.toList ++ third.weave.toList))) :
    SameSequence ((one.merge other).2.merge third).2.weave.toList
      (one.merge (other.merge third).2).2.weave.toList := by
  have start : ∀ atom ∈ one.weave.toList ++ other.weave.toList,
      atom ∈ one.weave.toList ++ (other.weave.toList ++ third.weave.toList) := by
    intro atom member
    rw [← List.append_assoc]
    exact List.mem_append_left _ member
  obtain ⟨first, cleared, delivers⟩ :=
    sound.merge_of_empty sound'.weave empty (coherent.of_within (within_of_subset start))
  obtain ⟨last, _, delivers'⟩ := sound'.merge_of_empty giver empty'
    (coherent.of_within (within_of_subset fun _ => List.mem_append_right _))
  have left := delivers.append (Delivers.refl third.weave.toList)
  have right := (Delivers.refl one.weave.toList).append delivers'
  rw [List.append_assoc] at left
  obtain ⟨whole, _, gathered⟩ := first.merge_of_empty giver cleared (coherent.of_within left.1)
  obtain ⟨whole', _, gathered'⟩ := sound.merge_of_empty last.weave empty (coherent.of_within right.1)
  exact whole.weave.sameSequence whole'.weave
    ((gathered.trans left).trans (gathered'.trans right).symm)

end Merge

/-- Taking in all that another replica has woven defers and refuses nothing and leads to the union of
both, and a second time it changes nothing. Where no atoms wait, the sequence that results depends
neither on which of two replicas takes over from the other nor on how three are grouped. -/
theorem Reachable.merge_joins [Observer τ] [Observer υ] {one : Replica σ} {other : Replica τ}
    (reachable : one.Reachable) (reachable' : other.Reachable)
    (coherent : Coherent (one.held ++ other.weave.toList)) (third : Replica υ) :
    Joins one other (one.merge other) ∧
      one.merge one = ({ duplicates := one.weave.toList.length }, one) ∧
      (one.pending.size = 0 → other.pending.size = 0 →
        SameSequence (one.merge other).2.weave.toList (other.merge one).2.weave.toList ∧
          (third.Reachable →
            Coherent (one.weave.toList ++ (other.weave.toList ++ third.weave.toList)) →
              SameSequence ((one.merge other).2.merge third).2.weave.toList
                (one.merge (other.merge third).2).2.weave.toList)) := by
  have sound := reachable.sound
  have sound' := reachable'.sound
  refine ⟨sound.joins sound'.weave coherent, sound.merge_self, ?_⟩
  intro empty empty'
  have none_waits := sound.pending.atoms_eq_nil empty
  have none_waits' := sound'.pending.atoms_eq_nil empty'
  constructor
  · apply sound.merge_comm sound' none_waits none_waits'
    simpa [held, none_waits] using coherent
  · intro reachable'' coherent
    exact sound.merge_assoc sound' none_waits none_waits' reachable''.sound.weave coherent

/-- Three roots on three replicas, the first of which holds back a child of the second one's. -/
theorem merge_joins_belated :
    let root : Atom := { id := { site := ⟨"a"⟩, timestamp := 1 } }
    let child : Atom := { id := { site := ⟨"b"⟩, timestamp := 2 }, cause := some root.id }
    let aside : Atom := { id := { site := ⟨"c"⟩, timestamp := 1 } }
    let apart : Atom := { id := { site := ⟨"d"⟩, timestamp := 1 } }
    let one := after ⟨"x"⟩ { pendingLimit := 1 } () [.receive child, .receive apart]
    let other := after ⟨"y"⟩ .unbounded () [.receive root]
    let third := after ⟨"z"⟩ .unbounded () [.receive aside]
    Joins one other (one.merge other) ∧
      SameSequence (other.merge third).2.weave.toList (third.merge other).2.weave.toList ∧
      SameSequence ((other.merge third).2.merge one).2.weave.toList
        (other.merge (third.merge one).2).2.weave.toList := by
  intro root child aside apart one other third
  have reachable : one.Reachable := ⟨_, _, _, _, rfl⟩
  have reachable' : other.Reachable := ⟨_, _, _, _, rfl⟩
  have reachable'' : third.Reachable := ⟨_, _, _, _, rfl⟩
  have drawn : ∀ atom ∈ one.held, atom ∈ [child, apart] := mem_of_held_after _ _ _ [child, apart]
  have drawn' : ∀ atom ∈ other.held, atom ∈ [root] := mem_of_held_after _ _ _ [root]
  have drawn'' : ∀ atom ∈ third.held, atom ∈ [aside] := mem_of_held_after _ _ _ [aside]
  clear_value one other third
  have unique : (([root] ++ ([aside] ++ [child, apart])).map (·.id.key)).Nodup := by decide
  have coherent : Coherent (other.held ++ (third.held ++ one.held)) :=
    (coherent_of_unique unique).of_within
      ((within_of_subset drawn').append ((within_of_subset drawn'').append (within_of_subset drawn)))
  have part : ∀ {atoms : List Atom}, (∀ atom ∈ atoms, atom ∈ other.held ∨ atom ∈ third.held ∨
      atom ∈ one.held) → Coherent atoms := by
    intro atoms subset
    apply coherent.of_within (within_of_subset _)
    simpa using subset
  have clear' : other.pending.size = 0 := by
    apply reachable'.sound.size_eq_zero
    intro atom held
    rw [List.mem_singleton.mp (drawn' atom held)]
  have clear'' : third.pending.size = 0 := by
    apply reachable''.sound.size_eq_zero
    intro atom held
    rw [List.mem_singleton.mp (drawn'' atom held)]
  have joins := (reachable.merge_joins reachable' (part (by grind [held])) third).1
  obtain ⟨_, _, laws⟩ := reachable'.merge_joins reachable'' (part (by grind [held])) one
  obtain ⟨comm, assoc⟩ := laws clear' clear''
  exact ⟨joins, comm, assoc reachable (part (by grind [held]))⟩

end Replica
end CausalWeave
