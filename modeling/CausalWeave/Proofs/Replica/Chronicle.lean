import CausalWeave.Proofs.Replica.Reachable

namespace CausalWeave

/-- A property of a weave and its observer that no insertion ends. -/
structure KeptByInsertion [Observer σ] (holds : Weave → σ → Prop) : Prop where
  insert : ∀ {weave observer atom placement later told}, holds weave observer →
    weave.insertObserved observer atom = .ok (placement, later, told) → holds later told

namespace KeptByInsertion

variable [Observer σ] {holds : Weave → σ → Prop} (kept : KeptByInsertion holds)
  {cascade : Cascade σ} (start : holds cascade.weave cascade.observer)

include kept

section Cascade

include start

theorem settle (atom : Atom) : holds (cascade.settle atom).weave (cascade.settle atom).observer := by
  unfold Cascade.settle
  split
  · exact start
  · split
    · exact start
    · rename_i inserted
      exact kept.insert start inserted
    · exact start

theorem foldl_settle (atoms : List Atom) :
    holds (atoms.foldl Cascade.settle cascade).weave (atoms.foldl Cascade.settle cascade).observer := by
  induction atoms generalizing cascade with
  | nil => exact start
  | cons atom rest ih => exact ih (kept.settle start atom)

theorem run : holds cascade.run.weave cascade.run.observer := by
  let along (cascade : Cascade σ) := holds cascade.weave cascade.observer
  suffices ended : along cascade.run ∧ cascade.run.woken = [] from ended.1
  apply Cascade.run_induction start
  intro cascade cause others _ before
  let taken : Cascade σ :=
    { cascade with buffer := (cascade.buffer.take cause).2, woken := others }
  exact kept.foldl_settle (show holds taken.weave taken.observer from before) _

end Cascade

theorem stable : Replica.Stable fun replica : Replica σ => holds replica.weave replica.observer where
  tick start _ := start
  receive := by
    intro replica atom start
    unfold Replica.receive
    split
    · exact start
    · rename_i inserted
      exact kept.run (kept.insert start inserted)
    · exact start
    · split
      · exact start
      · exact start
      · exact start

end KeptByInsertion

/-- The ids name every woven atom once, each after its cause. -/
structure Weave.Chronicled (weave : Weave) (ids : List AtomId) : Prop where
  sound : weave.Sound
  named : ids.Perm (weave.toList.map (·.id))
  causal : ∀ atom ∈ weave.toList, ∀ cause ∈ atom.cause, [cause, atom.id].Sublist ids

namespace Weave.Chronicled

variable {weave : Weave} {ids : List AtomId}

theorem nodup (chronicled : weave.Chronicled ids) : ids.Nodup :=
  chronicled.named.nodup_iff.mpr chronicled.sound.nodup_ids

theorem mem_iff (chronicled : weave.Chronicled ids) {id : AtomId} :
    id ∈ ids ↔ weave.contains id = true := by
  rw [chronicled.named.mem_iff, chronicled.sound.contains_iff, List.mem_map]

/-- A new atom is named last, when its cause has been named. -/
theorem place (chronicled : weave.Chronicled ids) {atom : Atom}
    (causal : ∀ cause ∈ atom.cause, weave.contains cause = true) {later : Weave} (sound : later.Sound)
    {before after : List Atom} (order : weave.toList = before ++ after)
    (placed : later.toList = before ++ atom :: after) : later.Chronicled (ids ++ [atom.id]) := by
  have grown : later.toList.Perm (atom :: weave.toList) := by
    rw [placed, order]
    exact List.perm_middle
  refine ⟨sound, ?named, ?causal⟩
  case named =>
    have named := grown.map (·.id)
    exact (List.perm_append_singleton _ _).trans ((chronicled.named.cons _).trans named.symm)
  case causal =>
    intro other member cause caused
    rcases List.mem_cons.mp (grown.mem_iff.mp member) with rfl | old
    · have named : cause ∈ ids := chronicled.mem_iff.mpr (causal cause caused)
      exact (List.singleton_sublist.mpr named).append (.refl [other.id])
    · exact (chronicled.causal other old cause caused).trans (List.sublist_append_left _ _)

end Weave.Chronicled

/-- What was noted before and what the recorder has heard since make up a chronicle. -/
theorem keptByInsertion_chronicled (noted : List AtomId) :
    KeptByInsertion fun weave (recorder : Recorder) =>
      weave.Chronicled (noted ++ recorder.insertions.toList.map (·.atomId)) := by
  constructor
  intro weave recorder atom placement later told chronicled inserted
  have attempt := chronicled.sound.attempt atom
  simp only [Weave.insertObserved] at inserted
  generalize weave.insert atom = result at attempt inserted
  cases attempt with
  | selfCausation => simp at inserted
  | identityCollision => simp at inserted
  | alreadyPresent =>
    simp only [Except.ok.injEq, Prod.mk.injEq] at inserted
    obtain ⟨_, rfl, rfl⟩ := inserted
    exact chronicled
  | causeMissing =>
    simp only [Except.ok.injEq, Prod.mk.injEq] at inserted
    obtain ⟨_, rfl, rfl⟩ := inserted
    exact chronicled
  | inserted _ _ causal _ sound before after order placed =>
    simp only [Except.ok.injEq, Prod.mk.injEq] at inserted
    obtain ⟨_, rfl, rfl⟩ := inserted
    rw [Recorder.toList_notice, List.map_append, ← List.append_assoc]
    exact chronicled.place causal sound order placed

end CausalWeave
