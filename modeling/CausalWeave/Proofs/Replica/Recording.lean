import CausalWeave.Proofs.Replica.Reception

namespace CausalWeave.Replica

/-- The ids noted before and those recorded since then name every woven atom once. -/
def Recorded (noted : List AtomId) (replica : Replica Recorder) : Prop :=
  (noted ++ replica.observer.insertions.toList.map (·.atomId)).Perm
    (replica.weave.toList.map (·.id))

theorem toList_foldl_notice (recorder : Recorder) (landings : List (Atom × Nat)) :
    (landings.foldl (fun recorder landing => Observer.notice recorder (landing.1.placedAt landing.2))
        recorder).insertions.toList =
      recorder.insertions.toList ++ landings.map fun landing => landing.1.placedAt landing.2 := by
  induction landings generalizing recorder with
  | nil => simp
  | cons landing rest ih => simp [ih]

theorem Encounter.recorded {replica : Replica Recorder} (recorded : replica.Recorded noted)
    (encounter : replica.Encounter atom result) : result.2.Recorded noted := by
  obtain ⟨landings, grown, observed⟩ := encounter.grows
  rw [Recorded, observed, toList_foldl_notice, List.map_append, ← List.append_assoc]
  apply (recorded.append_right _).trans
  simpa [Function.comp_def, Atom.placedAt] using (grown.perm.map (·.id)).symm

end CausalWeave.Replica
