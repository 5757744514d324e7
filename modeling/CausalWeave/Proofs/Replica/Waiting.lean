import CausalWeave.Proofs.Replica.Reachable

namespace CausalWeave.Replica

/-- A sound replica whose waiting atoms form no cycle and are no more than may wait. -/
structure Orderly (replica : Replica σ) : Prop where
  sound : replica.Sound
  acyclic : Acyclic replica.pending.atoms
  bounded : ∀ limit ∈ replica.pending.limit, replica.pending.atoms.length ≤ limit

/-- The causes of waiting atoms lead from an atom to an id that has not arrived. -/
structure WaitsFor (replica : Replica σ) (atom : Atom) (missing : AtomId) : Prop where
  awaits : Awaits replica.pending.atoms atom missing
  unwoven : replica.weave.contains missing = false
  unheld : replica.pending.contains missing = false

theorem orderly_fresh (site : Site) (config : Replica.Config) (observer : σ) :
    (fresh site config observer).Orderly where
  sound := sound_fresh site config observer
  acyclic := by simpa [fresh, PendingBuffer.atoms] using acyclic_nil
  bounded := by simp [fresh, PendingBuffer.atoms]

variable {replica : Replica σ} {atom : Atom}

namespace Orderly

variable (orderly : replica.Orderly)

include orderly

/-- A replica stays orderly when atoms leave its buffer. -/
theorem of_remaining {later : Replica σ} (sound : later.Sound)
    (limit : later.pending.limit = replica.pending.limit)
    (remaining : later.pending.atoms.Subperm replica.pending.atoms) : later.Orderly where
  sound
  acyclic := orderly.acyclic.subset fun _ member => remaining.subset member
  bounded count bound := remaining.length_le.trans (orderly.bounded count (limit ▸ bound))

/-- A replica stays orderly when it holds back an atom that does not wait for itself and for which
there is room. -/
theorem of_pushed {later : Replica σ} (sound : later.Sound)
    (pushed : later.pending = replica.pending.push cause atom) (caused : atom.cause = some cause)
    (apart : cause ≠ atom.id) (onward : replica.pending.leadsTo cause atom.id = false)
    (room : ∀ limit ∈ replica.pending.limit, replica.pending.size < limit) : later.Orderly := by
  have held := replica.pending.atoms_push_perm cause atom
  constructor
  case sound => exact sound
  case acyclic =>
    rw [pushed]
    have closed : Acyclic (atom :: replica.pending.atoms) := by
      apply orderly.acyclic.cons caused apart
      rw [← orderly.sound.pending.leadsTo_iff orderly.acyclic, onward]
      simp
    exact closed.subset fun other => held.mem_iff.mp
  case bounded =>
    intro limit bound
    rw [pushed] at bound ⊢
    have before := room limit bound
    rw [orderly.sound.pending.size_eq] at before
    rw [held.length_eq, List.length_cons]
    omega

theorem exists_waitsFor (member : atom ∈ replica.pending.atoms) :
    ∃ missing, replica.WaitsFor atom missing := by
  have pending := orderly.sound.pending
  obtain ⟨missing, awaits⟩ :=
    orderly.acyclic.exists_awaits (fun _ => pending.exists_cause) member
  obtain ⟨last, present, caused⟩ := awaits.exists_caused member
  refine ⟨missing, awaits, orderly.sound.absent last present missing caused, ?_⟩
  rw [← Bool.not_eq_true, pending.contains_iff]
  rintro ⟨other, held, same⟩
  exact awaits.absent other held same

end Orderly

variable [Observer σ]

theorem Encounter.orderly (encounter : replica.Encounter atom result) (orderly : replica.Orderly) :
    result.2.Orderly := by
  have sound := encounter.sound orderly.sound
  cases encounter with
  | deferred cause caused apart _ _ onward room =>
    exact orderly.of_pushed sound rfl caused apart onward room
  | woven _ _ _ _ _ _ _ ledger cascade accounts _ =>
    have remaining : cascade.buffer.atoms.Subperm replica.pending.atoms := by
      apply List.Subperm.trans _ accounts.accounted.symm.subperm
      simp only [← List.append_assoc]
      exact (List.sublist_append_right _ _).subperm
    exact orderly.of_remaining sound accounts.limit remaining
  | _ => exact orderly.of_remaining sound rfl (.refl _)

theorem stable_orderly : Stable (fun replica : Replica σ => replica.Orderly) where
  tick := by
    intro replica timestamp orderly later
    exact orderly.of_remaining (orderly.sound.ticked later) rfl (.refl _)
  receive := by
    intro replica atom orderly
    exact (orderly.sound.encounter atom).orderly orderly

theorem Reachable.orderly (reachable : replica.Reachable) : replica.Orderly :=
  reachable.of_stable stable_orderly orderly_fresh

/-- No more atoms wait than may, none of them for an atom that is woven, and the causes lead from each
to exactly one id, which has not arrived. -/
theorem Reachable.waits (reachable : replica.Reachable) :
    replica.pending.size = replica.pending.atoms.length ∧
      (∀ limit ∈ replica.config.bound, replica.pending.size ≤ limit) ∧
      ∀ atom ∈ replica.pending.atoms,
        (∃ cause, atom.cause = some cause ∧ replica.weave.contains cause = false) ∧
          ∃ missing, replica.WaitsFor atom missing ∧
            ∀ other, Awaits replica.pending.atoms atom other → other = missing := by
  have orderly := reachable.orderly
  have sound := orderly.sound
  refine ⟨sound.pending.size_eq, ?_, ?_⟩
  · intro limit bound
    rw [sound.pending.size_eq]
    exact orderly.bounded limit (sound.limit ▸ bound)
  · intro atom member
    obtain ⟨cause, caused⟩ := sound.pending.exists_cause member
    obtain ⟨missing, waits⟩ := orderly.exists_waitsFor member
    refine ⟨⟨cause, caused, sound.absent atom member cause caused⟩, missing, waits, ?_⟩
    intro other also
    exact waits.awaits.unique sound.pending.distinct also

/-- An atom waits behind another one for a third that has not arrived, on a replica on which no more
than these two may wait. -/
theorem waits_in_chain :
    let root : AtomId := { site := ⟨"a"⟩, timestamp := 1 }
    let child : Atom := { id := { site := ⟨"b"⟩, timestamp := 2 }, cause := some root }
    let grandchild : Atom := { id := { site := ⟨"c"⟩, timestamp := 3 }, cause := some child.id }
    let replica := after ⟨"x"⟩ { pendingLimit := 2 } () [.receive grandchild, .receive child]
    replica.pending.size ≤ 2 ∧ replica.WaitsFor grandchild root := by
  intro root child grandchild replica
  have reachable : replica.Reachable := ⟨_, _, _, _, rfl⟩
  have buckets : replica.pending.bucket child.id = [grandchild] ∧
      replica.pending.bucket root = [child] := by
    simp [replica, root, child, grandchild, after, perform, receive, fresh, Replica.Config.bound,
      Weave.insertObserved, Weave.insert, Weave.holder?, Weave.siblings?, Weave.locate?,
      Weave.handle?, PendingBuffer.hold, PendingBuffer.contains, PendingBuffer.leadsTo,
      PendingBuffer.reaches, PendingBuffer.push, PendingBuffer.bucket, Option.filter,
      Std.HashMap.getD_insert]
  have first : grandchild ∈ replica.pending.atoms :=
    PendingBuffer.mem_atoms.mpr ⟨child.id, by simp [buckets]⟩
  have second : child ∈ replica.pending.atoms :=
    PendingBuffer.mem_atoms.mpr ⟨root, by simp [buckets]⟩
  have absent : ∀ other ∈ replica.pending.atoms, other.id ≠ root := by
    intro other member
    have drawn := mem_of_held_after ⟨"x"⟩ { pendingLimit := 2 } () [grandchild, child] other
      (List.mem_append_right _ member)
    simp only [List.mem_cons, List.not_mem_nil, or_false] at drawn
    rcases drawn with rfl | rfl <;> decide
  obtain ⟨_, bounded, waits⟩ := reachable.waits
  obtain ⟨_, missing, waits, only⟩ := waits grandchild first
  have same := only root (.behind rfl second (.directly rfl absent))
  exact ⟨bounded 2 (by simp [replica, config_after, Replica.Config.bound]), same ▸ waits⟩

end CausalWeave.Replica
