import CausalWeave.Proofs.Replica.Collision
import CausalWeave.Proofs.Replica.Freshness

namespace CausalWeave.Replica

/-- The replica has another clock and is otherwise as it was, to the last bucket of its buffer. -/
def SameButClock (replica later : Replica σ) : Prop :=
  later = { replica with clock := later.clock }

/-- The clock has heard of every atom that is held. -/
theorem Sound.hearing_eq_self {replica : Replica σ} (sound : replica.Sound) {atom other : Atom}
    (held : other ∈ replica.held) (id : other.id = atom.id) : replica.hearing atom = replica := by
  have heard := sound.heard other held
  rw [id] at heard
  rw [hearing, LamportClock.observe_eq_self heard]

variable [Observer σ] {replica : Replica σ} {atom : Atom}

/-- Another delivery of a waiting atom changes nothing, unless some atom has been woven under its key. -/
theorem Sound.receive_of_waiting (sound : replica.Sound) {other : Atom}
    (waiting : other ∈ replica.pending.atoms) (same : other.same atom = true)
    (unwoven : ∀ woven ∈ replica.weave.toList, woven.id.key ≠ atom.id.key) :
    replica.receive atom = (.ok .duplicate, replica) := by
  have id := Atom.id_eq_of_same same
  have cause := Atom.cause_eq_of_same same
  have still := sound.hearing_eq_self (List.mem_append_right _ waiting) id
  have apart : atom.cause ≠ some atom.id := by
    rw [← cause, ← id]
    exact sound.pending.apart other waiting
  have ruling := sound.ruling apart
  generalize replica.receive atom = result at ruling
  cases ruling with
  | taken third woven key => exact absurd key (unwoven third woven)
  | ready _ causal =>
    obtain ⟨named, caused⟩ := sound.pending.exists_cause waiting
    have missing := sound.absent other waiting named caused
    simp [causal named (cause.symm.trans caused)] at missing
  | missing =>
    have answer := sound.pending.answer atom
    generalize replica.pending.hold atom = answered at answer
    cases answer with
    | root uncaused =>
      obtain ⟨named, caused⟩ := sound.pending.exists_cause waiting
      simp [← cause, caused] at uncaused
    | selfCausation circular => exact absurd circular apart
    | alreadyHeld => rw [leftToBuffer, still]
    | identityCollision third held id' different =>
      have equal := sound.pending.eq_of_id held waiting (id'.trans id.symm)
      simp [equal, same] at different
    | causalCycle _ _ fresh => exact absurd id (fresh other waiting)
    | full _ _ fresh => exact absurd id (fresh other waiting)
    | held _ _ _ fresh => exact absurd id (fresh other waiting)

theorem receive_of_selfCausation (replica : Replica σ) (circular : atom.cause = some atom.id) :
    replica.receive atom = (.error (.selfCausation atom.id), replica.hearing atom) := by
  simp [receive, Weave.insertObserved, Weave.insert, circular, hearing]

theorem Encounter.ne_clockExhausted (encounter : replica.Encounter atom result) (site : Site) :
    result.1 ≠ .error (.clockExhausted site) := by
  cases encounter <;> simp

/-- A failed creation answers that no timestamp is left and changes nothing, or it answers anything else and
has used up one timestamp. -/
inductive Unmade (replica : Replica σ) : Refusal → Replica σ → Prop where
  | exhausted : Unmade replica (.clockExhausted replica.site) replica
  | refused (later : Replica σ) (still : replica.SameButClock later)
      (next : later.clock.latest.toNat = replica.clock.latest.toNat + 1)
      (other : ∀ site, why ≠ .clockExhausted site) : Unmade replica why later

omit [Observer σ] in
/-- A creation fails if the new atom is refused or is taken for a repeated one. -/
theorem idle_of_creation_eq_error {outcome : Except Refusal Reception}
    (failed : creation atom outcome = .error why) :
    outcome = .ok .duplicate ∧ why = .identityCollision atom.id ∨ outcome = .error why := by
  unfold creation at failed
  split at failed <;> simp_all

theorem Sound.unmade (sound : replica.Sound) {cause : Option AtomId} {payload : Payload}
    {priority : Int32} (failed : (replica.create cause payload priority).1 = .error why) :
    replica.Unmade why (replica.create cause payload priority).2 := by
  cases tick : replica.clock.tick with
  | none =>
    rw [create_eq_of_exhausted tick, Except.error.injEq] at failed
    rw [create_eq_of_exhausted tick, ← failed]
    exact .exhausted
  | some next =>
    obtain ⟨timestamp, clock⟩ := next
    have ticked := sound.ticked (LamportClock.lt_of_tick tick).1
    have encounter := ticked.encounter (replica.authored timestamp cause payload priority)
    rw [create_of_tick tick] at failed ⊢
    generalize (replica.ticked timestamp).receive (replica.authored timestamp cause payload priority) =
      result at encounter failed
    have idle := idle_of_creation_eq_error failed
    have still : result.2 = replica.ticked timestamp := by
      rw [encounter.eq_hearing (idle.imp And.left (Exists.intro why))]
      have heard : (replica.ticked timestamp).clock.observe timestamp = { latest := timestamp } :=
        LamportClock.observe_eq_self (UInt64.le_refl timestamp)
      simp only [hearing, authored, heard]
      rfl
    rw [still]
    refine .refused _ rfl (LamportClock.toNat_of_tick tick).1 ?_
    intro site exhausted
    rcases idle with ⟨_, collision⟩ | refused
    · simp [exhausted] at collision
    · exact encounter.ne_clockExhausted site (exhausted ▸ refused)

/-- A delivery that is refused or repeated leaves all but the clock, which hears of the atom as always. A
delivery is a repeated one, and changes nothing at all, if the content of its atom is woven or if it waits and
the key of the atom is not woven. A creation that fails leaves all but the clock, which has ticked once unless
it was exhausted. -/
theorem Reachable.still (reachable : replica.Reachable) :
    (∀ atom, ((replica.receive atom).1 = .ok .duplicate ∨ ∃ why, (replica.receive atom).1 = .error why) →
      (replica.receive atom).2 =
        { replica with clock := { latest := max replica.clock.latest atom.id.timestamp } }) ∧
    (∀ atom other : Atom, other.same atom = true →
      (other ∈ replica.weave.toList ∨ other ∈ replica.pending.atoms ∧
        ∀ woven ∈ replica.weave.toList, woven.id.key ≠ atom.id.key) →
      replica.receive atom = (.ok .duplicate, replica)) ∧
    ∀ cause payload priority why, (replica.create cause payload priority).1 = .error why →
      replica.Unmade why (replica.create cause payload priority).2 := by
  have sound := reachable.sound
  refine ⟨?_, ?_, ?_⟩
  · intro atom idle
    exact (sound.encounter atom).eq_hearing idle
  · rintro atom other same (woven | ⟨waiting, unwoven⟩)
    · exact sound.receive_of_woven woven same
    · exact sound.receive_of_waiting waiting same unwoven
  · intro cause payload priority why failed
    exact sound.unmade failed

/-- A replica on which one atom waits takes no notice of a copy of it. Of one that is twisted, and of an atom
of its own that is to be its own cause, it notices only the timestamps. -/
theorem still_while_waiting :
    let orphan : Atom :=
      { id := { site := ⟨"a"⟩, timestamp := 1 }, cause := some { site := ⟨"m"⟩, timestamp := 1 } }
    let twisted : Atom :=
      { id := { site := ⟨"a"⟩, timestamp := 1 }, cause := some { site := ⟨"n"⟩, timestamp := 1 } }
    let own : AtomId := { site := ⟨"x"⟩, timestamp := 2 }
    let replica := after ⟨"x"⟩ {} () [.receive orphan]
    replica.Reachable ∧ orphan ∈ replica.pending.atoms ∧
      replica.receive orphan = (.ok .duplicate, replica) ∧
      (replica.receive twisted).1 = .error (.identityCollision twisted.id) ∧
      (replica.receive twisted).2 =
        { replica with clock := { latest := max replica.clock.latest 1 } } ∧
      (replica.create (some own) .empty 0).1 = .error (.selfCausation own) ∧
      (replica.create (some own) .empty 0).2.clock.latest.toNat = replica.clock.latest.toNat + 1 := by
  intro orphan twisted own replica
  have reachable : replica.Reachable := ⟨_, _, _, _, rfl⟩
  have sound := reachable.sound
  have caused : orphan.cause = some { site := ⟨"m"⟩, timestamp := 1 } := rfl
  obtain ⟨_, bare, held⟩ : _ ∧ replica.weave = {} ∧ replica.pending.atoms = [orphan] :=
    after_orphan ⟨"x"⟩ {} () caused (by decide)
  have waiting : orphan ∈ replica.pending.atoms := by simp [held]
  have clock : replica.clock = { latest := 1 } := clock_receive _ orphan
  have site : replica.site = ⟨"x"⟩ := ((sound_fresh ⟨"x"⟩ {} ()).encounter orphan).site
  have refused : (replica.receive twisted).1 = .error (.identityCollision twisted.id) := by
    apply (sound.collision_iff (by decide)).mpr
    exact .waiting (by simp [bare]) { site := ⟨"n"⟩, timestamp := 1 } rfl (by simp [bare]) orphan waiting
      rfl (by decide)
  have failed : (replica.create (some own) .empty 0).1 = .error (.selfCausation own) := by
    have tick : replica.clock.tick = some (2, { latest := 2 }) := by
      rw [clock]
      rfl
    have authored : replica.authored 2 (some own) .empty 0 = { id := own, cause := some own } := by
      rw [authored, site]
    rw [create_of_tick tick, authored, receive_of_selfCausation _ rfl]
    rfl
  obtain ⟨idle, copies, failing⟩ := Reachable.still reachable
  refine ⟨reachable, waiting, copies orphan orphan orphan.same_refl (.inr ⟨waiting, by simp [bare]⟩),
    refused, idle twisted (.inr ⟨_, refused⟩), failed, ?_⟩
  cases failing (some own) .empty 0 _ failed with
  | refused _ _ next => exact next

end CausalWeave.Replica
