import CausalWeave.Proofs.CanonicalOrder
import CausalWeave.Proofs.Simulation.Exchange

namespace CausalWeave.Simulation

namespace Sound

variable {count : Nat} {earlier : List Atom} {simulation : Simulation}

section Complete

variable (sound : Sound count earlier simulation) {number : Nat} {participant : Participant}
  (present : simulation.participants[number]? = some participant)
  (complete : simulation.Complete earlier number)

include sound present complete

theorem mem_sequence_iff {atom : Atom} :
    atom ∈ participant.sequence ↔ atom ∈ simulation.authored earlier := by
  constructor
  · exact (sound.participants number participant present).partakes.woven
  · intro member
    obtain ⟨other, here, woven⟩ := complete atom member
    rw [present, Option.some.injEq] at here
    exact here ▸ woven

theorem sequence_perm : participant.sequence.Perm (simulation.authored earlier) := by
  have weave := (sound.participants number participant present).partakes.sound.weave
  apply (List.perm_ext_iff_of_nodup weave.nodup_ids.of_map sound.history.unique.of_map).mpr
  intro atom
  exact sound.mem_sequence_iff present complete

theorem sequence_eq_canonicalOrder :
    participant.sequence = canonicalOrder (simulation.authored earlier) := by
  have weave := (sound.participants number participant present).partakes.sound.weave
  rw [Participant.sequence, ← weave.canonicalOrder_toList]
  apply canonicalOrder_congr weave.nodup_ids (nodup_ids_of_keys sound.history.unique)
  intro atom
  exact sound.mem_sequence_iff present complete

/-- Nothing waits, since every cause is an authored atom and thus woven. -/
theorem pending_size_eq_zero : participant.replica.pending.size = 0 := by
  have holds := (sound.participants number participant present).partakes
  have empty : participant.replica.pending.atoms = [] := by
    apply List.eq_nil_iff_forall_not_mem.mpr
    intro atom waiting
    obtain ⟨cause, caused⟩ := holds.sound.pending.exists_cause waiting
    obtain ⟨parent, member, same, _⟩ :=
      sound.history.parent (holds.drawn atom (List.mem_append_right _ waiting)) caused
    have woven : participant.replica.weave.contains cause = true :=
      holds.sound.weave.contains_iff.mpr
        ⟨parent, (sound.mem_sequence_iff present complete).mpr member, same⟩
    simp [holds.sound.absent atom waiting cause caused] at woven
  rw [holds.sound.pending.size_eq, empty, List.length_nil]

end Complete

end Sound

def exchangeStart (simulation : Simulation) : Simulation :=
  ((List.range simulation.config.rounds).foldl playRound simulation).handOverRest
    simulation.config.rounds

/-- The final exchange of a run up to some of its pairs. -/
def exchangedBefore (simulation : Simulation) (pairs : List (Nat × Nat)) : Simulation :=
  simulation.exchangeStart.exchanges simulation.config.rounds pairs

/-- How a run ends after which some atoms were authored in all. -/
structure Agrees (count : Nat) (atoms : List Atom) (outcome : Outcome) : Prop where
  history : History atoms
  converged : outcome.convergence.converged = true
  divergent : outcome.convergence.divergent = []
  states : outcome.states.length = count
  sequences : ∀ state ∈ outcome.states,
    state.sequence = canonicalOrder atoms ∧ state.sequence.Perm atoms
  digests : ∀ state ∈ outcome.states,
    state.digest = digestOfIds ((canonicalOrder atoms).map (·.id))
  drained : ∀ state ∈ outcome.states, state.pending = 0
  length : outcome.convergence.canonicalLength = atoms.length
  central : ∀ step ∈ outcome.trace, ∀ sender receiver woven,
    step.event = .sync sender receiver woven → 1 ≤ receiver → sender = 0

theorem converged_ofSnapshots {states : List Snapshot} {digest : String}
    (same : ∀ state ∈ states, state.digest = digest) :
    (Convergence.ofSnapshots states).converged = true ∧
      (Convergence.ofSnapshots states).divergent = [] := by
  cases states with
  | nil => exact ⟨rfl, rfl⟩
  | cons first others =>
    have none_apart : (first :: others).filter (·.digest != first.digest) = [] := by
      rw [List.filter_eq_nil_iff]
      intro state member
      simp [same state member, same first (by simp)]
    simp only [Convergence.ofSnapshots, none_apart, List.map_nil, List.isEmpty_nil]
    exact ⟨trivial, trivial⟩

theorem canonicalLength_ofSnapshots {states : List Snapshot} {length : Nat}
    (some_state : states ≠ []) (same : ∀ state ∈ states, state.sequence.length = length) :
    (Convergence.ofSnapshots states).canonicalLength = length := by
  cases states with
  | nil => exact absurd rfl some_state
  | cons first others => exact same first (by simp)

namespace Sound

variable {count : Nat} {earlier : List Atom} {simulation : Simulation}

theorem exchangeStart (sound : Sound count earlier simulation) :
    Sound count earlier simulation.exchangeStart :=
  (sound.playRounds _).handOverRest _

/-- No pair of the final exchange has its receiver defer or refuse an atom. -/
theorem exchangedBefore_intake (sound : Sound count earlier simulation)
    {before after : List (Nat × Nat)} {receiver sender : Nat}
    (order : exchangePairs count = before ++ (receiver, sender) :: after) :
    ∃ giver taker : Participant,
      (simulation.exchangedBefore before).participants[sender]? = some giver ∧
        (simulation.exchangedBefore before).participants[receiver]? = some taker ∧
        (taker.receiveAll giver.sequence).1.deferred = 0 ∧
        (taker.receiveAll giver.sequence).1.rejected = [] := by
  have now := (sound.exchangeStart.exchanges simulation.config.rounds order).advances.sound
  have member : (receiver, sender) ∈ exchangePairs count := by simp [order]
  obtain ⟨takes, gives, _⟩ := mem_exchangePairs.mp member
  rw [← now.size] at takes gives
  have giver := Array.getElem?_eq_getElem gives
  have taker := Array.getElem?_eq_getElem takes
  exact ⟨_, _, giver, taker, now.exchange_intake giver taker⟩

theorem run_eq (sound : Sound count earlier simulation) :
    simulation.run =
      (let final := simulation.exchangedBefore (exchangePairs count)
      let states := final.participants.toList.map (·.snapshot)
      ({ trace := final.trace.toList
         states
         convergence := Convergence.ofSnapshots states
         interesting := final.interesting },
        { final with trace := #[] })) := by
  rw [Simulation.run, finalExchange, (sound.playRounds _).size]
  rfl

/-- A complete simulation shows the agreement of its participants. -/
theorem agrees (sound : Sound count earlier simulation) (inhabited : 0 < count)
    (complete : ∀ number, number < count → simulation.Complete earlier number) :
    let states := simulation.participants.toList.map (·.snapshot)
    Agrees count (simulation.authored earlier)
      { trace := simulation.trace.toList
        states
        convergence := Convergence.ofSnapshots states
        interesting := simulation.interesting } := by
  intro states
  have size : states.length = count := by simp [states, sound.size]
  have snapshots : ∀ state ∈ states, ∃ number participant,
      simulation.participants[number]? = some participant ∧
        simulation.Complete earlier number ∧ state = participant.snapshot := by
    intro state member
    obtain ⟨participant, present, rfl⟩ := List.mem_map.mp member
    obtain ⟨number, found⟩ := Array.mem_iff_getElem?.mp (Array.mem_toList_iff.mp present)
    have inside := (Array.getElem?_eq_some_iff.mp found).1
    rw [sound.size] at inside
    exact ⟨number, participant, found, complete number inside, rfl⟩
  have digests : ∀ state ∈ states,
      state.digest = digestOfIds ((canonicalOrder (simulation.authored earlier)).map (·.id)) := by
    intro state member
    obtain ⟨number, participant, present, whole, rfl⟩ := snapshots state member
    rw [← sound.sequence_eq_canonicalOrder present whole]
    rfl
  have lengths : ∀ state ∈ states,
      state.sequence.length = (simulation.authored earlier).length := by
    intro state member
    obtain ⟨number, participant, present, whole, rfl⟩ := snapshots state member
    exact (sound.sequence_perm present whole).length_eq
  obtain ⟨converged, divergent⟩ := converged_ofSnapshots digests
  refine
    { history := sound.history
      converged
      divergent
      states := size
      sequences := ?sequences
      digests
      drained := ?drained
      length := canonicalLength_ofSnapshots (List.ne_nil_of_length_pos (size ▸ inhabited)) lengths
      central := ?central }
  case sequences =>
    intro state member
    obtain ⟨number, participant, present, whole, rfl⟩ := snapshots state member
    exact ⟨sound.sequence_eq_canonicalOrder present whole, sound.sequence_perm present whole⟩
  case drained =>
    intro state member
    obtain ⟨number, participant, present, whole, rfl⟩ := snapshots state member
    exact sound.pending_size_eq_zero present whole
  case central =>
    intro step member sender receiver woven event other
    have central := sound.central step member
    rw [event] at central
    rcases central with first | first
    · exact first
    · omega

/-- A run ends in agreement on the atoms authored before it and in it. -/
theorem run (sound : Sound count earlier simulation) (inhabited : 0 < count) :
    Agrees count (earlier ++ authoredAtoms simulation.run.1.trace) simulation.run.1 ∧
      Sound count (earlier ++ authoredAtoms simulation.run.1.trace) simulation.run.2 := by
  have rest : exchangePairs count = exchangePairs count ++ [] := (List.append_nil _).symm
  have final : Sound count earlier (simulation.exchangedBefore (exchangePairs count)) :=
    (sound.exchangeStart.exchanges simulation.config.rounds rest).advances.sound
  have complete : ∀ number, number < count →
      (simulation.exchangedBefore (exchangePairs count)).Complete earlier number :=
    fun _ => sound.exchangeStart.complete_exchanges simulation.config.rounds
  rw [sound.run_eq]
  refine ⟨final.agrees inhabited complete, ?_⟩
  constructor
  case size => exact final.size
  case history => simpa [authored, authoredAtoms] using final.history
  case participants => simpa [authored, authoredAtoms] using final.participants
  case authors => simpa [authored, authoredAtoms] using final.authors
  case inFlight => simpa [authored, authoredAtoms] using final.inFlight
  case central => simp

end Sound

def afterRuns (simulation : Simulation) : Nat → Simulation
  | 0 => simulation
  | count + 1 => simulation.run.2.afterRuns count

def authoredIn (outcomes : List Outcome) : List Atom :=
  outcomes.flatMap fun outcome => authoredAtoms outcome.trace

theorem afterRuns_succ (simulation : Simulation) (count : Nat) :
    simulation.afterRuns (count + 1) = (simulation.afterRuns count).run.2 := by
  induction count generalizing simulation with
  | zero => rfl
  | succ count ih =>
    calc
      simulation.afterRuns (count + 2) = simulation.run.2.afterRuns (count + 1) := by rw [afterRuns]
      _ = (simulation.run.2.afterRuns count).run.2 := ih _
      _ = (simulation.afterRuns (count + 1)).run.2 := by rw [afterRuns]

theorem runs_getElem? (simulation : Simulation) {index count : Nat} (bound : index < count) :
    (simulation.runs count)[index]? = some (simulation.afterRuns index).run.1 := by
  induction index generalizing simulation count with
  | zero =>
    cases count with
    | zero => omega
    | succ count => rfl
  | succ index ih =>
    cases count with
    | zero => omega
    | succ count => exact ih simulation.run.2 (by omega)

theorem authoredIn_take_runs (simulation : Simulation) {index count : Nat} (bound : index < count) :
    authoredIn ((simulation.runs count).take (index + 1)) =
      authoredIn ((simulation.runs count).take index) ++
        authoredAtoms (simulation.afterRuns index).run.1.trace := by
  rw [List.take_add_one, simulation.runs_getElem? bound]
  simp [authoredIn]

theorem Sound.afterRuns {count : Nat} {simulation : Simulation}
    (sound : Sound count [] simulation) (inhabited : 0 < count) {index total : Nat}
    (bound : index ≤ total) :
    Sound count (authoredIn ((simulation.runs total).take index)) (simulation.afterRuns index) := by
  induction index with
  | zero => exact sound
  | succ index ih =>
    rw [authoredIn_take_runs simulation bound, afterRuns_succ]
    exact ((ih (by omega)).run inhabited).2

theorem replicaCount_pos {config : Config} (accepted : config.problem? = none) :
    0 < config.replicaCount := by
  apply Nat.pos_of_ne_zero
  intro none_there
  simp [Config.problem?, none_there] at accepted

/-- Every run of a simulation that can be started ends in agreement on all atoms authored up to then,
and in the exchange with which it ends no atom is deferred or refused. -/
theorem runs_agree (config : Config) (accepted : config.problem? = none) :
    ∃ simulation, start config = .ok simulation ∧ ∀ index count, index < count →
      (∃ outcome, (simulation.runs count)[index]? = some outcome ∧
        Agrees config.replicaCount (authoredIn ((simulation.runs count).take (index + 1))) outcome) ∧
      simulation.afterRuns (index + 1) =
        { (simulation.afterRuns index).exchangedBefore (exchangePairs config.replicaCount) with
          trace := #[] } ∧
      ∀ before receiver sender after,
        exchangePairs config.replicaCount = before ++ (receiver, sender) :: after →
          ∃ giver taker : Participant,
            ((simulation.afterRuns index).exchangedBefore before).participants[sender]? = some giver ∧
              ((simulation.afterRuns index).exchangedBefore before).participants[receiver]? =
                some taker ∧
              (taker.receiveAll giver.sequence).1.deferred = 0 ∧
              (taker.receiveAll giver.sequence).1.rejected = [] := by
  have inhabited := replicaCount_pos accepted
  obtain ⟨simulation, started, _, sound⟩ := sound_start accepted
  refine ⟨simulation, started, ?_⟩
  intro index count bound
  have stage := sound.afterRuns inhabited (Nat.le_of_lt bound)
  refine ⟨?agreement, ?exchanged, ?intake⟩
  case agreement =>
    refine ⟨_, simulation.runs_getElem? bound, ?_⟩
    rw [authoredIn_take_runs simulation bound]
    exact (stage.run inhabited).1
  case exchanged => rw [afterRuns_succ, stage.run_eq]
  case intake =>
    intro before receiver sender after order
    exact stage.exchangedBefore_intake order

/-- Three replicas of which each may let one atom wait, over a network that loses half of all
messages. -/
theorem runs_agree_lossy :
    let config : Config :=
      { fault := { dropPercent := 50 }, replica := { pendingLimit := 1 } }
    config.problem? = none ∧ ∃ simulation, start config = .ok simulation ∧
      ∃ outcome, (simulation.runs 2)[1]? = some outcome ∧
        Agrees 3 (authoredIn (simulation.runs 2)) outcome := by
  intro config
  have accepted : config.problem? = none := by decide
  refine ⟨accepted, ?_⟩
  obtain ⟨simulation, started, agree⟩ := runs_agree config accepted
  obtain ⟨outcome, second, agrees⟩ := (agree 1 2 (by omega)).1
  refine ⟨simulation, started, outcome, second, ?_⟩
  rwa [List.take_of_length_le (by simp [runs])] at agrees

end CausalWeave.Simulation
