import CausalWeave.Proofs.Simulation.Accounts

/-! The flag is never lowered, while the trace begins anew with each run. -/

namespace CausalWeave.Simulation

/-- The outcome of a run is interesting if and only if something eventful was entered in it or before. -/
theorem interesting_iff (config : Config) (accepted : config.problem? = none) :
    ∃ simulation, start config = .ok simulation ∧ ∀ index,
      (index + 1) * config.rounds * config.replicaCount < UInt64.size →
        ∃ outcome, (simulation.runs (index + 1))[index]? = some outcome ∧
          (outcome.interesting = true ↔
            ∃ step ∈ stepsOf (simulation.runs (index + 1)), step.event.eventful = true) := by
  obtain ⟨simulation, started, counted⟩ := counted_start accepted
  refine ⟨simulation, started, ?_⟩
  intro index room
  have inhabited := replicaCount_pos accepted
  have interesting := ((counted.afterRuns inhabited (smaller_room room)).run inhabited room).2.2
  refine ⟨_, simulation.runs_getElem? (Nat.lt_succ_self index), ?_⟩
  rw [interesting, List.any_eq_true, runs_succ]
  simp [stepsOf]

theorem interesting_iff_lossy :
    let config : Config := { fault := { dropPercent := 50 }, replica := { pendingLimit := 1 } }
    config.problem? = none ∧ (1 + 1) * config.rounds * config.replicaCount < UInt64.size ∧
      ∃ simulation, start config = .ok simulation ∧
        ∃ outcome, (simulation.runs 2)[1]? = some outcome ∧
          (outcome.interesting = true ↔
            ∃ step ∈ stepsOf (simulation.runs 2), step.event.eventful = true) := by
  intro config
  have accepted : config.problem? = none := by decide
  have room : (1 + 1) * config.rounds * config.replicaCount < UInt64.size := by decide
  obtain ⟨simulation, started, interesting⟩ := interesting_iff config accepted
  exact ⟨accepted, room, simulation, started, interesting 1 room⟩

/-- Two replicas that send each other nothing before the final exchange; one of them is isolated or connected
in half of the rounds. -/
def restless : Config where
  seed := 3
  replicaCount := 2
  rounds := 1
  fanout := 0
  rootPercent := 100
  fault := { dropPercent := 0, duplicatePercent := 0, reorderPercent := 0, partitionPercent := 50 }

def afterDraw (generator : Generator) : Generator :=
  let (toggles, later) := generator.hits 50
  if toggles then (later.index 2).2 else later

/-- The restless replicas in a round in which nothing further is drawn. -/
structure Calm (generator : Generator) (eventful : Bool) (simulation : Simulation) : Prop where
  size : simulation.participants.size = 2
  config : simulation.config = restless
  inFlight : simulation.network.inFlight = []
  generator : simulation.generator = generator
  eventful : simulation.trace.toList.any (·.event.eventful) = eventful

namespace Calm

variable {generator : Generator} {eventful : Bool} {simulation : Simulation}

theorem enter (calm : Calm generator eventful simulation) {other : Simulation} {steps : List TraceStep}
    (size : other.participants.size = simulation.participants.size)
    (config : other.config = simulation.config) (inFlight : other.network.inFlight = [])
    (draws : other.generator = simulation.generator)
    (trace : other.trace.toList = simulation.trace.toList ++ steps)
    (quiet : steps.any (·.event.eventful) = false) : Calm generator eventful other where
  size := size.trans calm.size
  config := config.trans calm.config
  inFlight := inFlight
  generator := draws.trans calm.generator
  eventful := by rw [trace, List.any_append, quiet, Bool.or_false, calm.eventful]

/-- Authors draw no causes for roots, and with one other replica there is no order to be drawn. -/
theorem takeTurn (calm : Calm generator eventful simulation) (round sender : Nat) :
    Calm generator eventful (simulation.takeTurn round sender) := by
  unfold Simulation.takeTurn
  cases found : simulation.participants[sender]? with
  | none => exact calm
  | some author =>
    have inside := (Array.getElem?_eq_some_iff.mp found).1
    have draws : (author.author simulation.config.authoringRates simulation.generator).2.2 =
        simulation.generator := by
      obtain ⟨_, _, authors⟩ :=
        author.author_eq simulation.config.authoringRates simulation.generator
      rw [authors, calm.config]
      rfl
    dsimp only
    generalize author.author simulation.config.authoringRates simulation.generator = result at draws
    obtain ⟨outcome, later, drawn⟩ := result
    dsimp only at draws
    subst draws
    cases outcome with
    | error why =>
      exact calm.enter (by simp [noteFault]) rfl calm.inFlight rfl (List.append_nil _).symm rfl
    | ok atom =>
      have alone : ((Array.range 2).filter (· != sender)).size ≤ 1 := by
        rw [calm.size] at inside
        obtain rfl | rfl : sender = 0 ∨ sender = 1 := by omega
        · decide
        · decide
      have still := simulation.generator.shuffle_of_size_le_one alone
      have unsent : simulation.config.fanout = 0 := by rw [calm.config, restless]
      simp only [record, Array.size_setIfInBounds, calm.size, unsent, still, List.take_zero,
        List.foldl_nil]
      exact calm.enter (by simp) rfl calm.inFlight rfl (Array.toList_push ..) rfl

theorem deliverDue (calm : Calm generator eventful simulation) (round : Nat) :
    Calm generator eventful (simulation.deliverDue round) := by
  have nothing : simulation.network.deliver round simulation.generator =
      ({ messages := [], reordered := false }, { simulation.network with inFlight := [] },
        simulation.generator) := by
    simp [Network.deliver, calm.inFlight]
  rw [Simulation.deliverDue, nothing]
  exact calm.enter rfl rfl rfl rfl (List.append_nil _).symm rfl

theorem exchange (calm : Calm generator eventful simulation) (round receiver sender : Nat) :
    Calm generator eventful (simulation.exchange round receiver sender) := by
  unfold Simulation.exchange
  split
  · rename_i giver taker _ _
    generalize taker.receiveAll giver.sequence = result
    obtain ⟨intake, later⟩ := result
    dsimp only
    split
    · exact calm.enter (by simp [record, noteFault]) rfl calm.inFlight rfl (Array.toList_push ..) rfl
    · exact calm.enter (by simp [noteFault]) rfl calm.inFlight rfl (List.append_nil _).symm rfl
  · exact calm

theorem finalExchange (calm : Calm generator eventful simulation) (round : Nat) :
    Calm generator eventful (simulation.finalExchange round) := by
  have emptied : Calm generator eventful (simulation.handOverRest round) := by
    simp only [handOverRest, Network.drain, Network.heal, calm.inFlight]
    exact calm.enter rfl rfl rfl rfl (List.append_nil _).symm rfl
  exact List.foldlRecOn _ _ emptied fun _ calm pair _ => calm.exchange round pair.1 pair.2

/-- A run in whose only round nothing is drawn after the partition. -/
theorem run (config : simulation.config = restless)
    (calm : Calm generator eventful (simulation.drawPartition 0)) :
    ∃ last, Calm generator eventful last ∧ simulation.run = last.close := by
  have turns : Calm generator eventful
      ((List.range simulation.participants.size).foldl
        (fun simulation sender => simulation.takeTurn 0 sender) (simulation.drawPartition 0)) :=
    List.foldlRecOn _ _ calm fun _ calm sender _ => calm.takeTurn 0 sender
  have whole : simulation.run =
      (((List.range simulation.config.rounds).foldl Simulation.playRound simulation).finalExchange
        simulation.config.rounds).close := rfl
  refine ⟨_, (turns.deliverDue 0).finalExchange 1, ?_⟩
  rw [whole, config, restless, List.range_one, List.foldl_cons, List.foldl_nil, Simulation.playRound]

end Calm

theorem calm_drawPartition {steps : List TraceStep} {simulation : Simulation}
    (idle : Idle 2 steps simulation) (config : simulation.config = restless) (round : Nat) :
    Calm (afterDraw simulation.generator) (simulation.generator.hits 50).1
      (simulation.drawPartition round) := by
  have rate : simulation.config.fault.partitionPercent = 50 := by rw [config, restless]
  unfold drawPartition afterDraw
  simp only [idle.sound.size, rate, Nat.lt_irrefl, if_false]
  generalize simulation.generator.hits 50 = toggle
  obtain ⟨toggles, generator⟩ := toggle
  cases toggles with
  | false => exact ⟨idle.sound.size, config, idle.inFlight, rfl, by simp [idle.trace]⟩
  | true =>
    simp only [if_true]
    generalize generator.index 2 = draw
    obtain ⟨replica, generator⟩ := draw
    exact ⟨idle.sound.size, config, idle.inFlight, rfl,
      by simp [idle.trace, record, noteFault, Event.eventful]⟩

/-- Nothing eventful is entered in the second run of the restless replicas, whose outcome is interesting since
one of them was isolated in the first. -/
theorem interesting_after_calm_run :
    restless.problem? = none ∧ (1 + 1) * restless.rounds * restless.replicaCount < UInt64.size ∧
      ∃ simulation, start restless = .ok simulation ∧
        ∃ outcome, (simulation.runs 2)[1]? = some outcome ∧ outcome.interesting = true ∧
          ∀ step ∈ outcome.trace, step.event.eventful = false := by
  have accepted : restless.problem? = none := by decide
  have room : (1 + 1) * restless.rounds * restless.replicaCount < UInt64.size := by decide
  refine ⟨accepted, room, ?_⟩
  obtain ⟨simulation, started, counted⟩ := counted_start accepted
  have seed : simulation.generator = Generator.ofSeed 3 := by
    rw [start, accepted] at started
    cases started
    rfl
  have inhabited : 0 < restless.replicaCount := by decide
  have room' : (0 + 1) * restless.rounds * restless.replicaCount < UInt64.size := by decide
  have later := (counted.run inhabited room').1
  have interesting := (later.run inhabited room).2.2
  obtain ⟨first, isolating, ends⟩ :=
    (calm_drawPartition counted.idle counted.config 0).run counted.config
  obtain ⟨second, calm, ends'⟩ := (calm_drawPartition later.idle later.config 0).run later.config
  have drawn : simulation.run.2.generator = afterDraw (Generator.ofSeed 3) := by
    rw [ends, ← seed]
    exact isolating.generator
  have isolates : simulation.run.1.trace.any (·.event.eventful) = true := by
    have hits : ((Generator.ofSeed 3).hits 50).1 = true := by decide
    rw [ends, ← hits, ← seed]
    exact isolating.eventful
  have quiet : simulation.run.2.run.1.trace.any (·.event.eventful) = false := by
    have misses : ((afterDraw (Generator.ofSeed 3)).hits 50).1 = false := by decide
    rw [ends', ← misses, ← drawn]
    exact calm.eventful
  have once : simulation.afterRuns 1 = simulation.run.2 := by rw [afterRuns, afterRuns]
  refine ⟨simulation, started, _, simulation.runs_getElem? (Nat.lt_succ_self 1), ?_, ?_⟩
  · rw [once, interesting, List.any_append, List.any_append, isolates, Bool.or_true, Bool.true_or]
  · rw [once]
    simpa using quiet

end CausalWeave.Simulation
