import CausalWeave.Proofs.Simulation.Entries

namespace CausalWeave.Simulation

/-- The message carries an authored atom to a participant. -/
structure Message.Proper (count : Nat) (atoms : List Atom) (message : Message) : Prop where
  authored : message.atom ∈ atoms
  receiver : message.receiver < count

inductive Task.Routine (count : Nat) : Task → Prop where
  | drawPartition (round : Nat) : Routine count (.drawPartition round)
  | takeTurn (round : Nat) {sender : Nat} (inside : sender < count) :
      Routine count (.takeTurn round sender)
  | deliverDue (round : Nat) : Routine count (.deliverDue round)

/-- How far a run has come at a point. -/
inductive Stage (count : Nat) (earlier : List Atom) (point : Point) : Prop where
  | playing (tasks : List Task) (last : Nat) (routine : ∀ task ∈ tasks, task.Routine count)
      (agenda : point.agenda = tasks ++ closingAgenda count last)
  | emptying (last : Nat) (outbox : point.outbox = [])
      (inFlight : point.simulation.network.inFlight = [])
      (agenda : point.agenda = exchangeAgenda last (exchangePairs count))
  | exchanging (last : Nat) (start : Simulation) (past left : List (Nat × Nat))
      (sound : Sound count earlier start) (progress : Progress count earlier start past point.simulation)
      (order : exchangePairs count = past ++ left) (outbox : point.outbox = [])
      (inbox : point.inbox = []) (inFlight : point.simulation.network.inFlight = [])
      (agenda : point.agenda = exchangeAgenda last left)

/-- What holds at every point of a run before which some atoms were authored. -/
structure Stands (count : Nat) (earlier : List Atom) (point : Point) : Prop where
  sound : Sound count earlier point.simulation
  proper : ∀ message ∈ point.outbox ++ point.inTransit,
    message.Proper count (point.simulation.authored earlier)
  stage : Stage count earlier point

theorem cons_of_exchangeAgenda {last : Nat} {pairs : List (Nat × Nat)} {task : Task} {agenda : List Task}
    (whole : task :: agenda = exchangeAgenda last pairs) : ∃ receiver sender rest,
      pairs = (receiver, sender) :: rest ∧ task = .exchange last receiver sender ∧
        agenda = exchangeAgenda last rest := by
  cases pairs with
  | nil => cases whole
  | cons pair rest =>
    obtain ⟨rfl, rfl⟩ := List.cons.inj whole
    exact ⟨pair.1, pair.2, rest, rfl, rfl, rfl⟩

/-- The first task of an agenda with the rest of it, by how far a run has come. -/
inductive Stage.Next (count : Nat) (earlier : List Atom) (simulation : Simulation) :
    Task → List Task → Prop where
  | routine {task : Task} {agenda : List Task} (routine : task.Routine count)
      (rest : ∀ point : Point, point.agenda = agenda → Stage count earlier point) :
      Next count earlier simulation task agenda
  | handOverRest (round : Nat) :
      Next count earlier simulation (.handOverRest round) (exchangeAgenda round (exchangePairs count))
  | exchange (round receiver sender : Nat) (start : Simulation) (past left : List (Nat × Nat))
      (sound : Sound count earlier start) (progress : Progress count earlier start past simulation)
      (order : exchangePairs count = past ++ (receiver, sender) :: left)
      (inFlight : simulation.network.inFlight = []) :
      Next count earlier simulation (.exchange round receiver sender) (exchangeAgenda round left)

theorem Stage.next {count : Nat} {earlier : List Atom} {simulation : Simulation} {before : Nat}
    {task : Task} {agenda : List Task} (sound : Sound count earlier simulation)
    (stage : Stage count earlier { simulation, round := before, agenda := task :: agenda }) :
    Stage.Next count earlier simulation task agenda := by
  cases stage with
  | playing tasks last routine whole =>
    cases tasks with
    | nil =>
      obtain ⟨rfl, rfl⟩ := List.cons.inj whole
      exact .handOverRest last
    | cons first rest =>
      obtain ⟨rfl, rfl⟩ := List.cons.inj whole
      refine .routine (routine task (by simp)) ?_
      intro point same
      exact .playing rest last (fun task member => routine task (by simp [member])) same
  | emptying last _ inFlight whole =>
    obtain ⟨receiver, sender, rest, order, rfl, rfl⟩ := cons_of_exchangeAgenda whole
    exact .exchange last receiver sender simulation [] rest sound ⟨.refl sound, by simp, by simp⟩
      order inFlight
  | exchanging last start past left first progress order _ _ inFlight whole =>
    obtain ⟨receiver, sender, rest, rfl, rfl, rfl⟩ := cons_of_exchangeAgenda whole
    exact .exchange last receiver sender start past rest first progress order inFlight

/-- What a step does to what is to be sent and what is in transit, and what it enters into the trace. An author
whose clock is exhausted fails. -/
inductive Effect (count : Nat) (before after : Point) : List TraceStep → Bool → Prop where
  | send (message : Message) (sent : Sent) (outbox : before.outbox = message :: after.outbox)
      (inTransit : after.inTransit =
        before.inTransit ++ (sent.copies message before.round).map (·.message))
      (agenda : after.agenda = before.agenda) :
      Effect count before after
        [{ round := before.round
           event := .send message.sender message.receiver message.atom.id sent.dropped sent.duplicated
             sent.delay }] false
  | handOver (message : Message) (event : Event) (hands : HandsOver message event)
      (idle : before.outbox = []) (outbox : after.outbox = [])
      (inTransit : before.inTransit = message :: after.inTransit)
      (agenda : after.agenda = before.agenda) :
      Effect count before after [{ round := before.round, event }] false
  | author (round sender : Nat) (atom : Atom) (receivers : List Nat)
      (drawn : Receivers count before.simulation.config.fanout sender receivers)
      (idle : before.outbox = [])
      (outbox : after.outbox = receivers.map fun receiver => { sender, receiver, atom })
      (inTransit : after.inTransit = before.inTransit)
      (agenda : before.agenda = .takeTurn round sender :: after.agenda) :
      Effect count before after [{ round, event := .emit sender atom }] false
  | aside (steps : List TraceStep) (entered : ∀ step ∈ steps, step.event.Aside)
      (idle : before.outbox = []) (outbox : after.outbox = [])
      (inTransit : after.inTransit.Perm before.inTransit) (task : Task)
      (other : ∀ round sender, task ≠ .takeTurn round sender)
      (agenda : before.agenda = task :: after.agenda) : Effect count before after steps false
  | fail (round sender : Nat) (exhausted : before.simulation.Exhausted) (idle : before.outbox = [])
      (outbox : after.outbox = []) (inTransit : after.inTransit = before.inTransit)
      (agenda : before.agenda = .takeTurn round sender :: after.agenda) :
      Effect count before after [] true

namespace Effect

variable {count : Nat} {before after : Point} {steps : List TraceStep} {failed : Bool}

/-- What is to be sent or in transit was so before, or it carries a new atom to one of its receivers. -/
theorem proper {atoms later : List Atom} (effect : Effect count before after steps failed)
    (proper : ∀ message ∈ before.outbox ++ before.inTransit, message.Proper count atoms)
    (grown : later = atoms ++ authoredAtoms steps) :
    ∀ message ∈ after.outbox ++ after.inTransit, message.Proper count later := by
  have kept : ∀ message ∈ before.outbox ++ before.inTransit, message.Proper count later := by
    intro message member
    obtain ⟨authored, receiver⟩ := proper message member
    exact ⟨grown ▸ List.mem_append_left _ authored, receiver⟩
  intro message member
  rcases List.mem_append.mp member with waiting | transit
  · cases effect with
    | send first _ outbox => exact kept message (by simp [outbox, waiting])
    | author round sender atom receivers drawn _ outbox =>
      rw [outbox] at waiting
      obtain ⟨receiver, chosen, rfl⟩ := List.mem_map.mp waiting
      exact ⟨by simp [grown, authoredAtoms], (drawn.others receiver chosen).1⟩
    | handOver _ _ _ _ outbox => simp [outbox] at waiting
    | aside _ _ _ outbox => simp [outbox] at waiting
    | fail _ _ _ _ outbox => simp [outbox] at waiting
  · cases effect with
    | send first sent outbox inTransit =>
      rw [inTransit] at transit
      rcases List.mem_append.mp transit with old | copy
      · exact kept message (List.mem_append_right _ old)
      · obtain ⟨flight, copied, rfl⟩ := List.mem_map.mp copy
        have same := sent.message_of_mem_copies copied
        exact kept flight.message (by simp [outbox, same])
    | author _ _ _ _ _ _ _ inTransit =>
      exact kept message (List.mem_append_right _ (inTransit ▸ transit))
    | handOver _ _ _ _ _ inTransit =>
      exact kept message (List.mem_append_right _ (by simp [inTransit, transit]))
    | aside _ _ _ _ inTransit =>
      exact kept message (List.mem_append_right _ (inTransit.mem_iff.mp transit))
    | fail _ _ _ _ _ inTransit =>
      exact kept message (List.mem_append_right _ (inTransit ▸ transit))

end Effect

/-- Each step keeps a run on its course. -/
theorem Stands.step {count : Nat} {earlier : List Atom} {before after : Point} (step : Step before after)
    (stands : Stands count earlier before) : Stands count earlier after ∧
      ∃ steps failed, Enters count earlier before.simulation after.simulation steps failed ∧
        Effect count before after steps failed := by
  obtain ⟨sound, proper, stage⟩ := stands
  suffices goal : Sound count earlier after.simulation ∧ Stage count earlier after ∧
      ∃ steps failed, Enters count earlier before.simulation after.simulation steps failed ∧
        Effect count before after steps failed by
    obtain ⟨sound', stage', steps, failed, enters, effect⟩ := goal
    exact ⟨⟨sound', effect.proper proper enters.authored, stage'⟩, steps, failed, enters, effect⟩
  cases step with
  | send simulation round message outbox inbox agenda =>
    obtain ⟨sent, enters, inFlight⟩ :=
      simulation.enters_sendMessage count earlier round message
    have known := (proper message (by simp)).authored
    refine ⟨(sound.sendTo round message.sender known message.receiver).1, ?_, _, false, enters, ?_⟩
    · cases stage with
      | playing tasks last routine whole => exact .playing tasks last routine whole
      | emptying _ none => cases none
      | exchanging _ _ _ _ _ _ _ none => cases none
    · exact .send message sent rfl (by simp [Point.inTransit, inFlight]) rfl
  | handOver simulation round message inbox agenda =>
    obtain ⟨known, inside⟩ := proper message (by simp [Point.inTransit])
    obtain ⟨event, hands, enters, network⟩ := sound.enters_handOver round known inside
    refine ⟨(sound.handOver round known).1, ?_, _, false, enters, ?_⟩
    · cases stage with
      | playing tasks last routine whole => exact .playing tasks last routine whole
      | emptying last _ inFlight whole =>
        exact .emptying last rfl ((congrArg Network.inFlight network).trans inFlight) whole
      | exchanging _ _ _ _ _ _ _ _ none => cases none
    · exact .handOver message event hands rfl rfl (by simp [Point.inTransit, network]) rfl
  | drawPartition simulation before round agenda =>
    obtain ⟨steps, enters, aside, inFlight⟩ :=
      simulation.enters_drawPartition count earlier round
    cases stage.next sound with
    | routine _ rest =>
      refine ⟨sound.drawPartition round, rest _ rfl, steps, false, enters, ?_⟩
      exact .aside steps aside rfl rfl (by simp [Point.inTransit, inFlight]) _ (by simp) rfl
  | takeTurn simulation before round sender agenda =>
    cases stage.next sound with
    | routine routine rest =>
      cases routine with
      | takeTurn _ inside =>
        obtain ⟨network, ⟨exhausted, nothing, enters⟩ | ⟨atom, receivers, drawn, outbox, enters⟩⟩ :=
          sound.enters_beginTurn round inside
        · refine ⟨(sound.beginTurn round sender).1, rest _ rfl, _, true, enters, ?_⟩
          exact .fail round sender exhausted rfl nothing (by simp [Point.inTransit, network]) rfl
        · refine ⟨(sound.beginTurn round sender).1, rest _ rfl, _, false, enters, ?_⟩
          exact .author round sender atom receivers drawn rfl outbox
            (by simp [Point.inTransit, network]) rfl
  | deliverDue simulation before round agenda =>
    obtain ⟨steps, enters, aside, perm⟩ :=
      simulation.enters_beginDelivery count earlier round
    cases stage.next sound with
    | routine _ rest =>
      refine ⟨(sound.beginDelivery round).1, rest _ rfl, steps, false, enters, ?_⟩
      exact .aside steps aside rfl rfl (by simpa [Point.inTransit] using perm) _ (by simp) rfl
  | handOverRest simulation before round agenda =>
    cases stage.next sound with
    | routine routine => cases routine
    | handOverRest =>
      refine ⟨sound.beginRest.1, .emptying round rfl rfl rfl, [], false,
        simulation.enters_beginRest count earlier, ?_⟩
      exact .aside [] (by simp) rfl rfl
        (by simp [Point.inTransit, beginRest, Network.drain, Network.heal]) _ (by simp) rfl
  | exchange simulation before round receiver sender agenda =>
    cases stage.next sound with
    | routine routine => cases routine
    | exchange _ _ _ start past left first progress order inFlight =>
      obtain ⟨steps, enters, aside, network⟩ := sound.enters_exchange round receiver sender
      have further := progress.exchange first round order
      refine ⟨further.advances.sound, ?_, steps, false, enters, ?_⟩
      · exact .exchanging round start (past ++ [(receiver, sender)]) left first further
          (by simp [order]) rfl rfl ((congrArg Network.inFlight network).trans inFlight) rfl
      · exact .aside steps aside rfl rfl (by simp [Point.inTransit, network]) _ (by simp) rfl

namespace Stands

variable {count : Nat} {earlier : List Atom}

theorem reaches {first point : Point} (stands : Stands count earlier first)
    (reaches : Reaches first point) : Stands count earlier point := by
  induction reaches with
  | refl => exact stands
  | tail _ step ih => exact (ih.step step).1

theorem routine_roundAgenda (round : Nat) : ∀ task ∈ roundAgenda count round, task.Routine count := by
  intro task member
  simp only [roundAgenda, List.mem_cons, List.mem_append, List.mem_map, List.mem_range,
    List.not_mem_nil, or_false] at member
  rcases member with rfl | ⟨sender, inside, rfl⟩ | rfl
  · exact .drawPartition round
  · exact .takeTurn round inside
  · exact .deliverDue round

theorem begin {simulation : Simulation} (sound : Sound count earlier simulation)
    (inFlight : simulation.network.inFlight = []) : Stands count earlier (.begin simulation) where
  sound := sound
  proper := by simp [Point.begin, Point.inTransit, inFlight]
  stage := by
    have size := sound.size
    subst size
    refine .playing _ simulation.config.rounds ?_ rfl
    intro task member
    obtain ⟨round, _, inside⟩ := List.mem_flatMap.mp member
    exact routine_roundAgenda round task inside

/-- A run leaves nothing in flight. -/
theorem inFlight_of_ended {last : Point} (stands : Stands count earlier last) (ended : last.Ended) :
    last.simulation.network.inFlight = [] := by
  cases stands.stage with
  | playing tasks round _ whole => simp [ended.agenda, closingAgenda] at whole
  | emptying _ _ inFlight => exact inFlight
  | exchanging _ _ _ _ _ _ _ _ _ inFlight => exact inFlight

end Stands

end CausalWeave.Simulation
