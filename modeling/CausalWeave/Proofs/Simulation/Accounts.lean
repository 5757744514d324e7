import CausalWeave.Proofs.Simulation.Dispatch
import CausalWeave.Proofs.Simulation.Provenance

namespace CausalWeave.Simulation

namespace Event

/-- How many copies of an atom are sent to a receiver. -/
def copies (id : AtomId) (receiver : Nat) : Event → Nat
  | .send _ target atom dropped duplicated _ =>
    if target = receiver ∧ atom = id ∧ dropped = false then if duplicated then 2 else 1 else 0
  | _ => 0

/-- How many copies of an atom reach a receiver, which takes them in or refuses them. -/
def arrivals (id : AtomId) (receiver : Nat) : Event → Nat
  | .deliver _ target atom _ => if target = receiver ∧ atom = id then 1 else 0
  | .reject target atom _ => if target = receiver ∧ atom = id then 1 else 0
  | _ => 0

end Event

def Message.carries (id : AtomId) (receiver : Nat) (message : Message) : Bool :=
  message.receiver = receiver ∧ message.atom.id = id

def Task.isTurn : Task → Bool
  | .takeTurn _ _ => true
  | _ => false

def turns (agenda : List Task) : Nat :=
  agenda.countP Task.isTurn

theorem turns_takeTurn (round sender : Nat) (agenda : List Task) :
    turns (.takeTurn round sender :: agenda) = turns agenda + 1 :=
  List.countP_cons_of_pos rfl

theorem turns_other {task : Task} (other : ∀ round sender, task ≠ .takeTurn round sender)
    (agenda : List Task) : turns (task :: agenda) = turns agenda := by
  cases task with
  | takeTurn round sender => exact absurd rfl (other round sender)
  | _ => rfl

theorem turns_append (agenda others : List Task) :
    turns (agenda ++ others) = turns agenda + turns others :=
  List.countP_append

theorem turns_rounds (count : Nat) (rounds : List Nat) :
    turns (rounds.flatMap (roundAgenda count)) = rounds.length * count := by
  have each : ∀ round, turns (roundAgenda count round) = count := by
    intro round
    rw [roundAgenda, turns_other (by simp), turns_append, turns, List.countP_map]
    simp [turns, Task.isTurn, Function.comp_def]
  induction rounds with
  | nil => simp [turns]
  | cons round rest ih =>
    rw [List.flatMap_cons, turns_append, ih, each, List.length_cons, Nat.succ_mul, Nat.add_comm]

theorem turns_closing (count round : Nat) : turns (closingAgenda count round) = 0 := by
  rw [closingAgenda, turns_other (by simp), turns, exchangeAgenda, List.countP_map]
  simp [Task.isTurn, Function.comp_def]

theorem tally_aside {amount : Event → Nat} {steps : List TraceStep}
    (aside : ∀ step ∈ steps, step.event.Aside)
    (nothing : ∀ event : Event, event.Aside → amount event = 0) : tally amount steps = 0 := by
  rw [tally, List.sum_eq_zero_iff_forall_eq_nat]
  intro entry member
  obtain ⟨step, inside, rfl⟩ := List.mem_map.mp member
  exact nothing step.event (aside step inside)

/-- The copies that a send puts into flight are those of its entry. -/
theorem countP_copies (sent : Sent) (message : Message) (round : Nat) (id : AtomId) (receiver : Nat) :
    ((sent.copies message round).map (·.message)).countP (·.carries id receiver) =
      (Event.send message.sender message.receiver message.atom.id sent.dropped sent.duplicated
        sent.delay).copies id receiver := by
  obtain ⟨dropped, duplicated, delay⟩ := sent
  by_cases carries : message.receiver = receiver ∧ message.atom.id = id
  · cases dropped <;> cases duplicated <;>
      simp [Sent.copies, Event.copies, Message.carries, carries]
  · cases dropped <;> cases duplicated <;>
      simp_all [Sent.copies, Event.copies, Message.carries]

namespace Effect

variable {count : Nat} {before after : Point} {steps : List TraceStep} {failed : Bool}

/-- A copy that is sent is in transit until it reaches its receiver. -/
theorem traffic (effect : Effect count before after steps failed) (id : AtomId) (receiver : Nat) :
    tally (Event.copies id receiver) steps + before.inTransit.countP (·.carries id receiver) =
      tally (Event.arrivals id receiver) steps +
        after.inTransit.countP (·.carries id receiver) := by
  cases effect with
  | send message sent _ inTransit =>
    rw [inTransit, List.countP_append, countP_copies]
    simp [tally, Event.arrivals, Nat.add_comm]
  | handOver message event hands _ _ inTransit =>
    rw [inTransit, List.countP_cons]
    cases hands <;> simp [tally, Event.copies, Event.arrivals, Message.carries, Nat.add_comm]
  | author _ _ _ _ _ _ _ inTransit => simp [inTransit, tally, Event.copies, Event.arrivals]
  | aside _ entered _ _ inTransit =>
    have copies : tally (Event.copies id receiver) steps = 0 := by
      apply tally_aside entered
      intro event aside
      cases event <;> simp_all [Event.Aside, Event.copies]
    have arrivals : tally (Event.arrivals id receiver) steps = 0 := by
      apply tally_aside entered
      intro event aside
      cases event <;> simp_all [Event.Aside, Event.arrivals]
    rw [copies, arrivals, inTransit.countP_eq]
  | fail _ _ _ _ _ inTransit => simp [inTransit, tally]

/-- Each turn that is taken is entered as an emission. -/
theorem emissions (effect : Effect count before after steps false) :
    (authoredAtoms steps).length + turns after.agenda = turns before.agenda := by
  cases effect with
  | send _ _ _ _ agenda => simp [agenda, authoredAtoms]
  | handOver _ _ hands _ _ _ agenda => cases hands <;> simp [agenda, authoredAtoms]
  | author _ _ _ _ _ _ _ _ agenda =>
    rw [agenda, turns_takeTurn]
    exact Nat.add_comm ..
  | aside _ entered _ _ _ task other agenda =>
    have quiet : authoredAtoms steps = [] := by
      rw [authoredAtoms, List.filterMap_eq_nil_iff]
      intro step member
      have aside := entered step member
      split <;> simp_all [Event.Aside]
    rw [agenda, turns_other other, quiet, List.length_nil, Nat.zero_add]

theorem dispatched {outlines : List Outline} (effect : Effect count before after steps failed)
    (dispatched : Dispatched count before.simulation.config.fanout
      (outlines ++ before.outbox.map (·.outline))) :
    Dispatched count before.simulation.config.fanout
      (outlines ++ steps.map (·.event.outline) ++ after.outbox.map (·.outline)) := by
  cases effect with
  | send message sent outbox =>
    simpa [outbox, Event.outline, Message.outline] using dispatched
  | handOver message event hands idle outbox =>
    rw [outbox, List.map_nil, List.append_nil]
    rw [idle, List.map_nil, List.append_nil] at dispatched
    apply dispatched.others
    cases hands <;> simp [Event.outline]
  | author round sender atom receivers drawn idle outbox =>
    rw [idle, List.map_nil, List.append_nil] at dispatched
    simpa [outbox, Event.outline, Message.outline, Function.comp_def] using dispatched.turn drawn
  | aside _ entered idle outbox =>
    rw [outbox, List.map_nil, List.append_nil]
    rw [idle, List.map_nil, List.append_nil] at dispatched
    apply dispatched.others
    intro step member
    have aside := entered step member
    cases event : step.event <;> simp_all [Event.Aside, Event.outline]
  | fail _ _ _ idle outbox => simpa [idle, outbox] using dispatched

end Effect

/-- The entries account for all that has happened since the start of a run of which some turns were to be
taken. -/
structure Books (count : Nat) (earlier : List Atom) (total : Nat) (start : Simulation) (point : Point) :
    Prop where
  config : point.simulation.config = start.config
  clocks : point.simulation.Timely earlier
  interesting : point.simulation.interesting =
    (start.interesting || point.simulation.trace.toList.any (·.event.eventful))
  lengths : ∀ number, point.simulation.lengthAt number =
    (start.lengthAt number).map (· + tally (Event.gain number) point.simulation.trace.toList)
  traffic : ∀ id receiver, tally (Event.copies id receiver) point.simulation.trace.toList =
    tally (Event.arrivals id receiver) point.simulation.trace.toList +
      point.inTransit.countP (·.carries id receiver)
  emissions : (authoredAtoms point.simulation.trace.toList).length + turns point.agenda = total
  dispatched : Dispatched count start.config.fanout
    (point.simulation.trace.toList.map (·.event.outline) ++ point.outbox.map (·.outline))

namespace Books

variable {count : Nat} {earlier : List Atom} {total : Nat} {start : Simulation}

theorem not_exhausted {point : Point} (books : Books count earlier total start point)
    (room : earlier.length + total < UInt64.size) (left : 0 < turns point.agenda) :
    ¬ point.simulation.Exhausted := by
  rintro ⟨number, participant, present, exhausted⟩
  have clock := books.clocks number participant present
  have emissions := books.emissions
  rw [exhausted, Simulation.authored, List.length_append] at clock
  omega

theorem step {before after : Point} (books : Books count earlier total start before)
    (stands : Stands count earlier before) (room : earlier.length + total < UInt64.size)
    (step : Step before after) : Books count earlier total start after := by
  obtain ⟨_, steps, failed, enters, effect⟩ := stands.step step
  have succeeds : failed = false := by
    cases effect with
    | fail round sender exhausted _ _ _ agenda =>
      exact absurd exhausted (books.not_exhausted room (by simp [agenda, turns_takeTurn]))
    | _ => rfl
  subst succeeds
  constructor
  case config => exact enters.config.trans books.config
  case clocks => exact enters.clocks books.clocks
  case interesting =>
    rw [enters.interesting, books.interesting, enters.trace, List.any_append, Bool.false_or,
      Bool.or_assoc]
  case lengths =>
    intro number
    rw [enters.lengths, books.lengths, enters.trace, tally_append, Option.map_map]
    simp only [Function.comp_def, Nat.add_assoc]
  case traffic =>
    intro id receiver
    have old := books.traffic id receiver
    have new := effect.traffic id receiver
    rw [enters.trace, tally_append, tally_append]
    omega
  case emissions =>
    have old := books.emissions
    have new := effect.emissions
    rw [enters.trace, authoredAtoms_append, List.length_append]
    omega
  case dispatched =>
    have old := books.dispatched
    rw [← books.config] at old ⊢
    rw [enters.trace, List.map_append]
    exact effect.dispatched old

theorem reaches {first point : Point} (books : Books count earlier total start first)
    (stands : Stands count earlier first) (room : earlier.length + total < UInt64.size)
    (reaches : Reaches first point) : Books count earlier total start point := by
  induction reaches with
  | refl => exact books
  | tail before step ih => exact ih.step (stands.reaches before) room step

end Books

/-- What is counted when some runs are over. -/
structure Counted (config : Config) (runs : Nat) (steps : List TraceStep) (simulation : Simulation) :
    Prop where
  idle : Idle config.replicaCount steps simulation
  emissions : (authoredAtoms steps).length = runs * config.rounds * config.replicaCount
  clocks : simulation.Timely (authoredAtoms steps)
  interesting : simulation.interesting = steps.any (·.event.eventful)
  config : simulation.config = config

/-- The trace of a run accounts for its turns, for the copies of its messages, and for the growth of each
sequence since its start. -/
structure AccountsFor (config : Config) (start : Simulation) (outcome : Outcome) : Prop where
  emissions : (authoredAtoms outcome.trace).length = config.rounds * config.replicaCount
  dispatches : ∀ before step after sender atom, outcome.trace = before ++ step :: after →
    step.event = .emit sender atom → ∃ sends rest receivers, after = sends ++ rest ∧
      Dispatches config.replicaCount config.fanout sender atom.id sends rest receivers
  traffic : ∀ id receiver, tally (Event.arrivals id receiver) outcome.trace =
    tally (Event.copies id receiver) outcome.trace
  lengths : ∀ number < config.replicaCount, ∃ (participant : Participant) (state : Snapshot),
    start.participants[number]? = some participant ∧ outcome.states[number]? = some state ∧
      state.sequence.length = participant.sequence.length + tally (Event.gain number) outcome.trace

theorem smaller_room {runs rounds count : Nat} (room : (runs + 1) * rounds * count < UInt64.size) :
    runs * rounds * count < UInt64.size :=
  Nat.lt_of_le_of_lt (Nat.mul_le_mul_right _ (Nat.mul_le_mul_right _ (Nat.le_succ runs))) room

namespace Counted

variable {config : Config} {runs : Nat} {steps : List TraceStep} {simulation : Simulation}

theorem books_begin (counted : Counted config runs steps simulation) :
    Books config.replicaCount (authoredAtoms steps) (config.rounds * config.replicaCount) simulation
      (.begin simulation) := by
  have trace : (Point.begin simulation).simulation.trace.toList = [] := by
    simp [Point.begin, counted.idle.trace]
  constructor
  case config => rfl
  case clocks => exact counted.clocks
  case interesting => simp [Point.begin, counted.idle.trace]
  case lengths =>
    intro number
    rw [trace]
    simp [Point.begin, tally]
  case traffic => simp [Point.begin, Point.inTransit, counted.idle.trace, counted.idle.inFlight, tally]
  case emissions =>
    rw [trace, Point.begin, turns_append, turns_rounds, turns_closing, counted.config,
      counted.idle.sound.size]
    simp [authoredAtoms]
  case dispatched =>
    rw [trace]
    exact .nil

/-- The books of a run are closed when the next one begins. -/
theorem run (counted : Counted config runs steps simulation) (inhabited : 0 < config.replicaCount)
    (room : (runs + 1) * config.rounds * config.replicaCount < UInt64.size) :
    Counted config (runs + 1) (steps ++ simulation.run.1.trace) simulation.run.2 ∧
      AccountsFor config simulation simulation.run.1 ∧
      simulation.run.1.interesting =
        (steps ++ simulation.run.1.trace).any (·.event.eventful) := by
  rw [Nat.succ_mul, Nat.add_mul] at room
  have room' : (authoredAtoms steps).length + config.rounds * config.replicaCount < UInt64.size := by
    rw [counted.emissions]
    exact room
  obtain ⟨last, reaches, ended, closes⟩ := counted.idle.sound.reaches_end
  have later := counted.idle.run inhabited
  have stands := counted.idle.stands reaches
  have books := counted.books_begin.reaches (counted.idle.stands .refl) room' reaches
  have nothing : last.inTransit = [] := by
    simp [Point.inTransit, ended.inbox, stands.inFlight_of_ended ended]
  have emissions := books.emissions
  rw [ended.agenda] at emissions
  have interesting : last.simulation.interesting =
      (steps ++ last.simulation.trace.toList).any (·.event.eventful) := by
    rw [books.interesting, counted.interesting, List.any_append]
  rw [closes] at later ⊢
  refine ⟨?counted, ?accounts, interesting⟩
  case counted =>
    refine ⟨later, ?_, ?_, interesting, books.config.trans counted.config⟩
    · rw [authoredAtoms_append, List.length_append, counted.emissions, Nat.succ_mul, Nat.add_mul]
      exact congrArg _ emissions
    · intro number participant present
      have clock := books.clocks number participant present
      rw [Simulation.authored, ← authoredAtoms_append] at clock
      simpa [Simulation.authored, authoredAtoms, close] using clock
  case accounts =>
    constructor
    case emissions => exact emissions
    case dispatches =>
      intro before step after sender atom split emits
      have dispatched := books.dispatched
      rw [ended.outbox, counted.config, List.map_nil, List.append_nil] at dispatched
      exact dispatched.dispatches split emits
    case traffic =>
      intro id receiver
      have traffic := books.traffic id receiver
      rw [nothing, List.countP_nil] at traffic
      exact traffic.symm
    case lengths =>
      intro number inside
      have before := inside
      rw [← counted.idle.sound.size] at before
      have present := Array.getElem?_eq_getElem before
      rw [← stands.sound.size] at inside
      have present' := Array.getElem?_eq_getElem inside
      refine ⟨_, last.simulation.participants[number].snapshot, present, by simp [close, present'], ?_⟩
      have grown := books.lengths number
      rw [lengthAt, lengthAt, present, present'] at grown
      exact Option.some.inj grown

theorem afterRuns (counted : Counted config 0 [] simulation) (inhabited : 0 < config.replicaCount)
    {index : Nat} (room : index * config.rounds * config.replicaCount < UInt64.size) :
    Counted config index (stepsOf (simulation.runs index)) (simulation.afterRuns index) := by
  induction index with
  | zero => exact counted
  | succ index ih =>
    rw [afterRuns_succ, runs_succ]
    simpa [stepsOf] using ((ih (smaller_room room)).run inhabited room).1

end Counted

theorem counted_start {config : Config} (accepted : config.problem? = none) :
    ∃ simulation, start config = .ok simulation ∧ Counted config 0 [] simulation := by
  obtain ⟨simulation, started, same, idle⟩ := idle_start accepted
  refine ⟨simulation, started, idle, by simp [authoredAtoms], ?_, ?_, same⟩
  all_goals
    rw [start, accepted] at started
    cases started
  · intro number participant present
    rw [Array.getElem?_map, Option.map_eq_some_iff] at present
    obtain ⟨_, _, rfl⟩ := present
    exact Nat.zero_le _
  · rfl

/-- Every run of a simulation that can be started accounts for itself in its trace, as long as there are
timestamps for all atoms. -/
theorem runs_account (config : Config) (accepted : config.problem? = none) :
    ∃ simulation, start config = .ok simulation ∧ ∀ index,
      (index + 1) * config.rounds * config.replicaCount < UInt64.size →
        ∃ outcome, (simulation.runs (index + 1))[index]? = some outcome ∧
          AccountsFor config (simulation.afterRuns index) outcome := by
  obtain ⟨simulation, started, counted⟩ := counted_start accepted
  refine ⟨simulation, started, ?_⟩
  intro index room
  have inhabited := replicaCount_pos accepted
  refine ⟨_, simulation.runs_getElem? (Nat.lt_succ_self index), ?_⟩
  exact ((counted.afterRuns inhabited (smaller_room room)).run inhabited room).2.1

/-- The second run of three replicas, over a network that loses half of all messages. -/
theorem runs_account_lossy :
    let config : Config :=
      { fault := { dropPercent := 50 }, replica := { pendingLimit := 1 } }
    config.problem? = none ∧ (1 + 1) * config.rounds * config.replicaCount < UInt64.size ∧
      ∃ simulation, start config = .ok simulation ∧
        ∃ outcome, (simulation.runs 2)[1]? = some outcome ∧
          AccountsFor config (simulation.afterRuns 1) outcome := by
  intro config
  have accepted : config.problem? = none := by decide
  have room : (1 + 1) * config.rounds * config.replicaCount < UInt64.size := by decide
  obtain ⟨simulation, started, account⟩ := runs_account config accepted
  exact ⟨accepted, room, simulation, started, account 1 room⟩

end CausalWeave.Simulation
