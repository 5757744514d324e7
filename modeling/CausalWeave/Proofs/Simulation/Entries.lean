import CausalWeave.Proofs.Simulation.Growth
import CausalWeave.Proofs.Simulation.Network
import CausalWeave.Proofs.Simulation.Steps

namespace CausalWeave.Simulation

namespace Event

/-- By how many atoms the sequence of a replica grows. -/
def gain (number : Nat) : Event → Nat
  | .emit replica _ => if replica = number then 1 else 0
  | .deliver _ receiver _ (.woven _ released) => if receiver = number then 1 + released else 0
  | .sync _ receiver woven => if receiver = number then woven else 0
  | _ => 0

/-- A fault has happened, or an atom had to wait or was refused. -/
def eventful : Event → Bool
  | .partition _ _ => true
  | .reorder _ => true
  | .send _ _ _ dropped duplicated _ => dropped || duplicated
  | .deliver _ _ _ arrival => arrival = .deferred
  | .reject _ _ _ => true
  | _ => false

/-- Nothing was authored, sent or handed over. -/
def Aside : Event → Prop
  | .partition _ _ => True
  | .reorder _ => True
  | .sync _ _ _ => True
  | _ => False

end Event

/-- What the entries of a trace add up to. -/
def tally (amount : Event → Nat) (steps : List TraceStep) : Nat :=
  (steps.map fun step => amount step.event).sum

/-- The emissions of a trace are entered under the number of their author. -/
def Signed (count : Nat) (steps : List TraceStep) : Prop :=
  ∀ step ∈ steps, ∀ number atom, step.event = .emit number atom →
    number < count ∧ atom.id.site = siteOf number

def lengthAt (simulation : Simulation) (number : Nat) : Option Nat :=
  simulation.participants[number]?.map (·.sequence.length)

/-- No clock is ahead of the number of authored atoms. -/
def Timely (earlier : List Atom) (simulation : Simulation) : Prop :=
  ∀ (number : Nat) (participant : Participant),
    simulation.participants[number]? = some participant →
      participant.replica.clock.latest.toNat ≤ (simulation.authored earlier).length

def Exhausted (simulation : Simulation) : Prop :=
  ∃ (number : Nat) (participant : Participant),
    simulation.participants[number]? = some participant ∧
      participant.replica.clock.latest.toNat = UInt64.size - 1

theorem tally_append (amount : Event → Nat) (steps others : List TraceStep) :
    tally amount (steps ++ others) = tally amount steps + tally amount others := by
  simp [tally]

theorem Signed.append {count : Nat} {steps others : List TraceStep} (signed : Signed count steps)
    (signed' : Signed count others) : Signed count (steps ++ others) := by
  intro step member
  rcases List.mem_append.mp member with old | new
  · exact signed step old
  · exact signed' step new

theorem authored_of_trace {before after : Simulation} {steps : List TraceStep} {earlier : List Atom}
    (trace : after.trace.toList = before.trace.toList ++ steps) :
    after.authored earlier = before.authored earlier ++ authoredAtoms steps := by
  simp [authored, trace, authoredAtoms]

/-- One state of a simulation comes from another one, and there are new entries in the trace. An author may have
failed besides. -/
structure Enters (count : Nat) (earlier : List Atom) (before after : Simulation)
    (steps : List TraceStep) (failed : Bool) : Prop where
  config : after.config = before.config
  trace : after.trace.toList = before.trace.toList ++ steps
  signed : Signed count steps
  interesting : after.interesting =
    (before.interesting || (failed || steps.any (·.event.eventful)))
  lengths : ∀ number,
    after.lengthAt number = (before.lengthAt number).map (· + tally (Event.gain number) steps)
  clocks : before.Timely earlier → after.Timely earlier

namespace Enters

variable {count : Nat} {earlier : List Atom} {before after : Simulation} {round : Nat} {event : Event}

theorem authored {steps : List TraceStep} {failed : Bool}
    (enters : Enters count earlier before after steps failed) :
    after.authored earlier = before.authored earlier ++ authoredAtoms steps :=
  authored_of_trace enters.trace

theorem signed_of_quiet {steps : List TraceStep} (quiet : authoredAtoms steps = []) :
    Signed count steps := by
  intro step member number atom emits
  have authored : atom ∈ authoredAtoms steps := by
    rw [authoredAtoms, List.mem_filterMap]
    exact ⟨step, member, by rw [emits]⟩
  simp [quiet] at authored

theorem of_participants_eq {steps : List TraceStep} (quiet : authoredAtoms steps = [])
    (lengths : ∀ number, tally (Event.gain number) steps = 0) (config : after.config = before.config)
    (trace : after.trace.toList = before.trace.toList ++ steps)
    (participants : after.participants = before.participants)
    (interesting : after.interesting = (before.interesting || steps.any (·.event.eventful))) :
    Enters count earlier before after steps false where
  config := config
  trace := trace
  signed := signed_of_quiet quiet
  interesting := interesting
  lengths number := by simp [lengthAt, participants, lengths, Function.comp_def]
  clocks timely number participant present := by
    rw [participants] at present
    rw [authored_of_trace trace, quiet, List.append_nil]
    exact timely number participant present

/-- What is entered when one participant is replaced. -/
theorem of_replaced {steps : List TraceStep} {failed : Bool} {replaced growth : Nat}
    {taker later : Participant}
    (takes : before.participants[replaced]? = some taker)
    (participants : after.participants = before.participants.setIfInBounds replaced later)
    (grown : later.sequence.length = taker.sequence.length + growth)
    (lengths : ∀ number,
      tally (Event.gain number) steps = if replaced = number then growth else 0)
    (clock : before.Timely earlier →
      later.replica.clock.latest.toNat ≤ (after.authored earlier).length)
    (config : after.config = before.config)
    (trace : after.trace.toList = before.trace.toList ++ steps) (signed : Signed count steps)
    (interesting : after.interesting =
      (before.interesting || (failed || steps.any (·.event.eventful)))) :
    Enters count earlier before after steps failed where
  config := config
  trace := trace
  signed := signed
  interesting := interesting
  lengths number := by
    have inside := (Array.getElem?_eq_some_iff.mp takes).1
    rw [lengthAt, lengthAt, participants, Array.getElem?_setIfInBounds, lengths]
    by_cases same : replaced = number
    · rw [← same, takes]
      simp [inside, grown]
    · simp [same, Function.comp_def]
  clocks timely number participant present := by
    have onward : (before.authored earlier).length ≤ (after.authored earlier).length := by
      simp [authored_of_trace trace]
    rw [participants] at present
    rcases mem_setIfInBounds present with ⟨_, rfl⟩ | ⟨_, kept⟩
    · exact clock timely
    · exact Nat.le_trans (timely number participant kept) onward

theorem of_recorded {replaced growth : Nat} {taker later : Participant} {fault : Bool}
    (takes : before.participants[replaced]? = some taker)
    (grown : later.sequence.length = taker.sequence.length + growth)
    (gain : ∀ number, event.gain number = if replaced = number then growth else 0)
    (quiet : authoredAtoms [{ round, event }] = []) (eventful : event.eventful = fault)
    (clock : before.Timely earlier →
      later.replica.clock.latest.toNat ≤ (before.authored earlier).length) :
    Enters count earlier before
      (({ before with participants := before.participants.setIfInBounds replaced later }.noteFault
        fault).record round event) [{ round, event }] false := by
  apply of_replaced takes rfl grown
  case lengths => simp [tally, gain]
  case clock =>
    rw [authored_record_quiet _ _ _ quiet]
    exact clock
  case config => rfl
  case trace => simp [record, noteFault]
  case signed => exact signed_of_quiet quiet
  case interesting => simp [record, noteFault, eventful]

end Enters

section Parts

variable (count : Nat) (earlier : List Atom) (simulation : Simulation) (round : Nat)

theorem enters_drawPartition : ∃ steps,
    Enters count earlier simulation (simulation.drawPartition round) steps false ∧
      (∀ step ∈ steps, step.event.Aside) ∧
      (simulation.drawPartition round).network.inFlight = simulation.network.inFlight := by
  have untouched : ∀ generator,
      Enters count earlier simulation { simulation with generator } [] false :=
    fun _ => .of_participants_eq rfl (fun _ => rfl) rfl (by simp) rfl (by simp)
  unfold drawPartition
  dsimp only
  split
  · exact ⟨[], untouched _, by simp, rfl⟩
  generalize simulation.generator.hits simulation.config.fault.partitionPercent = toggle
  obtain ⟨toggles, generator⟩ := toggle
  dsimp only
  split
  · generalize generator.index simulation.participants.size = draw
    obtain ⟨replica, generator⟩ := draw
    let event : Event := .partition replica (!simulation.network.isIsolated replica)
    refine ⟨[{ round, event }], ?_, by simp [event, Event.Aside], rfl⟩
    exact .of_participants_eq rfl (fun _ => rfl) rfl (by simp [record, noteFault, event]) rfl rfl
  · exact ⟨[], untouched _, by simp, rfl⟩

theorem enters_sendMessage (message : Message) : ∃ sent : Sent,
    Enters count earlier simulation (simulation.sendMessage round message)
        [{ round
           event := .send message.sender message.receiver message.atom.id sent.dropped sent.duplicated
             sent.delay }] false ∧
      (simulation.sendMessage round message).network.inFlight =
        simulation.network.inFlight ++ sent.copies message round := by
  have sends := simulation.network.send_eq message round simulation.generator
  unfold sendMessage sendTo
  generalize simulation.network.send message round simulation.generator = result at sends
  obtain ⟨sent, network, generator⟩ := result
  refine ⟨sent, ?_, congrArg Network.inFlight sends⟩
  exact .of_participants_eq rfl (fun _ => rfl) rfl (by simp [record, noteFault]) rfl
    (by simp [record, noteFault, Event.eventful])

theorem enters_beginDelivery : ∃ steps,
    Enters count earlier simulation (simulation.beginDelivery round).2 steps false ∧
      (∀ step ∈ steps, step.event.Aside) ∧
      ((simulation.beginDelivery round).1 ++
          (simulation.beginDelivery round).2.network.inFlight.map (·.message)).Perm
        (simulation.network.inFlight.map (·.message)) := by
  obtain ⟨later, messages, _⟩ := simulation.network.deliver_takes round simulation.generator
  have parted : ((simulation.network.due round).map (·.message) ++
      (simulation.network.inFlight.filter (round < ·.dueRound)).map (·.message)).Perm
        (simulation.network.inFlight.map (·.message)) := by
    have parts := List.filter_append_perm (fun flight : Flight => decide (flight.dueRound ≤ round))
      simulation.network.inFlight
    rw [← List.map_append]
    simpa [Network.due, ← decide_not] using parts.map (·.message)
  have conserved := (messages.append_right _).trans parted
  unfold beginDelivery
  generalize simulation.network.deliver round simulation.generator = result at later conserved
  obtain ⟨delivery, network, generator⟩ := result
  dsimp only at later conserved ⊢
  subst later
  split
  · refine ⟨[{ round, event := .reorder delivery.messages.length }], ?_, by simp [Event.Aside],
      conserved⟩
    exact .of_participants_eq rfl (fun _ => rfl) rfl (by simp [record, noteFault]) rfl rfl
  · exact ⟨[], .of_participants_eq rfl (fun _ => rfl) rfl (by simp) rfl (by simp), by simp, conserved⟩

theorem enters_beginRest : Enters count earlier simulation simulation.beginRest.2 [] false :=
  .of_participants_eq rfl (fun _ => rfl) rfl (List.append_nil _).symm rfl (Bool.or_false _).symm

end Parts

/-- An event by which a message is handed over. -/
inductive HandsOver (message : Message) : Event → Prop where
  | deliver (arrival : Arrival) :
      HandsOver message (.deliver message.sender message.receiver message.atom.id arrival)
  | reject (why : Refusal) : HandsOver message (.reject message.receiver message.atom.id why)

theorem gain_deliver (number sender receiver : Nat) (id : AtomId) (reception : Reception) :
    (Event.deliver sender receiver id (.ofReception reception)).gain number =
      if receiver = number then Replica.gained (.ok reception) else 0 := by
  cases reception <;> simp [Arrival.ofReception, Event.gain, Replica.gained]

/-- To whom an author sends an atom. -/
structure Receivers (count fanout sender : Nat) (receivers : List Nat) : Prop where
  length : receivers.length = min fanout (count - 1)
  distinct : receivers.Nodup
  others : ∀ receiver ∈ receivers, receiver < count ∧ receiver ≠ sender

theorem receivers_of_perm {count fanout sender : Nat} {peers : List Nat} (inside : sender < count)
    (drawn : peers.Perm ((List.range count).filter (· != sender))) :
    Receivers count fanout sender (peers.take fanout) where
  length := by
    have erased := List.Nodup.erase_eq_filter (List.nodup_range (n := count)) sender
    rw [List.length_take, drawn.length_eq, ← erased,
      List.length_erase_of_mem (List.mem_range.mpr inside), List.length_range]
  distinct := (drawn.nodup_iff.mpr (List.nodup_range.filter _)).sublist (List.take_sublist _ _)
  others receiver member := by
    have peer := drawn.mem_iff.mp ((List.take_sublist _ _).subset member)
    simpa using peer

namespace Sound

variable {count : Nat} {earlier : List Atom} {simulation : Simulation}

theorem timestamp_le (sound : Sound count earlier simulation) (timely : simulation.Timely earlier)
    {atom : Atom} (known : atom ∈ simulation.authored earlier) :
    atom.id.timestamp.toNat ≤ (simulation.authored earlier).length := by
  obtain ⟨number, _, author, present, woven⟩ := Progress.wove_of_author sound known
  have heard := (sound.participants _ _ present).partakes.sound.heard atom
    (List.mem_append_left _ woven)
  exact Nat.le_trans (UInt64.le_iff_toNat_le.mp heard) (timely number author present)

theorem enters_handOver (sound : Sound count earlier simulation) (round : Nat) {message : Message}
    (known : message.atom ∈ simulation.authored earlier) (inside : message.receiver < count) :
    ∃ event, HandsOver message event ∧
      Enters count earlier simulation (simulation.handOver round message) [{ round, event }] false ∧
      (simulation.handOver round message).network = simulation.network := by
  rw [← sound.size] at inside
  have found := Array.getElem?_eq_getElem inside
  generalize simulation.participants[message.receiver] = receiver at found
  have grown := (sound.participants _ _ found).length_receive message.atom
  have clock : simulation.Timely earlier →
      (receiver.receive message.atom).2.replica.clock.latest.toNat ≤
        (simulation.authored earlier).length := by
    intro timely
    change (receiver.replica.receive message.atom).2.clock.latest.toNat ≤ _
    rw [Replica.clock_receive, LamportClock.toNat_latest_observe]
    exact Nat.max_le.mpr ⟨timely _ _ found, sound.timestamp_le timely known⟩
  unfold Simulation.handOver
  simp only [found]
  generalize receiver.receive message.atom = result at grown clock
  obtain ⟨outcome, later⟩ := result
  cases outcome with
  | ok reception =>
    refine ⟨_, .deliver (.ofReception reception), ?_, rfl⟩
    exact .of_recorded found grown (fun _ => gain_deliver ..) rfl rfl clock
  | error why =>
    refine ⟨_, .reject why, ?_, rfl⟩
    exact .of_recorded found grown (by simp [Event.gain, Replica.gained]) rfl rfl clock

/-- An exchange with an event or without one; it refuses nothing. -/
theorem enters_exchange (sound : Sound count earlier simulation) (round receiver sender : Nat) :
    ∃ steps, Enters count earlier simulation (simulation.exchange round receiver sender) steps false ∧
      (∀ step ∈ steps, step.event.Aside) ∧
      (simulation.exchange round receiver sender).network = simulation.network := by
  have untouched : Enters count earlier simulation simulation [] false :=
    .of_participants_eq rfl (fun _ => rfl) rfl (by simp) rfl (by simp)
  unfold Simulation.exchange
  cases gives : simulation.participants[sender]? with
  | none => exact ⟨[], untouched, by simp, rfl⟩
  | some giver =>
    cases takes : simulation.participants[receiver]? with
    | none => exact ⟨[], untouched, by simp, rfl⟩
    | some taker =>
      have grown := (sound.participants _ _ takes).length_receiveAll giver.sequence
      have refused := (sound.exchange_intake gives takes).2
      have clock : simulation.Timely earlier →
          (taker.receiveAll giver.sequence).2.replica.clock.latest.toNat ≤
            (simulation.authored earlier).length := by
        intro timely
        apply Replica.toNat_clock_receiveAll_le (timely _ _ takes)
        intro atom member
        exact sound.timestamp_le timely ((sound.participants _ _ gives).partakes.woven member)
      dsimp only
      generalize taker.receiveAll giver.sequence = result at grown refused clock
      obtain ⟨intake, later⟩ := result
      dsimp only at grown refused clock ⊢
      split
      · refine ⟨[{ round, event := .sync sender receiver intake.woven }], ?_, by simp [Event.Aside], rfl⟩
        exact .of_recorded takes grown (fun _ => rfl) rfl (by simp [refused, Event.eventful]) clock
      · rename_i none_woven
        refine ⟨[], ?_, by simp, rfl⟩
        apply Enters.of_replaced takes rfl grown
        case lengths => simp [tally, Nat.eq_zero_of_not_pos none_woven]
        case clock => exact clock
        case config => rfl
        case trace => simp [Simulation.noteFault]
        case signed => exact Enters.signed_of_quiet rfl
        case interesting => simp [Simulation.noteFault, refused]

/-- A turn in which an atom is authored and its receivers are drawn, unless the clock is exhausted. -/
theorem enters_beginTurn (sound : Sound count earlier simulation) (round : Nat) {sender : Nat}
    (inside : sender < count) :
    (simulation.beginTurn round sender).2.network = simulation.network ∧
      ((simulation.Exhausted ∧ (simulation.beginTurn round sender).1 = [] ∧
          Enters count earlier simulation (simulation.beginTurn round sender).2 [] true) ∨
        ∃ atom receivers, Receivers count simulation.config.fanout sender receivers ∧
          (simulation.beginTurn round sender).1 =
            receivers.map (fun receiver => { sender, receiver, atom }) ∧
          Enters count earlier simulation (simulation.beginTurn round sender).2
            [{ round, event := .emit sender atom }] false) := by
  have present := inside
  rw [← sound.size] at present
  have found := Array.getElem?_eq_getElem present
  generalize simulation.participants[sender] = author at found
  have participant := sound.participants _ _ found
  have authors := participant.author simulation.config.authoringRates simulation.generator
  have fails := participant.author_fails simulation.config.authoringRates simulation.generator
  have grows := participant.author_grows sound.history simulation.config.authoringRates
    simulation.generator
  unfold Simulation.beginTurn
  simp only [found]
  generalize author.author simulation.config.authoringRates simulation.generator = result
    at authors fails grows
  obtain ⟨outcome, later, generator⟩ := result
  rcases authors with ⟨why, refused, same⟩ | ⟨atom, accepted, site, _, _, _⟩
  · cases refused
    obtain ⟨exhausted, sequence, clock⟩ := fails why rfl
    have spent : simulation.Exhausted := ⟨sender, author, found, exhausted⟩
    refine ⟨rfl, .inl ⟨spent, rfl, ?_⟩⟩
    have same : later.sequence.length = author.sequence.length + 0 := congrArg List.length sequence
    apply Enters.of_replaced found rfl same
    case lengths => simp [tally]
    case clock =>
      intro timely
      dsimp only at clock
      rw [clock]
      exact timely _ _ found
    case config => rfl
    case trace => simp [Simulation.noteFault]
    case signed => exact Enters.signed_of_quiet rfl
    case interesting => simp [Simulation.noteFault]
  · cases accepted
    obtain ⟨grown, clock⟩ := grows atom rfl
    have perm := generator.shuffle_perm
      ((Array.range simulation.participants.size).filter (· != sender))
    simp only [Simulation.record, Array.size_setIfInBounds]
    generalize generator.shuffle _ = shuffled at perm
    obtain ⟨peers, drawn⟩ := shuffled
    refine ⟨trivial, .inr ⟨atom, peers.toList.take simulation.config.fanout, ?_, rfl, ?_⟩⟩
    · apply receivers_of_perm inside
      simpa [sound.size] using perm
    · apply Enters.of_replaced found rfl grown
      case lengths => simp [tally, Event.gain]
      case clock =>
        intro timely
        have before := timely _ _ found
        dsimp only at clock
        rw [clock]
        simpa [Simulation.authored, Simulation.record, authoredAtoms, ← Nat.add_assoc] using before
      case config => rfl
      case trace => simp
      case signed =>
        intro step member number other emits
        rw [List.mem_singleton.mp member] at emits
        cases emits
        exact ⟨inside, site⟩
      case interesting => simp [Event.eventful]

end Sound

end CausalWeave.Simulation
