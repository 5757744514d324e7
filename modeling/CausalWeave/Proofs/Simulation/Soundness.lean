import CausalWeave.Proofs.Simulation.Participant
import CausalWeave.Proofs.Simulation.Parts

namespace CausalWeave.Simulation

/-- The atoms authored in earlier runs and in this one. -/
def authored (simulation : Simulation) (earlier : List Atom) : List Atom :=
  earlier ++ authoredAtoms simulation.trace.toList

/-- The event is no exchange, or one that the first replica takes part in. -/
def Event.Central : Event → Prop
  | .sync sender receiver _ => sender = 0 ∨ receiver = 0
  | _ => True

/-- A simulation with some number of participants in which some atoms were authored earlier. -/
structure Sound (count : Nat) (earlier : List Atom) (simulation : Simulation) : Prop where
  size : simulation.participants.size = count
  history : History (simulation.authored earlier)
  participants : ∀ (number : Nat) (participant : Participant),
    simulation.participants[number]? = some participant →
      participant.Sound (simulation.authored earlier) number
  authors : ∀ atom ∈ simulation.authored earlier, ∃ number < count, atom.id.site = siteOf number
  inFlight : ∀ flight ∈ simulation.network.inFlight,
    flight.message.atom ∈ simulation.authored earlier
  central : ∀ step ∈ simulation.trace.toList, step.event.Central

namespace Network

theorem mem_send (network : Network) (message : Message) (round : Nat) (generator : Generator) :
    ∀ flight ∈ (network.send message round generator).2.1.inFlight,
      flight ∈ network.inFlight ∨ flight.message = message := by
  intro flight member
  unfold send at member
  split at member
  · exact .inl member
  generalize generator.hits network.fault.dropPercent = drop at member
  obtain ⟨dropped, generator⟩ := drop
  dsimp only at member
  split at member
  · exact .inl member
  generalize generator.below (network.fault.maxDelay.toUInt64 + 1) = wait at member
  obtain ⟨delay, generator⟩ := wait
  dsimp only at member
  generalize generator.hits network.fault.duplicatePercent = copy at member
  obtain ⟨duplicated, generator⟩ := copy
  rcases List.mem_append.mp member with old | new
  · exact .inl old
  · right
    dsimp only at new
    split at new <;> simp_all

theorem mem_deliver (network : Network) (round : Nat) (generator : Generator) :
    (∀ message ∈ (network.deliver round generator).1.messages,
      ∃ flight ∈ network.inFlight, flight.message = message) ∧
    ∀ flight ∈ (network.deliver round generator).2.1.inFlight, flight ∈ network.inFlight := by
  have ready : ∀ message ∈ (network.inFlight.partition (·.dueRound ≤ round)).1.map (·.message),
      ∃ flight ∈ network.inFlight, flight.message = message := by
    intro message member
    obtain ⟨flight, due, same⟩ := List.mem_map.mp member
    rw [List.partition_eq_filter_filter] at due
    exact ⟨flight, (List.mem_filter.mp due).1, same⟩
  have later : ∀ flight ∈ (network.inFlight.partition (·.dueRound ≤ round)).2,
      flight ∈ network.inFlight := by
    intro flight member
    rw [List.partition_eq_filter_filter] at member
    exact (List.mem_filter.mp member).1
  unfold deliver
  generalize network.inFlight.partition (·.dueRound ≤ round) = parts at ready later
  obtain ⟨due, rest⟩ := parts
  dsimp only
  split
  · exact ⟨ready, later⟩
  generalize generator.hits network.fault.reorderPercent = reorder
  obtain ⟨reordered, generator⟩ := reorder
  dsimp only
  split
  · refine ⟨?_, later⟩
    intro message member
    have shuffled := generator.shuffle_perm (due.map (·.message)).toArray
    exact ready message (by simpa using shuffled.mem_iff.mp member)
  · exact ⟨ready, later⟩

end Network

theorem mem_setIfInBounds {items : Array α} {item found : α} {index number : Nat}
    (present : (items.setIfInBounds index item)[number]? = some found) :
    number = index ∧ found = item ∨ number ≠ index ∧ items[number]? = some found := by
  rw [Array.getElem?_setIfInBounds] at present
  split at present
  · rename_i same
    split at present
    · exact .inl ⟨same.symm, (Option.some.inj present).symm⟩
    · simp at present
  · rename_i apart
    exact .inr ⟨Ne.symm apart, present⟩

theorem authored_record (simulation : Simulation) (earlier : List Atom) (round : Nat)
    (event : Event) : (simulation.record round event).authored earlier =
      simulation.authored earlier ++ authoredAtoms [{ round, event }] := by
  simp [authored, record, authoredAtoms]

theorem authored_record_quiet (simulation : Simulation) (earlier : List Atom) (round : Nat)
    {event : Event} (quiet : authoredAtoms [{ round, event }] = []) :
    (simulation.record round event).authored earlier = simulation.authored earlier := by
  rw [authored_record, quiet, List.append_nil]

namespace Sound

variable {count : Nat} {earlier : List Atom} {simulation : Simulation}

/-- Only the participants, the messages in flight and the trace matter. -/
theorem of_eq (sound : Sound count earlier simulation) {other : Simulation}
    (participants : other.participants = simulation.participants)
    (trace : other.trace = simulation.trace)
    (inFlight : ∀ flight ∈ other.network.inFlight,
      flight.message.atom ∈ simulation.authored earlier) : Sound count earlier other := by
  have same : other.authored earlier = simulation.authored earlier := by rw [authored, trace, authored]
  exact
    { size := participants ▸ sound.size
      history := same ▸ sound.history
      participants := same ▸ participants ▸ sound.participants
      authors := same ▸ sound.authors
      inFlight := same ▸ inFlight
      central := trace ▸ sound.central }

private theorem central_record (sound : Sound count earlier simulation) (round : Nat)
    {event : Event} (central : event.Central) :
    ∀ step ∈ (simulation.record round event).trace.toList, step.event.Central := by
  intro step member
  rw [Simulation.record, Array.toList_push] at member
  rcases List.mem_append.mp member with old | new
  · exact sound.central step old
  · rw [List.mem_singleton.mp new]
    exact central

theorem record (sound : Sound count earlier simulation) (round : Nat) {event : Event}
    (quiet : authoredAtoms [{ round, event }] = []) (central : event.Central) :
    Sound count earlier (simulation.record round event) := by
  have same := authored_record_quiet simulation earlier round quiet
  exact
    { size := sound.size
      history := same ▸ sound.history
      participants := same ▸ sound.participants
      authors := same ▸ sound.authors
      inFlight := same ▸ sound.inFlight
      central := sound.central_record round central }

theorem noteFault (sound : Sound count earlier simulation) (fault : Bool) :
    Sound count earlier (simulation.noteFault fault) :=
  sound.of_eq rfl rfl sound.inFlight

theorem update (sound : Sound count earlier simulation) {number : Nat} {participant : Participant}
    (updated : participant.Sound (simulation.authored earlier) number) :
    Sound count earlier
      { simulation with
        participants := simulation.participants.setIfInBounds number participant } where
  size := by rw [Array.size_setIfInBounds, sound.size]
  history := sound.history
  participants := by
    intro other found present
    rcases mem_setIfInBounds present with ⟨rfl, rfl⟩ | ⟨_, kept⟩
    · exact updated
    · exact sound.participants other found kept
  authors := sound.authors
  inFlight := sound.inFlight
  central := sound.central

theorem drawPartition (sound : Sound count earlier simulation) (round : Nat) :
    Sound count earlier (simulation.drawPartition round) := by
  rw [Simulation.drawPartition]
  split
  · exact sound
  generalize simulation.generator.hits simulation.config.fault.partitionPercent = toggle
  obtain ⟨toggles, generator⟩ := toggle
  dsimp only
  split
  · generalize generator.index simulation.participants.size = draw
    obtain ⟨replica, generator⟩ := draw
    have changed : Sound count earlier { simulation with
        generator
        network := simulation.network.setIsolated replica
          (!simulation.network.isIsolated replica) } := sound.of_eq rfl rfl sound.inFlight
    exact (changed.noteFault true).record round rfl trivial
  · exact sound.of_eq rfl rfl sound.inFlight

theorem sendTo (sound : Sound count earlier simulation) (round sender : Nat) {atom : Atom}
    (known : atom ∈ simulation.authored earlier) (receiver : Nat) :
    Sound count earlier (simulation.sendTo round sender atom receiver) ∧
      (simulation.sendTo round sender atom receiver).authored earlier =
        simulation.authored earlier := by
  have inFlight := simulation.network.mem_send { sender, receiver, atom } round simulation.generator
  unfold Simulation.sendTo
  generalize simulation.network.send { sender, receiver, atom } round simulation.generator = result
    at inFlight
  obtain ⟨sent, network, generator⟩ := result
  have changed : Sound count earlier { simulation with network, generator } := by
    refine sound.of_eq rfl rfl ?_
    intro flight member
    rcases inFlight flight member with old | new
    · exact sound.inFlight flight old
    · rw [new]
      exact known
  exact ⟨(changed.noteFault _).record round rfl trivial, authored_record_quiet _ _ _ rfl⟩

theorem foldl_sendMessage (sound : Sound count earlier simulation) (round : Nat)
    {messages : List Message}
    (known : ∀ message ∈ messages, message.atom ∈ simulation.authored earlier) :
    Sound count earlier (messages.foldl (sendMessage round) simulation) := by
  induction messages generalizing simulation with
  | nil => exact sound
  | cons message rest ih =>
    obtain ⟨sent, same⟩ := sound.sendTo round message.sender (known message (by simp)) message.receiver
    apply ih sent
    intro other member
    rw [same]
    exact known other (by simp [member])

theorem handOver (sound : Sound count earlier simulation) (round : Nat) {message : Message}
    (known : message.atom ∈ simulation.authored earlier) :
    Sound count earlier (simulation.handOver round message) ∧
      (simulation.handOver round message).authored earlier = simulation.authored earlier := by
  unfold Simulation.handOver
  cases found : simulation.participants[message.receiver]? with
  | none => exact ⟨sound, rfl⟩
  | some receiver =>
    have received := (sound.participants _ _ found).receive known
    dsimp only
    generalize receiver.receive message.atom = result at received
    obtain ⟨outcome, receiver⟩ := result
    have changed := sound.update received
    cases outcome with
    | ok reception =>
      exact ⟨(changed.noteFault _).record round rfl trivial, authored_record_quiet _ _ _ rfl⟩
    | error why =>
      exact ⟨(changed.noteFault _).record round rfl trivial, authored_record_quiet _ _ _ rfl⟩

theorem foldl_handOver (sound : Sound count earlier simulation) (round : Nat)
    {messages : List Message}
    (known : ∀ message ∈ messages, message.atom ∈ simulation.authored earlier) :
    Sound count earlier
      (messages.foldl (fun simulation message => simulation.handOver round message) simulation) := by
  induction messages generalizing simulation with
  | nil => exact sound
  | cons message rest ih =>
    obtain ⟨handed, same⟩ := sound.handOver round (known message (by simp))
    apply ih handed
    intro other member
    rw [same]
    exact known other (by simp [member])

theorem beginDelivery (sound : Sound count earlier simulation) (round : Nat) :
    Sound count earlier (simulation.beginDelivery round).2 ∧
      ∀ message ∈ (simulation.beginDelivery round).1,
        message.atom ∈ (simulation.beginDelivery round).2.authored earlier := by
  have delivers := simulation.network.mem_deliver round simulation.generator
  unfold Simulation.beginDelivery
  generalize simulation.network.deliver round simulation.generator = result at delivers
  obtain ⟨delivery, network, generator⟩ := result
  obtain ⟨handed, later⟩ := delivers
  have known : ∀ message ∈ delivery.messages, message.atom ∈ simulation.authored earlier := by
    intro message member
    obtain ⟨flight, flying, same⟩ := handed message member
    exact same ▸ sound.inFlight flight flying
  have changed : Sound count earlier { simulation with network, generator } := by
    refine sound.of_eq rfl rfl ?_
    intro flight member
    exact sound.inFlight flight (later flight member)
  dsimp only
  split
  · refine ⟨(changed.noteFault true).record round rfl trivial, ?_⟩
    intro message member
    rw [authored_record_quiet _ _ _ rfl]
    exact known message member
  · exact ⟨changed, known⟩

theorem deliverDue (sound : Sound count earlier simulation) (round : Nat) :
    Sound count earlier (simulation.deliverDue round) := by
  obtain ⟨begun, known⟩ := sound.beginDelivery round
  exact begun.foldl_handOver round known

theorem beginRest (sound : Sound count earlier simulation) :
    Sound count earlier simulation.beginRest.2 ∧
      ∀ message ∈ simulation.beginRest.1, message.atom ∈ simulation.beginRest.2.authored earlier := by
  constructor
  · refine sound.of_eq rfl rfl ?_
    intro flight member
    simp [Simulation.beginRest, Network.drain] at member
  · intro message member
    obtain ⟨flight, flying, same⟩ := List.mem_map.mp member
    exact same ▸ sound.inFlight flight flying

theorem handOverRest (sound : Sound count earlier simulation) (round : Nat) :
    Sound count earlier (simulation.handOverRest round) := by
  obtain ⟨begun, known⟩ := sound.beginRest
  exact begun.foldl_handOver round known

theorem emit (sound : Sound count earlier simulation) {sender : Nat} (taking_part : sender < count)
    {atom : Atom} (site : atom.id.site = siteOf sender)
    (fresh : ∀ other ∈ simulation.authored earlier, other.id.key ≠ atom.id.key)
    (causal : ∀ cause ∈ atom.cause, ∃ parent ∈ simulation.authored earlier,
      parent.id = cause ∧ cause.timestamp < atom.id.timestamp)
    {author : Participant} (later : author.Sound (simulation.authored earlier ++ [atom]) sender)
    (generator : Generator) (round : Nat) :
    Sound count earlier
      ({ simulation with
          participants := simulation.participants.setIfInBounds sender author
          generator }.record round (.emit sender atom)) := by
  have grown : ({ simulation with
      participants := simulation.participants.setIfInBounds sender author
      generator }.record round (.emit sender atom)).authored earlier =
        simulation.authored earlier ++ [atom] := authored_record _ _ _ _
  constructor
  case size => exact (Array.size_setIfInBounds ..).trans sound.size
  case history =>
    rw [grown]
    exact sound.history.author fresh causal
  case participants =>
    intro number participant present
    rw [grown]
    rcases mem_setIfInBounds present with ⟨rfl, rfl⟩ | ⟨apart, kept⟩
    · exact later
    · apply (sound.participants number participant kept).author_elsewhere
      intro here
      exact apart (siteOf_injective (here.symm.trans site))
  case inFlight =>
    intro flight flying
    rw [grown]
    exact List.mem_append_left _ (sound.inFlight flight flying)
  case central => exact sound.central_record round trivial
  case authors =>
    intro other member
    rw [grown] at member
    rcases List.mem_append.mp member with old | new
    · exact sound.authors other old
    · rw [List.mem_singleton.mp new]
      exact ⟨sender, taking_part, site⟩

theorem beginTurn (sound : Sound count earlier simulation) (round sender : Nat) :
    Sound count earlier (simulation.beginTurn round sender).2 ∧
      ∀ message ∈ (simulation.beginTurn round sender).1,
        message.atom ∈ (simulation.beginTurn round sender).2.authored earlier := by
  unfold Simulation.beginTurn
  cases found : simulation.participants[sender]? with
  | none => exact ⟨sound, by simp⟩
  | some author =>
    have taking_part : sender < count := by
      rw [← sound.size]
      exact (Array.getElem?_eq_some_iff.mp found).1
    have authors := (sound.participants _ _ found).author simulation.config.authoringRates
      simulation.generator
    dsimp only
    generalize author.author simulation.config.authoringRates simulation.generator = result at authors
    obtain ⟨outcome, author, generator⟩ := result
    rcases authors with ⟨why, refused, same⟩ | ⟨atom, accepted, site, fresh, causal, later⟩
    · cases refused
      have changed : Sound count earlier { simulation with
          participants := simulation.participants.setIfInBounds sender author
          generator } := (sound.update same).of_eq rfl rfl sound.inFlight
      exact ⟨changed.noteFault true, by simp⟩
    · cases accepted
      have emitted := sound.emit taking_part site fresh causal later generator round
      have known : atom ∈ ({ simulation with
          participants := simulation.participants.setIfInBounds sender author
          generator }.record round (.emit sender atom)).authored earlier := by
        rw [authored_record]
        exact List.mem_append_right _ (by simp [authoredAtoms])
      dsimp only
      generalize Simulation.record _ _ _ = state at emitted known ⊢
      generalize Generator.shuffle _ _ = shuffled
      obtain ⟨peers, generator⟩ := shuffled
      refine ⟨emitted.of_eq rfl rfl emitted.inFlight, ?_⟩
      intro message member
      obtain ⟨_, _, rfl⟩ := List.mem_map.mp member
      exact known

theorem takeTurn (sound : Sound count earlier simulation) (round sender : Nat) :
    Sound count earlier (simulation.takeTurn round sender) := by
  obtain ⟨begun, known⟩ := sound.beginTurn round sender
  rw [takeTurn_eq]
  exact begun.foldl_sendMessage round known

theorem playRound (sound : Sound count earlier simulation) (round : Nat) :
    Sound count earlier (simulation.playRound round) :=
  (List.foldlRecOn _ _ (sound.drawPartition round) fun _ sound sender _ =>
    sound.takeTurn round sender).deliverDue round

theorem playRounds (sound : Sound count earlier simulation) (rounds : List Nat) :
    Sound count earlier (rounds.foldl Simulation.playRound simulation) :=
  List.foldlRecOn _ _ sound fun _ sound round _ => sound.playRound round

end Sound

/-- All is sound when nothing has happened yet. -/
theorem sound_start {config : Config} (accepted : config.problem? = none) :
    ∃ simulation, start config = .ok simulation ∧ simulation.config = config ∧
      Sound config.replicaCount [] simulation := by
  refine ⟨_, by rw [start, accepted], rfl, ?_⟩
  constructor
  case size => simp
  case history => exact .nil
  case participants =>
    intro number participant present
    rw [Array.getElem?_map, Option.map_eq_some_iff] at present
    obtain ⟨index, drawn, rfl⟩ := present
    rw [Array.getElem?_range] at drawn
    split at drawn
    · cases drawn
      exact Participant.sound_fresh number config.replica
    · simp at drawn
  case authors => simp [authored, authoredAtoms]
  case inFlight => simp
  case central => simp

end CausalWeave.Simulation
