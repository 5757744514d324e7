import CausalWeave.Proofs.Generator
import CausalWeave.Simulation.Network
import Mathlib.Data.List.Basic
import Mathlib.Data.List.Induction

namespace CausalWeave.Simulation

/-- The copies of a message that a send puts into flight, by what became of it. -/
def Sent.copies (sent : Sent) (message : Message) (round : Nat) : List Flight :=
  if sent.dropped then []
  else List.replicate (if sent.duplicated then 2 else 1)
    { dueRound := min (round + sent.delay) Network.lastRound, message }

theorem Sent.message_of_mem_copies (sent : Sent) {message : Message} {round : Nat} {flight : Flight}
    (copied : flight ∈ sent.copies message round) : flight.message = message := by
  unfold Sent.copies at copied
  split at copied
  · simp at copied
  · rw [List.eq_of_mem_replicate copied]

namespace Network

def due (network : Network) (round : Nat) : List Flight :=
  network.inFlight.filter (·.dueRound ≤ round)

/-- A send adds its copies behind all others in flight and changes nothing else. -/
theorem send_eq (network : Network) (message : Message) (round : Nat) (generator : Generator) :
    (network.send message round generator).2.1 =
      { network with inFlight := network.inFlight ++
          (network.send message round generator).1.copies message round } := by
  unfold send
  split
  · simp [Sent.copies, Sent.lost]
  generalize generator.hits network.fault.dropPercent = drop
  obtain ⟨dropped, generator⟩ := drop
  dsimp only
  split
  · simp [Sent.copies, Sent.lost]
  generalize generator.below (network.fault.maxDelay.toUInt64 + 1) = wait
  obtain ⟨delay, generator⟩ := wait
  dsimp only
  generalize generator.hits network.fault.duplicatePercent = copy
  obtain ⟨duplicated, generator⟩ := copy
  cases duplicated <;> simp [Sent.copies, List.replicate]

theorem delay_send_le (network : Network) (message : Message) (round : Nat) (generator : Generator) :
    (network.send message round generator).1.delay ≤ network.fault.maxDelay.toNat := by
  unfold send
  split
  · exact Nat.zero_le _
  generalize generator.hits network.fault.dropPercent = drop
  obtain ⟨dropped, generator⟩ := drop
  dsimp only
  split
  · exact Nat.zero_le _
  dsimp only
  have bound : (network.fault.maxDelay.toUInt64 + 1).toNat = network.fault.maxDelay.toNat + 1 := by
    have small := network.fault.maxDelay.toNat_lt
    rw [UInt64.toNat_add, UInt8.toNat_toUInt64, UInt64.toNat_one, Nat.mod_eq_of_lt (by omega)]
  have drawn : (generator.below (network.fault.maxDelay.toUInt64 + 1)).1.toNat <
      (network.fault.maxDelay.toUInt64 + 1).toNat := generator.toNat_below_lt (by omega)
  omega

theorem send_of_isolated (network : Network) {message : Message} (round : Nat) (generator : Generator)
    (isolated : network.isIsolated message.sender = true ∨ network.isIsolated message.receiver = true) :
    network.send message round generator = (.lost, network, generator) := by
  unfold send
  rw [if_pos (by simpa using isolated)]

/-- A delivery takes the flights that are due and leaves the others. -/
theorem deliver_takes (network : Network) (round : Nat) (generator : Generator) :
    (network.deliver round generator).2.1 =
        { network with inFlight := network.inFlight.filter (round < ·.dueRound) } ∧
      (network.deliver round generator).1.messages.Perm ((network.due round).map (·.message)) ∧
      ((network.deliver round generator).1.reordered = false →
        (network.deliver round generator).1.messages = (network.due round).map (·.message)) := by
  have later : (network.inFlight.partition (·.dueRound ≤ round)).2 =
      network.inFlight.filter (round < ·.dueRound) := by
    rw [List.partition_eq_filter_filter]
    apply List.filter_congr
    intro flight _
    simp only [Function.comp_apply, ← decide_not, Nat.not_le]
  have ready : (network.inFlight.partition (·.dueRound ≤ round)).1 = network.due round := by
    rw [List.partition_eq_filter_filter]
    rfl
  unfold deliver
  simp only [← later, ← ready]
  generalize network.inFlight.partition (·.dueRound ≤ round) = parts
  obtain ⟨ready, later⟩ := parts
  dsimp only
  split
  · exact ⟨rfl, .refl _, fun _ => rfl⟩
  generalize generator.hits network.fault.reorderPercent = reorder
  obtain ⟨reordered, generator⟩ := reorder
  dsimp only
  split
  · rename_i shuffles
    refine ⟨rfl, ?_, by simp [shuffles]⟩
    simpa using generator.shuffle_perm (ready.map (·.message)).toArray
  · exact ⟨rfl, .refl _, fun _ => rfl⟩

inductive Call where
  | send (message : Message) (round : Nat) (generator : Generator)
  | deliver (round : Nat) (generator : Generator)
  | drain
  | setIsolated (replica : Nat) (isolated : Bool)
  | heal

inductive Answer where
  | sent (sent : Sent) (generator : Generator)
  | delivered (delivery : Delivery) (generator : Generator)
  | drained (messages : List Message)
  | done

def perform (network : Network) : Call → Answer × Network
  | .send message round generator =>
    let (sent, later, generator) := network.send message round generator
    (.sent sent generator, later)
  | .deliver round generator =>
    let (delivery, later, generator) := network.deliver round generator
    (.delivered delivery generator, later)
  | .drain =>
    let (messages, later) := network.drain
    (.drained messages, later)
  | .setIsolated replica isolated => (.done, network.setIsolated replica isolated)
  | .heal => (.done, network.heal)

def after (network : Network) (calls : List Call) : Network :=
  calls.foldl (fun network call => (network.perform call).2) network

def log (network : Network) : List Call → List (Call × Answer)
  | [] => []
  | call :: rest => (call, (network.perform call).1) :: (network.perform call).2.log rest

/-- The copies that a call puts into flight, by its answer. -/
def accepted : Call × Answer → List Flight
  | (.send message round _, .sent sent _) => sent.copies message round
  | _ => []

def handedOut : Call × Answer → List Message
  | (_, .delivered delivery _) => delivery.messages
  | (_, .drained messages) => messages
  | _ => []

/-- Whether a call takes a copy out of flight. -/
def Call.takes : Call → Flight → Bool
  | .deliver round _, flight => flight.dueRound ≤ round
  | .drain, _ => true
  | _, _ => false

/-- The accepted copies that no call has taken out of flight since, in the order of sending. -/
def outstanding : List (Call × Answer) → List Flight
  | [] => []
  | entry :: later =>
    (accepted entry).filter (fun flight => later.all fun entry => !entry.1.takes flight) ++
      outstanding later

/-- Whether a replica is isolated by what was last said of it. -/
def isolatedBy (replica : Nat) (calls : List Call) : Bool :=
  calls.foldl
    (fun isolated call =>
      match call with
      | .setIsolated other isolates => if other = replica then isolates else isolated
      | .heal => false
      | _ => isolated)
    false

theorem after_concat (network : Network) (calls : List Call) (call : Call) :
    network.after (calls ++ [call]) = ((network.after calls).perform call).2 := by
  simp [after]

theorem log_concat (network : Network) (calls : List Call) (call : Call) :
    network.log (calls ++ [call]) =
      network.log calls ++ [(call, ((network.after calls).perform call).1)] := by
  induction calls generalizing network with
  | nil => rfl
  | cons first rest ih => simp [log, after, ih]

theorem outstanding_concat (entries : List (Call × Answer)) (entry : Call × Answer) :
    outstanding (entries ++ [entry]) =
      (outstanding entries).filter (fun flight => !entry.1.takes flight) ++ accepted entry := by
  induction entries with
  | nil => simp [outstanding]
  | cons first rest ih =>
    simp only [List.cons_append, outstanding, ih, List.all_append, List.filter_append,
      List.filter_filter, List.append_assoc, List.all_cons, List.all_nil, Bool.and_true]
    simp only [Bool.and_comm]

theorem fault_perform (network : Network) (call : Call) :
    (network.perform call).2.fault = network.fault := by
  cases call with
  | send => simp [perform, send_eq]
  | deliver round generator => simp [perform, (network.deliver_takes round generator).1]
  | _ => rfl

theorem fault_after (network : Network) (calls : List Call) :
    (network.after calls).fault = network.fault := by
  induction calls using List.reverseRecOn with
  | nil => rfl
  | append_singleton calls call ih => rw [after_concat, fault_perform, ih]

/-- A call lets go of the flights that it takes and adds those that it accepts. -/
theorem inFlight_perform (network : Network) (call : Call) :
    (network.perform call).2.inFlight =
      network.inFlight.filter (fun flight => !call.takes flight) ++
        accepted (call, (network.perform call).1) := by
  cases call with
  | send message round generator => simp [perform, send_eq, accepted, Call.takes, List.filter_true]
  | deliver round generator =>
    simp [perform, (network.deliver_takes round generator).1, accepted, Call.takes, ← decide_not]
  | drain => simp [perform, drain, accepted, Call.takes]
  | setIsolated => simp [perform, setIsolated, accepted, Call.takes, List.filter_true]
  | heal => simp [perform, heal, accepted, Call.takes, List.filter_true]

/-- A call hands out what it takes. -/
theorem handedOut_perm (network : Network) (call : Call) :
    (handedOut (call, (network.perform call).1)).Perm
      ((network.inFlight.filter fun flight => call.takes flight).map (·.message)) := by
  cases call with
  | deliver round generator => exact (network.deliver_takes round generator).2.1
  | drain => simp [perform, drain, handedOut, Call.takes, List.filter_true]
  | _ => simp [perform, handedOut, Call.takes]

theorem inFlight_after (fault : FaultModel) (calls : List Call) :
    (after { fault } calls).inFlight = outstanding (log { fault } calls) := by
  induction calls using List.reverseRecOn with
  | nil => rfl
  | append_singleton calls call ih =>
    rw [after_concat, inFlight_perform, log_concat, outstanding_concat, ih]

theorem handedOut_after_perm (fault : FaultModel) (calls : List Call) :
    ((log { fault } calls).flatMap handedOut ++
        (after { fault } calls).inFlight.map (·.message)).Perm
      (((log { fault } calls).flatMap accepted).map (·.message)) := by
  induction calls using List.reverseRecOn with
  | nil => simp [log, after]
  | append_singleton calls call ih =>
    rw [after_concat, log_concat]
    generalize after { fault } calls = network at ih
    have taken := network.handedOut_perm call
    have parted := List.filter_append_perm call.takes network.inFlight
    rw [inFlight_perform]
    simp only [List.flatMap_append, List.flatMap_cons, List.flatMap_nil, List.append_nil,
      List.map_append, List.append_assoc]
    rw [← List.append_assoc, ← List.append_assoc]
    apply List.Perm.append_right
    apply List.Perm.trans _ ih
    rw [List.append_assoc]
    apply List.Perm.append_left
    apply (taken.append_right _).trans
    rw [← List.map_append]
    exact parted.map _

theorem isIsolated_perform (network : Network) (call : Call) (replica : Nat) :
    (network.perform call).2.isIsolated replica =
      match call with
      | .setIsolated other isolates =>
        if other = replica then isolates else network.isIsolated replica
      | .heal => false
      | _ => network.isIsolated replica := by
  cases call with
  | send => simp [perform, send_eq, isIsolated]
  | deliver round generator => simp [perform, (network.deliver_takes round generator).1, isIsolated]
  | drain => rfl
  | setIsolated other isolates =>
    by_cases same : other = replica
    · cases isolates <;> simp [perform, setIsolated, isIsolated, same]
    · cases isolates <;> simp [perform, setIsolated, isIsolated, same, Ne.symm same]
  | heal => rfl

theorem isIsolated_after (fault : FaultModel) (calls : List Call) (replica : Nat) :
    (after { fault } calls).isIsolated replica = isolatedBy replica calls := by
  induction calls using List.reverseRecOn with
  | nil => rfl
  | append_singleton calls call ih =>
    rw [after_concat, isIsolated_perform, ih, isolatedBy, isolatedBy, List.foldl_append]
    rfl

/-- What a send does on a network on which some calls were made. -/
structure Sends (fault : FaultModel) (calls : List Call) (message : Message) (generator : Generator)
    (result : Sent × Network × Generator) : Prop where
  delay : result.1.delay ≤ fault.maxDelay.toNat
  /-- A message from or to an isolated replica is lost, and nothing is drawn. -/
  isolated : isolatedBy message.sender calls = true ∨ isolatedBy message.receiver calls = true →
    result = (.lost, after { fault } calls, generator)

/-- What a delivery does on a network. -/
structure Delivers (network : Network) (round : Nat) (result : Delivery × Network × Generator) :
    Prop where
  messages : result.1.messages.Perm ((network.due round).map (·.message))
  inOrder : result.1.reordered = false → result.1.messages = (network.due round).map (·.message)
  left : ∀ flight ∈ result.2.1.inFlight, round < flight.dueRound

/-- After any calls, with any generators, the messages handed out and those in flight are the messages that
were accepted. In flight are the copies that no call has taken since they were accepted, in the order in which
they were sent. A delivery hands out those of them that are due. -/
theorem conserves_messages (fault : FaultModel) (calls : List Call) :
    let network := after { fault } calls
    let entries := log { fault } calls
    (entries.flatMap handedOut ++ network.inFlight.map (·.message)).Perm
        ((entries.flatMap accepted).map (·.message)) ∧
      network.inFlight = outstanding entries ∧
      (∀ message round generator,
        Sends fault calls message generator (network.send message round generator)) ∧
      ∀ round generator, Delivers network round (network.deliver round generator) := by
  intro network entries
  refine ⟨handedOut_after_perm fault calls, inFlight_after fault calls, ?_, ?_⟩
  · intro message round generator
    constructor
    case delay =>
      rw [show fault = network.fault from (fault_after { fault } calls).symm]
      exact network.delay_send_le message round generator
    case isolated =>
      rw [← isIsolated_after fault, ← isIsolated_after fault]
      exact network.send_of_isolated round generator
  · intro round generator
    obtain ⟨later, messages, inOrder⟩ := network.deliver_takes round generator
    refine ⟨messages, inOrder, ?_⟩
    intro flight member
    rw [later, List.mem_filter] at member
    simpa using member.2

end Network
end CausalWeave.Simulation
