import CausalWeave.Simulation.Config
import CausalWeave.Simulation.Convergence
import CausalWeave.Simulation.Trace

namespace CausalWeave

structure Simulation where
  config : Simulation.Config
  generator : Generator
  network : Simulation.Network
  participants : Array Simulation.Participant
  /-- What has happened since the run began. -/
  trace : Array Simulation.TraceStep := #[]
  /-- Whether something has gone wrong so far, in this run or an earlier one. -/
  interesting : Bool := false

namespace Simulation

/-- What a run leaves behind. -/
structure Outcome where
  trace : List TraceStep
  states : List Snapshot
  convergence : Convergence
  /-- Whether anything has gone wrong: a fault, or an atom that had to wait or was refused. -/
  interesting : Bool

/-- A simulation with replicas that hold nothing. -/
def start (config : Config) : Except ConfigProblem Simulation :=
  match config.problem? with
  | some problem => .error problem
  | none =>
    .ok
      { config
        generator := Generator.ofSeed config.seed
        network := { fault := config.fault }
        participants :=
          (Array.range config.replicaCount).map fun number =>
            Participant.fresh number config.replica }

def record (simulation : Simulation) (round : Nat) (event : Event) : Simulation :=
  { simulation with trace := simulation.trace.push { round, event } }

def noteFault (simulation : Simulation) (fault : Bool) : Simulation :=
  { simulation with interesting := simulation.interesting || fault }

def drawPartition (simulation : Simulation) (round : Nat) : Simulation :=
  let count := simulation.participants.size
  if count < 2 then simulation
  else
    let (toggles, generator) :=
      simulation.generator.hits simulation.config.fault.partitionPercent
    if toggles then
      let (replica, generator) := generator.index count
      let isolated := !simulation.network.isIsolated replica
      let network := simulation.network.setIsolated replica isolated
      ({ simulation with generator, network }.noteFault true).record round
        (.partition replica isolated)
    else { simulation with generator }

/-- Sends an atom of one replica to another one. -/
def sendTo (simulation : Simulation) (round sender : Nat) (atom : Atom) (receiver : Nat) :
    Simulation :=
  let (sent, network, generator) :=
    simulation.network.send { sender, receiver, atom } round simulation.generator
  ({ simulation with network, generator }.noteFault (sent.dropped || sent.duplicated)).record
    round (.send sender receiver atom.id sent.dropped sent.duplicated sent.delay)

/-- Lets a replica author an atom and send it to others, which are drawn. -/
def takeTurn (simulation : Simulation) (round sender : Nat) : Simulation :=
  match simulation.participants[sender]? with
  | none => simulation
  | some author =>
    let (outcome, author, generator) :=
      author.author simulation.config.authoringRates simulation.generator
    let participants := simulation.participants.setIfInBounds sender author
    let simulation := { simulation with participants, generator }
    match outcome with
    | .error _ => simulation.noteFault true
    | .ok atom =>
      let simulation := simulation.record round (.emit sender atom)
      let others := (Array.range participants.size).filter (· != sender)
      let (peers, generator) := simulation.generator.shuffle others
      (peers.toList.take simulation.config.fanout).foldl
        (fun simulation receiver => simulation.sendTo round sender atom receiver)
        { simulation with generator }

def handOver (simulation : Simulation) (round : Nat) (message : Message) : Simulation :=
  match simulation.participants[message.receiver]? with
  | none => simulation
  | some receiver =>
    let (outcome, receiver) := receiver.receive message.atom
    let simulation := { simulation with
      participants := simulation.participants.setIfInBounds message.receiver receiver }
    match outcome with
    | .ok reception =>
      let arrival := Arrival.ofReception reception
      (simulation.noteFault (arrival = .deferred)).record round
        (.deliver message.sender message.receiver message.atom.id arrival)
    | .error why =>
      (simulation.noteFault true).record round (.reject message.receiver message.atom.id why)

def deliverDue (simulation : Simulation) (round : Nat) : Simulation :=
  let (delivery, network, generator) := simulation.network.deliver round simulation.generator
  let simulation := { simulation with network, generator }
  let simulation :=
    if delivery.reordered then
      (simulation.noteFault true).record round (.reorder delivery.messages.length)
    else simulation
  delivery.messages.foldl (fun simulation message => simulation.handOver round message)
    simulation

/-- Gives one replica the whole sequence of another one. -/
def exchange (simulation : Simulation) (round receiver sender : Nat) : Simulation :=
  match simulation.participants[sender]?, simulation.participants[receiver]? with
  | some giver, some taker =>
    let (intake, taker) := taker.receiveAll giver.sequence
    let participants := simulation.participants.setIfInBounds receiver taker
    let simulation := { simulation with participants }.noteFault !intake.rejected.isEmpty
    if 0 < intake.woven then simulation.record round (.sync sender receiver intake.woven)
    else simulation
  | _, _ => simulation

def handOverRest (simulation : Simulation) (round : Nat) : Simulation :=
  let (messages, network) := simulation.network.heal.drain
  messages.foldl (fun simulation message => simulation.handOver round message)
    { simulation with network }

/-- Who receives whose sequence in the final exchange, in order. The first replica collects all
atoms before it gives its own, so that one pass reaches everyone. -/
def exchangePairs (count : Nat) : List (Nat × Nat) :=
  (List.range count).flatMap fun receiver =>
    ((List.range count).filter (· != receiver)).map (receiver, ·)

/-- Hands over all that is in flight and exchanges whole sequences. -/
def finalExchange (simulation : Simulation) (round : Nat) : Simulation :=
  (exchangePairs simulation.participants.size).foldl
    (fun simulation (receiver, sender) => simulation.exchange round receiver sender)
    (simulation.handOverRest round)

/-- Every replica takes its turn, and then the messages that are due are handed over. -/
def playRound (simulation : Simulation) (round : Nat) : Simulation :=
  let afterTurns := (List.range simulation.participants.size).foldl
    (fun simulation sender => simulation.takeTurn round sender)
    (simulation.drawPartition round)
  afterTurns.deliverDue round

/-- Runs all rounds and the final exchange. Faults of an earlier run stay noted. -/
def run (simulation : Simulation) : Outcome × Simulation :=
  let rounds := simulation.config.rounds
  let final := ((List.range rounds).foldl playRound simulation).finalExchange rounds
  let states := final.participants.toList.map (·.snapshot)
  ({ trace := final.trace.toList
     states
     convergence := Convergence.ofSnapshots states
     interesting := final.interesting },
    { final with trace := #[] })

def runs (simulation : Simulation) : Nat → List Outcome
  | 0 => []
  | count + 1 =>
    let (outcome, later) := simulation.run
    outcome :: later.runs count

end Simulation
end CausalWeave
