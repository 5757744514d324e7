import CausalWeave.Simulation

/-! Turns and deliveries begin with one part, after which each message is sent or handed over by itself. -/

namespace CausalWeave.Simulation

/-- Lets a replica author an atom and draws the messages in which it is sent. -/
def beginTurn (simulation : Simulation) (round sender : Nat) : List Message × Simulation :=
  match simulation.participants[sender]? with
  | none => ([], simulation)
  | some author =>
    let (outcome, author, generator) :=
      author.author simulation.config.authoringRates simulation.generator
    let participants := simulation.participants.setIfInBounds sender author
    let simulation := { simulation with participants, generator }
    match outcome with
    | .error _ => ([], simulation.noteFault true)
    | .ok atom =>
      let simulation := simulation.record round (.emit sender atom)
      let others := (Array.range participants.size).filter (· != sender)
      let (peers, generator) := simulation.generator.shuffle others
      ((peers.toList.take simulation.config.fanout).map fun receiver => { sender, receiver, atom },
        { simulation with generator })

def beginDelivery (simulation : Simulation) (round : Nat) : List Message × Simulation :=
  let (delivery, network, generator) := simulation.network.deliver round simulation.generator
  let simulation := { simulation with network, generator }
  (delivery.messages,
    if delivery.reordered then
      (simulation.noteFault true).record round (.reorder delivery.messages.length)
    else simulation)

/-- Connects every replica and takes all messages from the network. -/
def beginRest (simulation : Simulation) : List Message × Simulation :=
  let (messages, network) := simulation.network.heal.drain
  (messages, { simulation with network })

def sendMessage (round : Nat) (simulation : Simulation) (message : Message) : Simulation :=
  simulation.sendTo round message.sender message.atom message.receiver

theorem takeTurn_eq (simulation : Simulation) (round sender : Nat) :
    simulation.takeTurn round sender =
      (simulation.beginTurn round sender).1.foldl (sendMessage round)
        (simulation.beginTurn round sender).2 := by
  unfold takeTurn beginTurn
  cases simulation.participants[sender]? with
  | none => rfl
  | some author =>
    dsimp only
    generalize author.author simulation.config.authoringRates simulation.generator = result
    obtain ⟨outcome, author, generator⟩ := result
    cases outcome with
    | error why => rfl
    | ok atom =>
      dsimp only
      generalize Generator.shuffle _ _ = shuffled
      obtain ⟨peers, generator⟩ := shuffled
      rw [List.foldl_map]
      rfl

end CausalWeave.Simulation
