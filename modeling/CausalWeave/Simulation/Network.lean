import CausalWeave.Atom
import CausalWeave.Generator

namespace CausalWeave.Simulation

/-- How often things go wrong, in percent, and how many rounds a message may take. -/
structure FaultModel where
  maxDelay : UInt8 := 2
  dropPercent : UInt8 := 5
  duplicatePercent : UInt8 := 3
  reorderPercent : UInt8 := 5
  partitionPercent : UInt8 := 2
deriving DecidableEq

namespace FaultModel

def outOfRange (fault : FaultModel) : List String :=
  let rates :=
    [("drop_rate_percent", fault.dropPercent), ("duplicate_rate_percent", fault.duplicatePercent),
      ("reorder_rate_percent", fault.reorderPercent),
      ("partition_rate_percent", fault.partitionPercent)]
  (rates.filter fun rate => rate.2 > 100).map (·.1)

end FaultModel

structure Message where
  sender : Nat
  receiver : Nat
  atom : Atom

structure Flight where
  /-- The first round in which the message is delivered. -/
  dueRound : Nat
  message : Message

/-- What became of a message that was to be sent. -/
structure Sent where
  dropped : Bool
  duplicated : Bool
  delay : Nat
deriving DecidableEq

def Sent.lost : Sent where
  dropped := true
  duplicated := false
  delay := 0

structure Network where
  fault : FaultModel
  /-- In the order in which the messages were sent. -/
  inFlight : List Flight := []
  isolated : List Nat := []

namespace Network

/-- Rounds are counted in 64 bits; what would be due after the last one is due in it. -/
def lastRound : Nat := UInt64.size - 1

def isIsolated (network : Network) (replica : Nat) : Bool :=
  network.isolated.contains replica

def setIsolated (network : Network) (replica : Nat) (isolated : Bool) : Network :=
  let others := network.isolated.filter (· != replica)
  { network with isolated := if isolated then replica :: others else others }

def heal (network : Network) : Network :=
  { network with isolated := [] }

/-- Sends a message in a round. Messages from and to isolated replicas are lost without a draw. -/
def send (network : Network) (message : Message) (round : Nat) (generator : Generator) :
    Sent × Network × Generator :=
  if network.isIsolated message.sender || network.isIsolated message.receiver then
    (.lost, network, generator)
  else
    let (dropped, generator) := generator.hits network.fault.dropPercent
    if dropped then (.lost, network, generator)
    else
      let (delay, generator) := generator.below (network.fault.maxDelay.toUInt64 + 1)
      let (duplicated, generator) := generator.hits network.fault.duplicatePercent
      let sent : Flight := { dueRound := min (round + delay.toNat) lastRound, message }
      let copies := if duplicated then [sent, sent] else [sent]
      ({ dropped := false, duplicated, delay := delay.toNat },
        { network with inFlight := network.inFlight ++ copies }, generator)

/-- The messages that are handed over in a round, and whether their order was shuffled. -/
structure Delivery where
  messages : List Message
  reordered : Bool

/-- Hands over all messages that are due. A single message cannot be reordered. -/
def deliver (network : Network) (round : Nat) (generator : Generator) :
    Delivery × Network × Generator :=
  let (ready, later) := network.inFlight.partition (·.dueRound ≤ round)
  let messages := ready.map (·.message)
  let network := { network with inFlight := later }
  if messages.length ≤ 1 then ({ messages, reordered := false }, network, generator)
  else
    let (reordered, generator) := generator.hits network.fault.reorderPercent
    if reordered then
      let (shuffled, generator) := generator.shuffle messages.toArray
      ({ messages := shuffled.toList, reordered }, network, generator)
    else ({ messages, reordered }, network, generator)

/-- Hands over all messages in flight, due or not. -/
def drain (network : Network) : List Message × Network :=
  (network.inFlight.map (·.message), { network with inFlight := [] })

end Network
end CausalWeave.Simulation
