import CausalWeave.Replica.Config
import CausalWeave.Simulation.Network
import CausalWeave.Simulation.Participant

namespace CausalWeave.Simulation

inductive ConfigProblem where
  | noSeeds
  | noReplicas
  | noRounds
  /-- An author cannot send an atom to that many other replicas. -/
  | fanoutTooLarge (fanout replicaCount : Nat)
  | authoringRates
  | faultRates (names : List String)
deriving DecidableEq

def ConfigProblem.message : ConfigProblem → String
  | noSeeds => "seed_range must not be empty"
  | noReplicas => "replica_count must be > 0"
  | noRounds => "rounds must be > 0"
  | fanoutTooLarge fanout replicaCount =>
    "fanout " ++ toString fanout ++ " must be below replica_count " ++ toString replicaCount
  | authoringRates => "emit rates must be percentages (0-100)"
  | faultRates names =>
    "fault rates must be percentages (0-100): " ++ String.intercalate ", " names

structure Config where
  seed : UInt64 := 0
  replicaCount : Nat := 3
  rounds : Nat := 16
  /-- To how many other replicas an atom is sent by its author. -/
  fanout : Nat := 2
  rootPercent : UInt8 := 5
  tombstonePercent : UInt8 := 10
  fault : FaultModel := {}
  replica : Replica.Config := {}
deriving DecidableEq

namespace Config

def authoringRates (config : Config) : AuthoringRates where
  rootPercent := config.rootPercent
  tombstonePercent := config.tombstonePercent

/-- The first thing that is wrong. A single replica sends nothing, so its fanout does not matter. -/
def problem? (config : Config) : Option ConfigProblem :=
  if config.replicaCount = 0 then some .noReplicas
  else if config.rounds = 0 then some .noRounds
  else if config.replicaCount ≤ config.fanout ∧ 1 < config.replicaCount then
    some (.fanoutTooLarge config.fanout config.replicaCount)
  else if config.rootPercent > 100 ∨ config.tombstonePercent > 100 then some .authoringRates
  else if config.fault.outOfRange.isEmpty then none
  else some (.faultRates config.fault.outOfRange)

end Config
end CausalWeave.Simulation
