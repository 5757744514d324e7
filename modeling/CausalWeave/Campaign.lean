import CausalWeave.Oracle

namespace CausalWeave.Campaign

open CausalWeave.Simulation (ConfigProblem Outcome authoredAtoms)
open CausalWeave.Oracle (Verdict)

structure Config where
  firstSeed : UInt64 := 0
  /-- The seed after the last one. -/
  endSeed : UInt64 := 100
  replicaCount : Nat := 5
  rounds : Nat := 24
  fanout : Nat := 2
  rootPercent : UInt8 := 5
  tombstonePercent : UInt8 := 10
  dropPercent : UInt8 := 10
  duplicatePercent : UInt8 := 5
  reorderPercent : UInt8 := 10
  partitionPercent : UInt8 := 5
  maxDelay : UInt8 := 3
  pendingLimit : Nat := 10000
deriving DecidableEq

namespace Config

def simulation (config : Config) (seed : UInt64) : Simulation.Config where
  seed
  replicaCount := config.replicaCount
  rounds := config.rounds
  fanout := config.fanout
  rootPercent := config.rootPercent
  tombstonePercent := config.tombstonePercent
  fault :=
    { maxDelay := config.maxDelay
      dropPercent := config.dropPercent
      duplicatePercent := config.duplicatePercent
      reorderPercent := config.reorderPercent
      partitionPercent := config.partitionPercent }
  replica := { pendingLimit := config.pendingLimit }

/-- The first thing that is wrong. All seeds share the other parameters. -/
def problem? (config : Config) : Option ConfigProblem :=
  if config.firstSeed < config.endSeed then (config.simulation config.firstSeed).problem?
  else some .noSeeds

def seeds (config : Config) : List UInt64 :=
  (List.range (config.endSeed.toNat - config.firstSeed.toNat)).map fun offset =>
    config.firstSeed + offset.toUInt64

end Config

structure Failure where
  seed : UInt64
  violations : List String
deriving DecidableEq

structure Report where
  seedsRun : Nat := 0
  seedsPassed : Nat := 0
  failures : List Failure := []
  /-- For how many seeds anything went wrong in the simulation. -/
  interesting : Nat := 0
deriving DecidableEq

namespace Report

def firstFailure? (report : Report) : Option UInt64 :=
  report.failures.head?.map (·.seed)

def allPassed (report : Report) : Bool :=
  report.failures.isEmpty

def toJson (report : Report) : Json :=
  let failure (failure : Failure) : Json :=
    .object
      [("seed", .ofNat failure.seed.toNat), ("violations", .ofList Json.text failure.violations)]
  .object
    [("seeds_run", .ofNat report.seedsRun), ("seeds_passed", .ofNat report.seedsPassed),
      ("first_failure",
        match report.firstFailure? with
        | none => .null
        | some seed => .ofNat seed.toNat),
      ("failures", .ofList failure report.failures),
      ("interesting_states_reached", .ofNat report.interesting)]

end Report

structure Evaluation where
  outcome : Outcome
  verdict : Verdict

def Evaluation.toJson (evaluation : Evaluation) : Json :=
  .object [("result", evaluation.outcome.toJson), ("oracle", evaluation.verdict.toJson)]

/-- The oracle draws from a generator of its own, whose seed is this far from the simulation's. -/
def oracleSeedOffset : UInt64 := 0xDEAD

/-- Simulates and judges one seed, in the range or not. -/
def evaluate (config : Config) (seed : UInt64) : Except ConfigProblem Evaluation :=
  match Simulation.start (config.simulation seed) with
  | .error problem => .error problem
  | .ok simulation =>
    let outcome := simulation.run.1
    let generator := Generator.ofSeed (seed + oracleSeedOffset)
    let verdict := (Oracle.judge outcome.states (authoredAtoms outcome.trace) generator).1
    .ok { outcome, verdict }

def Report.add (report : Report) (seed : UInt64) (evaluation : Evaluation) : Report :=
  let failed := !evaluation.verdict.passed
  { seedsRun := report.seedsRun + 1
    seedsPassed := if failed then report.seedsPassed else report.seedsPassed + 1
    failures :=
      if failed then
        report.failures ++ [{ seed, violations := evaluation.verdict.violations.map (·.message) }]
      else report.failures
    interesting :=
      if evaluation.outcome.interesting then report.interesting + 1 else report.interesting }

/-- Simulates and judges all seeds of the range. -/
def run (config : Config) : Except ConfigProblem Report :=
  match config.problem? with
  | some problem => .error problem
  | none =>
    config.seeds.foldlM (fun report seed => (evaluate config seed).map (report.add seed)) {}

/-- Simulates and judges one seed with a configuration that could be run. -/
def replay (config : Config) (seed : UInt64) : Except ConfigProblem Evaluation :=
  match config.problem? with
  | some problem => .error problem
  | none => evaluate config seed

end CausalWeave.Campaign
