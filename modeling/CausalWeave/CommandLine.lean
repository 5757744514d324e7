import CausalWeave.CommandLine.Text

/-! The command exits with 0 if no invariant was violated, with 1 if one was or if the parameters cannot be
run, and with 2 if the arguments are not understood. -/

namespace CausalWeave.CommandLine

structure Result where
  exitCode : Nat
  output : String := ""
  errors : String := ""
deriving DecidableEq

def lines (texts : List String) : String :=
  String.join (texts.map (· ++ "\n"))

def failed (problem : Simulation.ConfigProblem) : Result where
  exitCode := 1
  errors := "Error: " ++ problem.message ++ "\n"

def judged (passed : Bool) (output : List String) : Result where
  exitCode := if passed then 0 else 1
  output := lines output

def execute (invocation : Invocation) : Result :=
  match invocation.command with
  | .run config =>
    match Campaign.run config with
    | .error problem => failed problem
    | .ok report =>
      judged report.allPassed
        (if invocation.json then [report.toJson.pretty] else reportLines report)
  | .replay seed trace config =>
    match Campaign.replay config seed with
    | .error problem => failed problem
    | .ok evaluation =>
      judged evaluation.verdict.passed
        (if invocation.json then [evaluation.toJson.pretty] else evaluationLines trace evaluation)

def usage : String :=
  "usage: weave-sim [--json] run [--start N] [--seeds N] [PARAMETERS]\n" ++
    "       weave-sim [--json] replay SEED [--trace] [PARAMETERS]\n" ++
    "parameters: " ++ String.intercalate " " parameterNames ++ "\n"

def result (arguments : List String) : Result :=
  match parse? arguments with
  | none => { exitCode := 2, errors := usage }
  | some invocation => execute invocation

end CausalWeave.CommandLine
