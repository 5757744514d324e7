import CausalWeave.CommandLine.Arguments

namespace CausalWeave.CommandLine

open CausalWeave.Simulation (Arrival Event TraceStep)

def record (name : String) (fields : List (String × String)) : String :=
  name ++ " \x7b " ++
    String.intercalate ", " (fields.map fun field => field.1 ++ ": " ++ field.2) ++ " \x7d"

def inQuotes (text : String) : String :=
  "\"" ++ text ++ "\""

def idText (id : AtomId) : String :=
  record "AtomId"
    [("site", "SiteId(" ++ inQuotes id.site.name ++ ")"),
      ("timestamp", toString id.timestamp.toNat), ("priority", toString id.priority.toInt)]

def boolText (value : Bool) : String :=
  if value then "true" else "false"

def deliveryText : Arrival → String
  | .woven position released =>
    record "Woven" [("position", toString position), ("released", toString released)]
  | .duplicate => "Duplicate"
  | .deferred => "Deferred"

def eventText : Event → String
  | .emit replica atom =>
    let origin :=
      match atom.cause with
      | some cause => " <- " ++ cause.shown
      | none => " (root)"
    "r" ++ toString replica ++ " emit " ++ atom.id.shown ++ origin
  | .send sender receiver atom dropped duplicated delay =>
    record "Send"
      [("from", toString sender), ("to", toString receiver), ("atom", idText atom),
        ("dropped", boolText dropped), ("duplicated", boolText duplicated),
        ("delay_rounds", toString delay)]
  | .deliver sender receiver atom outcome =>
    record "Deliver"
      [("from", toString sender), ("to", toString receiver), ("atom", idText atom),
        ("outcome", deliveryText outcome)]
  | .reorder messages => record "Reorder" [("messages", toString messages)]
  | .partition replica isolated =>
    record "Partition" [("replica", toString replica), ("isolated", boolText isolated)]
  | .reject replica atom why =>
    record "Reject"
      [("replica", toString replica), ("atom", idText atom), ("error", inQuotes why.message)]
  | .sync sender receiver woven =>
    record "Sync"
      [("from", toString sender), ("to", toString receiver), ("woven", toString woven)]

/-- A text with blanks before it, at least as long as `width`. -/
def padLeft (width : Nat) (text : String) : String :=
  String.ofList (List.replicate (width - text.length) ' ') ++ text

def stepText (step : TraceStep) : String :=
  "[" ++ padLeft 3 (toString step.round) ++ "] " ++ eventText step.event

def reportLines (report : Campaign.Report) : List String :=
  let summary :=
    "seeds run: " ++ toString report.seedsRun ++ "  passed: " ++ toString report.seedsPassed ++
      "  interesting: " ++ toString report.interesting
  let failures := report.failures.flatMap fun failure =>
    ("seed " ++ toString failure.seed.toNat ++ " FAILED") :: failure.violations.map ("  " ++ ·)
  let advice :=
    match report.firstFailure? with
    | none => []
    | some seed => ["replay with: weave-sim replay " ++ toString seed.toNat ++ " --trace"]
  summary :: failures ++ advice

def evaluationLines (trace : Bool) (evaluation : Campaign.Evaluation) : List String :=
  let outcome := evaluation.outcome
  let steps := if trace then outcome.trace.map stepText else []
  let summary :=
    "trace events: " ++ toString outcome.trace.length ++ "  atoms: " ++
      toString outcome.convergence.canonicalLength ++ "  converged: " ++
      boolText outcome.convergence.converged ++ "  digest: " ++
      outcome.convergence.canonicalDigest
  let violations := evaluation.verdict.violations
  let verdict :=
    if evaluation.verdict.passed then ["oracle: all invariants hold"]
    else
      ("oracle: " ++ toString violations.length ++ " violation(s)") ::
        violations.map ("  " ++ ·.message)
  steps ++ summary :: verdict

end CausalWeave.CommandLine
