import CausalWeave.Campaign

namespace CausalWeave.CommandLine

inductive Command where
  /-- Runs a campaign. -/
  | run (config : Campaign.Config)
  /-- Replays one seed and shows what happened, all of it if asked for. -/
  | replay (seed : UInt64) (trace : Bool) (config : Campaign.Config)
deriving DecidableEq

structure Invocation where
  json : Bool
  command : Command
deriving DecidableEq

structure Arguments where
  options : List (String × String) := []
  flags : List String := []
  operands : List String := []
deriving DecidableEq

/-- What a subcommand understands. -/
structure Grammar where
  options : List String
  flags : List String

namespace Arguments

def addOption (arguments : Arguments) (name value : String) : Arguments :=
  { arguments with options := (name, value) :: arguments.options }

def addFlag (arguments : Arguments) (name : String) : Arguments :=
  { arguments with flags := name :: arguments.flags }

def addOperand (arguments : Arguments) (value : String) : Arguments :=
  { arguments with operands := value :: arguments.operands }

/-- An argument up to its first equals sign, and what follows the sign if there is one. -/
def splitValue (argument : String) : String × Option String :=
  let chars := argument.toList
  let name := String.ofList (chars.takeWhile (· != '='))
  match chars.dropWhile (· != '=') with
  | [] => (name, none)
  | _ :: value => (name, some (String.ofList value))

/-- Sorts the arguments of a subcommand. A value that is an argument of its own does not begin with
a dash. -/
def sort? (grammar : Grammar) : List String → Option Arguments
  | [] => some {}
  | argument :: rest =>
    if argument = "--" then some { operands := rest }
    else if grammar.flags.contains argument then
      (sort? grammar rest).map (·.addFlag argument)
    else if argument.startsWith "-" then
      match splitValue argument, rest with
      | (name, some value), rest =>
        if grammar.options.contains name then (sort? grammar rest).map (·.addOption name value)
        else none
      | (name, none), value :: rest =>
        if grammar.options.contains name && !value.startsWith "-" then
          (sort? grammar rest).map (·.addOption name value)
        else none
      | (_, none), [] => none
    else (sort? grammar rest).map (·.addOperand argument)

def isUnrepeated (arguments : Arguments) : Bool :=
  decide (arguments.options.map (·.1)).Nodup && decide arguments.flags.Nodup

end Arguments

/-- Decimal digits after an optional plus sign, of a number of at most `greatest`. -/
def natural? (greatest : Nat) (text : String) : Option Nat :=
  let digits :=
    match text.toList with
    | '+' :: digits => digits
    | digits => digits
  if digits.isEmpty || !digits.all Char.isDigit then none
  else
    let value := digits.foldl (fun value c => 10 * value + (c.toNat - '0'.toNat)) 0
    if value ≤ greatest then some value else none

def word? (text : String) : Option UInt64 :=
  (natural? (UInt64.size - 1) text).map Nat.toUInt64

def size? (text : String) : Option Nat :=
  natural? (UInt64.size - 1) text

/-- A byte may have a minus sign, but then only zero fits. -/
def byte? (text : String) : Option UInt8 :=
  match text.toList with
  | '-' :: '+' :: _ => none
  | '-' :: digits => (natural? 0 (String.ofList digits)).map Nat.toUInt8
  | _ => (natural? 255 text).map Nat.toUInt8

namespace Arguments

/-- The value of an option, or the given one when the option is left off. -/
def valueOf (arguments : Arguments) (read? : String → Option α) (name : String) (standard : α) :
    Option α :=
  match arguments.options.lookup name with
  | none => some standard
  | some text => read? text

def parameters? (arguments : Arguments) : Option Campaign.Config := do
  let standard : Campaign.Config := {}
  return {
    replicaCount := ← arguments.valueOf size? "--replicas" standard.replicaCount
    rounds := ← arguments.valueOf size? "--rounds" standard.rounds
    fanout := ← arguments.valueOf size? "--fanout" standard.fanout
    dropPercent := ← arguments.valueOf byte? "--drop" standard.dropPercent
    duplicatePercent := ← arguments.valueOf byte? "--duplicate" standard.duplicatePercent
    reorderPercent := ← arguments.valueOf byte? "--reorder" standard.reorderPercent
    partitionPercent := ← arguments.valueOf byte? "--partition" standard.partitionPercent
    maxDelay := ← arguments.valueOf byte? "--max-delay" standard.maxDelay
    pendingLimit := ← arguments.valueOf size? "--pending-limit" standard.pendingLimit }

end Arguments

def parameterNames : List String :=
  ["--replicas", "--rounds", "--fanout", "--drop", "--duplicate", "--reorder", "--partition",
    "--max-delay", "--pending-limit"]

def runGrammar : Grammar where
  options := "--start" :: "--seeds" :: parameterNames
  flags := ["--json"]

def replayGrammar : Grammar where
  options := parameterNames
  flags := ["--json", "--trace"]

/-- The seeds from `first` on, `count` of them, as far as there are any: the end of a range is a
word too. -/
def seedRange (config : Campaign.Config) (first count : UInt64) : Campaign.Config :=
  { config with
    firstSeed := first
    endSeed := (min (first.toNat + count.toNat) (UInt64.size - 1)).toUInt64 }

def run? (arguments : Arguments) : Option Command := do
  let first ← arguments.valueOf word? "--start" 0
  let count ← arguments.valueOf word? "--seeds" 100
  let config ← arguments.parameters?
  if arguments.operands.isEmpty then return .run (seedRange config first count)
  else none

def replay? (arguments : Arguments) : Option Command :=
  match arguments.operands with
  | [operand] => do
    let seed ← word? operand
    let config ← arguments.parameters?
    return .replay seed (arguments.flags.contains "--trace") (seedRange config seed 1)
  | _ => none

def subcommand? (name : String) (rest : List String) : Option Invocation := do
  let (grammar, command?) ←
    if name = "run" then some (runGrammar, run?)
    else if name = "replay" then some (replayGrammar, replay?)
    else none
  let arguments ← Arguments.sort? grammar rest
  if arguments.isUnrepeated then
    return { json := arguments.flags.contains "--json", command := ← command? arguments }
  else none

/-- Reads all arguments. The flag for JSON may stand before the subcommand too. -/
def parse? : List String → Option Invocation
  | "--json" :: name :: rest => (subcommand? name rest).map ({ · with json := true })
  | name :: rest => subcommand? name rest
  | [] => none

end CausalWeave.CommandLine
