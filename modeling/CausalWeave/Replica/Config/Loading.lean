import CausalWeave.ErrorCode
import CausalWeave.Replica.Config
import CausalWeave.Toml.Grammar

namespace CausalWeave.Replica.Config

/-- A whole number within bounds, or the standard one when the key is missing. -/
def wholeAt? (document : Toml.Document) (key : String) (least greatest standard : Int) :
    Option Int :=
  match document.root? key with
  | none => some standard
  | some (.value (.integer value)) =>
    if least ≤ value ∧ value ≤ greatest then some value else none
  | some _ => none

def ofDocument? (document : Toml.Document) : Option Replica.Config := do
  let standard : Replica.Config := {}
  let limit ← wholeAt? document "pending_limit" 0 Int64.maxValue.toInt
    standard.pendingLimit
  let priority ← wholeAt? document "default_priority" Int32.minValue.toInt
    Int32.maxValue.toInt standard.defaultPriority.toInt
  return { pendingLimit := limit.toNat, defaultPriority := Int32.ofInt priority }

def parse? (text : String) : Option Replica.Config :=
  (Toml.parse? text.toList).bind ofDocument?

inductive Source where
  | missing
  | directory
  | file (bytes : List UInt8)

inductive LoadError where
  /-- There is something at the path, but no text. -/
  | unreadable (path : String)
  /-- The text is no configuration. -/
  | malformed (path : String)
deriving DecidableEq

def LoadError.message : LoadError → String
  | unreadable path => "Failed to read " ++ path
  | malformed path =>
    "Failed to parse " ++ path ++ " (" ++ ErrorCode.configUnreadable.code ++ ")"

/-- The configuration at a path, where the given source was found. -/
def load (path : String) : Source → Except LoadError Replica.Config
  | .missing => .ok {}
  | .directory => .error (.unreadable path)
  | .file bytes =>
    match String.fromUTF8? (ByteArray.mk bytes.toArray) with
    | none => .error (.unreadable path)
    | some text =>
      match parse? text with
      | none => .error (.malformed path)
      | some config => .ok config

end CausalWeave.Replica.Config
