import CausalWeave.Atom
import CausalWeave.Json.Printer
import CausalWeave.Json.Tree

namespace CausalWeave

namespace AtomId

def toJson (id : AtomId) : Json :=
  .object
    [("site", .text id.site.name), ("timestamp", .whole id.timestamp.toNat),
      ("priority", .whole id.priority.toInt)]

def timestamp? (tree : Json.Tree) : Option UInt64 :=
  (tree.whole? 0 (UInt64.size - 1)).map fun value => UInt64.ofNat value.toNat

def priority? (tree : Json.Tree) : Option Int32 :=
  (tree.whole? Int32.minValue.toInt Int32.maxValue.toInt).map Int32.ofInt

def ofTree? (tree : Json.Tree) : Option AtomId :=
  match tree.fields? ["site", "timestamp", "priority"] with
  | some [some site, some timestamp, priority] => do
    let name ← site.string?
    let timestamp ← timestamp? timestamp
    let priority ←
      match priority with
      | none => some 0
      | some tree => priority? tree
    return { site := { name }, timestamp, priority }
  | _ => none

end AtomId

namespace Payload

/-- A payload names its kind; all but the empty one carry a value. -/
def toJson : Payload → Json
  | empty => .object [("kind", .text "empty")]
  | bytes value =>
    .object
      [("kind", .text "bytes"), ("value", .array (value.map fun byte => .whole byte.toNat))]
  | text value => .object [("kind", .text "text"), ("value", .text value)]
  | json value => .object [("kind", .text "json"), ("value", value)]

/-- How many containers may be nested in a value, which is inside a payload inside an atom. -/
def nestingLimit : Nat := Json.nestingLimit - 2

def byte? (tree : Json.Tree) : Option UInt8 :=
  (tree.whole? 0 255).map fun value => UInt8.ofNat value.toNat

def bytes? : Json.Tree → Option (List UInt8)
  | .array items => items.mapM byte?
  | _ => none

def ofKind? (kind : String) (value : Option Json.Tree) : Option Payload :=
  match kind, value with
  | "empty", none => some empty
  | "empty", some .null => some empty
  | "bytes", some tree => (bytes? tree).map bytes
  | "text", some tree => tree.string?.map text
  | "json", some tree => (Json.ofTree? nestingLimit tree).map json
  | _, _ => none

/-- The name of a kind: a text, or an object that gives null to this name and holds nothing
else. -/
def kind? : Json.Tree → Option String
  | .text name => name
  | .object [(name, .null)] => name
  | _ => none

/-- A payload that is written as an array has both its kind and its value. -/
def ofTree? (tree : Json.Tree) : Option Payload :=
  match tree, tree.fields? ["kind", "value"] with
  | .array _, some [some kind, some value] => (kind? kind).bind (ofKind? · (some value))
  | .object _, some [some kind, value] => (kind? kind).bind (ofKind? · value)
  | _, _ => none

end Payload

namespace Atom

/-- The cause of a root is left off. -/
def toJson (atom : Atom) : Json :=
  let cause :=
    match atom.cause with
    | none => []
    | some cause => [("cause", cause.toJson)]
  .object (("id", atom.id.toJson) :: cause ++ [("payload", atom.payload.toJson)])

def cause? : Option Json.Tree → Option (Option AtomId)
  | none => some none
  | some .null => some none
  | some tree => (AtomId.ofTree? tree).map some

def ofTree? (tree : Json.Tree) : Option Atom :=
  match tree.fields? ["id", "cause", "payload"] with
  | some [some id, cause, payload] => do
    let id ← AtomId.ofTree? id
    let cause ← cause? cause
    let payload ←
      match payload with
      | none => some .empty
      | some tree => Payload.ofTree? tree
    return { id, cause, payload }
  | _ => none

def parse? (chars : List Char) : Option Atom :=
  (Json.Tree.parse? chars).bind ofTree?

end Atom
end CausalWeave
