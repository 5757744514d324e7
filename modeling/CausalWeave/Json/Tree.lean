import CausalWeave.Json
import CausalWeave.Json.Token

namespace CausalWeave.Json

inductive Tree where
  | null
  | bool (value : Bool)
  | number (value : Numeral)
  | text (value : Option String)
  | array (items : List Tree)
  | object (members : List (Option String × Tree))

namespace Tree

/-- A container that is still open. What it holds so far has the last one first. -/
inductive Frame where
  | array (items : List Tree)
  /-- The name is the one whose value is being read. -/
  | object (members : List (Option String × Tree)) (name : Option String)

/-- What may come next, and the containers around it, the innermost one first. -/
inductive Expectation where
  | value (around : List Frame)
  | firstItem (around : List Frame)
  | firstName (around : List Frame)
  | name (members : List (Option String × Tree)) (around : List Frame)
  | colon (members : List (Option String × Tree)) (name : Option String) (around : List Frame)
  | separator (innermost : Frame) (around : List Frame)
  | nothing (read : Tree)

/-- Puts a finished value where it belongs. -/
def place (value : Tree) : List Frame → Expectation
  | [] => .nothing value
  | .array items :: around => .separator (.array (value :: items)) around
  | .object members name :: around => .separator (.object ((name, value) :: members) name) around

/-- A token that is a value or begins one. -/
def begin? (token : Token) (around : List Frame) : Option Expectation :=
  match token with
  | .null => some (place .null around)
  | .bool value => some (place (.bool value) around)
  | .number value => some (place (.number value) around)
  | .text value => some (place (.text value) around)
  | .openArray => some (.firstItem around)
  | .openObject => some (.firstName around)
  | _ => none

/-- Takes one token, if it is one that may come next. -/
def step? (expectation : Expectation) (token : Token) : Option Expectation :=
  match expectation, token with
  | .value around, token => begin? token around
  | .firstItem around, .closeArray => some (place (.array []) around)
  | .firstItem around, token => begin? token (.array [] :: around)
  | .firstName around, .closeObject => some (place (.object []) around)
  | .firstName around, .text name => some (.colon [] name around)
  | .name members around, .text name => some (.colon members name around)
  | .colon members name around, .colon => some (.value (.object members name :: around))
  | .separator (.array items) around, .comma => some (.value (.array items :: around))
  | .separator (.array items) around, .closeArray => some (place (.array items.reverse) around)
  | .separator (.object members _) around, .comma => some (.name members around)
  | .separator (.object members _) around, .closeObject =>
    some (place (.object members.reverse) around)
  | _, _ => none

def run? : Expectation → List Token → Option Expectation
  | expectation, [] => some expectation
  | expectation, token :: rest =>
    match step? expectation token with
    | none => none
    | some next => run? next rest

/-- The one value that all of a text is. -/
def parse? (chars : List Char) : Option Tree :=
  match (Token.scan chars).bind (run? (.value [])) with
  | some (.nothing read) => some read
  | _ => none

/-- The fields of a record that is written as an object, in the order of `names`. Other names
may occur, and may repeat; the record's own names may not. -/
def objectFields? (names : List String) (members : List (Option String × Tree)) :
    Option (List (Option Tree)) :=
  if members.all (·.1.isSome) then
    names.mapM fun name =>
      match members.filter (·.1 == some name) with
      | [] => some none
      | [(_, value)] => some (some value)
      | _ => none
  else none

/-- The fields of a record in the order of `names`: an object with them, or an array that holds
their values in that order and may lack the last ones. -/
def fields? (names : List String) : Tree → Option (List (Option Tree))
  | object members => objectFields? names members
  | array items =>
    if items.length ≤ names.length then
      some (items.map some ++ List.replicate (names.length - items.length) none)
    else none
  | _ => none

/-- A whole number within bounds, written without a point and a power. -/
def whole? (least greatest : Int) : Tree → Option Int
  | number numeral => numeral.whole?.filter fun value => least ≤ value ∧ value ≤ greatest
  | _ => none

def string? : Tree → Option String
  | text value => value
  | _ => none

end Tree

namespace Numeral

/-- The digits that a significand of 64 bits has room for after `significand`, and how many are
left over. -/
def keepDigits (significand : Nat) : List Nat → Nat × Nat
  | [] => (significand, 0)
  | digit :: rest =>
    let longer := 10 * significand + digit
    if longer < UInt64.size then keepDigits longer rest else (significand, rest.length + 1)

/-- The double that is written. Digits that a significand of 64 bits has no room for do not
count. -/
def double? (numeral : Numeral) : Option Double :=
  let fraction := numeral.fraction.getD []
  let (leading, dropped) := keepDigits 0 numeral.whole
  let (significand, unused) := keepDigits leading fraction
  let power : Int :=
    match numeral.power with
    | none => 0
    | some (true, digits) => -numberOfDigits digits
    | some (false, digits) => numberOfDigits digits
  Double.ofDecimal? numeral.negative significand (power + dropped - (fraction.length - unused))

end Numeral

/-- A number: whole if it is written so and not too large, else a double if it is finite. -/
def ofNumeral? (numeral : Numeral) : Option Json :=
  match numeral.whole? with
  | some value => if isWhole value then some (whole value) else numeral.double?.map double
  | none => numeral.double?.map double

/-- How many containers the parser nests. -/
def nestingLimit : Nat := 127

/-- The value of a tree in which at most `levels` containers are nested; none when a number is not
finite or a text lacks content. -/
def ofTree? : Nat → Tree → Option Json
  | _, .null => some null
  | _, .bool value => some (bool value)
  | _, .number numeral => ofNumeral? numeral
  | _, .text value => value.map text
  | 0, .array _ => none
  | 0, .object _ => none
  | levels + 1, .array items => (items.mapM (ofTree? levels)).map array
  | levels + 1, .object members =>
    (members.mapM fun (member : Option String × Tree) => do
      return (← member.1, ← ofTree? levels member.2)).map fun fields => object (sortFields fields)

end CausalWeave.Json
