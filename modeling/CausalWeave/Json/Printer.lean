import CausalWeave.Json

namespace CausalWeave.Json

def hexDigit (value : Nat) : Char :=
  Nat.digitChar value

/-- A character inside quotes. Only the quote, the backslash and characters below the blank are
escaped. -/
def escaped (c : Char) : List Char :=
  match c with
  | '"' => ['\\', '"']
  | '\\' => ['\\', '\\']
  | '\x08' => ['\\', 'b']
  | '\x0c' => ['\\', 'f']
  | '\n' => ['\\', 'n']
  | '\r' => ['\\', 'r']
  | '\t' => ['\\', 't']
  | c =>
    if c.toNat < 0x20 then
      ['\\', 'u', '0', '0', hexDigit (c.toNat / 16), hexDigit (c.toNat % 16)]
    else [c]

def quoted (value : String) : List Char :=
  '"' :: value.toList.flatMap escaped ++ ['"']

def scalarText : Json → List Char
  | bool true => ['t', 'r', 'u', 'e']
  | bool false => ['f', 'a', 'l', 's', 'e']
  | whole value => (toString value).toList
  | double value => value.text
  | text value => quoted value
  | _ => ['n', 'u', 'l', 'l']

mutual

/-- A value without blanks. -/
def compactText : Json → List Char
  | array items => '[' :: compactItems items
  | object fields => '{' :: compactFields fields
  | scalar => scalarText scalar

/-- The items that are left, and the bracket that ends them. -/
def compactItems : List Json → List Char
  | [] => [']']
  | [value] => compactText value ++ [']']
  | value :: next :: rest => compactText value ++ ',' :: compactItems (next :: rest)

/-- The fields that are left, and the brace that ends them. -/
def compactFields : List (String × Json) → List Char
  | [] => ['}']
  | [(name, value)] => quoted name ++ ':' :: compactText value ++ ['}']
  | (name, value) :: next :: rest =>
    quoted name ++ ':' :: compactText value ++ ',' :: compactFields (next :: rest)

end

def compact (value : Json) : String :=
  String.ofList value.compactText

/-- A new line at a nesting level, two blanks for each. -/
def newLine (level : Nat) : List Char :=
  '\n' :: List.replicate (2 * level) ' '

mutual

/-- A value with each item and field on its own line; empty containers stay on one. -/
def prettyText (level : Nat) : Json → List Char
  | array [] => ['[', ']']
  | object [] => ['{', '}']
  | array items => '[' :: prettyItems (level + 1) items ++ newLine level ++ [']']
  | object fields => '{' :: prettyFields (level + 1) fields ++ newLine level ++ ['}']
  | scalar => scalarText scalar

def prettyItems (level : Nat) : List Json → List Char
  | [] => []
  | [value] => newLine level ++ prettyText level value
  | value :: next :: rest =>
    newLine level ++ prettyText level value ++ ',' :: prettyItems level (next :: rest)

def prettyFields (level : Nat) : List (String × Json) → List Char
  | [] => []
  | [(name, value)] => newLine level ++ quoted name ++ ':' :: ' ' :: prettyText level value
  | (name, value) :: next :: rest =>
    newLine level ++ quoted name ++ ':' :: ' ' :: prettyText level value ++
      ',' :: prettyFields level (next :: rest)

end

def pretty (value : Json) : String :=
  String.ofList (value.prettyText 0)

end CausalWeave.Json
