import CausalWeave.Toml.Document
import CausalWeave.Toml.Quoted

namespace CausalWeave.Toml

open CausalWeave.Text (repeated)
open Quoted (isBlank isVisible newline?)

/-- How many arrays and inline tables may be nested, and how many keys may be joined by dots. -/
def nestingLimit : Nat := 79

def skipBlanks (chars : List Char) : List Char :=
  chars.dropWhile isBlank

/-- What follows a comment, or all if there is none. -/
def skipComment : List Char → List Char
  | '#' :: rest => rest.dropWhile isVisible
  | rest => rest

def lineEnd? (chars : List Char) : Option (List Char) :=
  match skipComment (skipBlanks chars) with
  | [] => some []
  | rest => newline? rest

/-- What follows blanks, ends of lines and comments with their ends of lines. -/
def skipLines (chars : List Char) : List Char :=
  (repeated (fun chars =>
    match chars with
    | [] => none
    | c :: rest =>
      if isBlank c then some ((), rest)
      else (newline? (skipComment (c :: rest))).map ((), ·)) chars).2

def isBareKeyChar (c : Char) : Bool :=
  c.isAlphanum || c == '-' || c == '_'

def simpleKey? (chars : List Char) : Option (String × List Char) :=
  match chars with
  | '"' :: _ | '\'' :: _ => Quoted.line? chars
  | _ =>
    let key := chars.takeWhile isBareKeyChar
    if key.isEmpty then none else some (String.ofList key, chars.dropWhile isBareKeyChar)

def spacedKey? (chars : List Char) : Option (String × List Char) :=
  (simpleKey? (skipBlanks chars)).map fun (key, rest) => (key, skipBlanks rest)

/-- Keys that are joined by dots. -/
structure DottedKey where
  /-- All keys but the last one. -/
  dots : List String
  key : String

def DottedKey.ofKeys (first : String) (others : List String) : DottedKey where
  dots := (first :: others).dropLast
  key := (first :: others).getLast (List.cons_ne_nil first others)

def dottedKey? (chars : List Char) : Option (DottedKey × List Char) :=
  match spacedKey? chars with
  | none => none
  | some (first, rest) =>
    let (others, rest) := repeated (fun
      | '.' :: rest => spacedKey? rest
      | _ => none) rest
    if others.length < nestingLimit then some (DottedKey.ofKeys first others, rest) else none

def pair? (value? : List Char → Option (Value × List Char)) (chars : List Char) :
    Option ((DottedKey × Value) × List Char) :=
  match dottedKey? chars with
  | some (key, '=' :: rest) =>
    (value? (skipBlanks rest)).map fun (value, rest) => ((key, value), rest)
  | _ => none

/-- What follows an array after its opening bracket. The last value may have a comma after it. -/
def afterArray? (value? : List Char → Option (Value × List Char)) (chars : List Char) :
    Option (List Char) :=
  let item? (chars : List Char) :=
    (value? (skipLines chars)).map fun (_, rest) => ((), skipLines rest)
  let last :=
    match item? chars with
    | none => skipLines chars
    | some (_, rest) =>
      let (_, rest) := repeated (fun
        | ',' :: rest => item? rest
        | _ => none) rest
      match rest with
      | ',' :: rest => skipLines rest
      | rest => rest
  match last with
  | ']' :: rest => some rest
  | _ => none

/-- Whether all keys of an inline table can stand in one table. -/
def isTable (pairs : List (DottedKey × Value)) : Bool :=
  (pairs.foldlM (fun (document : Document) (pair : DottedKey × Value) =>
    document.addValue? pair.1.dots pair.1.key pair.2) {}).isSome

/-- What follows an inline table after its opening brace. It stands on one line, and no comma
follows its last value. -/
def afterInlineTable? (value? : List Char → Option (Value × List Char)) (chars : List Char) :
    Option (List Char) :=
  let item? (chars : List Char) :=
    (pair? value? chars).map fun (pair, rest) => (pair, skipBlanks rest)
  let (pairs, rest) :=
    match item? chars with
    | none => ([], skipBlanks chars)
    | some (first, rest) =>
      let (others, rest) := repeated (fun
        | ',' :: rest => item? rest
        | _ => none) rest
      (first :: others, rest)
  match rest with
  | '}' :: rest => if isTable pairs then some rest else none
  | _ => none

/-- A value in which at most `levels` arrays and inline tables are nested, and what follows it. -/
def value? (levels : Nat) (chars : List Char) : Option (Value × List Char) :=
  match chars with
  | '"' :: _ | '\'' :: _ => (Quoted.after? chars).map (.other, ·)
  | '[' :: rest =>
    match levels with
    | 0 => none
    | levels + 1 => (afterArray? (value? levels) rest).map (.other, ·)
  | '{' :: rest =>
    match levels with
    | 0 => none
    | levels + 1 => (afterInlineTable? (value? levels) rest).map (.other, ·)
  | _ => Scalar.leading? chars

/-- A line that is not empty. -/
inductive Line where
  | pair (key : DottedKey) (value : Value)
  | table (key : DottedKey)
  | element (key : DottedKey)

/-- A header after its opening bracket. -/
def header? : List Char → Option (Line × List Char)
  | '[' :: rest =>
    match dottedKey? rest with
    | some (key, ']' :: ']' :: rest) => some (.element key, rest)
    | _ => none
  | rest =>
    match dottedKey? rest with
    | some (key, ']' :: rest) => some (.table key, rest)
    | _ => none

def content? (chars : List Char) : Option (Option Line × List Char) :=
  match chars with
  | '[' :: rest => (header? rest).map fun (line, rest) => (some line, rest)
  | '#' :: _ => some (none, chars)
  | '\n' :: _ => some (none, chars)
  | '\r' :: _ => some (none, chars)
  | _ =>
    (pair? (value? nestingLimit) chars).map fun ((key, value), rest) =>
      (some (.pair key value), rest)

def line? (chars : List Char) : Option (Option Line × List Char) :=
  match content? (skipBlanks chars) with
  | none => none
  | some (line, rest) => (lineEnd? rest).map (line, ·)

def Document.add? (document : Document) : Line → Option Document
  | .pair key value => document.addValue? key.dots key.key value
  | .table key => document.openTable? key.dots key.key
  | .element key => document.openElement? key.dots key.key

/-- A byte order mark before the first line does not count. -/
def withoutMark : List Char → List Char
  | '\uFEFF' :: rest => rest
  | chars => chars

/-- The document that all of a text is. -/
def parse? (chars : List Char) : Option Document :=
  let (lines, rest) := repeated line? (withoutMark chars)
  if (skipBlanks rest).isEmpty then (lines.filterMap id).foldlM Document.add? {} else none

end CausalWeave.Toml
