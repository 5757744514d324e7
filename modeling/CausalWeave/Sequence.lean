import CausalWeave.Atom.Encoding
import CausalWeave.Text.WhiteSpace

namespace CausalWeave.Sequence

def header : String := "# weave atoms v1"

def encodeLines (atoms : List Atom) : List Char :=
  atoms.flatMap fun atom => atom.toJson.compactText ++ ['\n']

def encode (atoms : List Atom) : String :=
  String.ofList (header.toList ++ '\n' :: encodeLines atoms)

/-- The number, from one, of a line that is no atom. -/
structure DecodeError where
  line : Nat
deriving DecidableEq

/-- A line, held with its last character first, without the carriage return that ends it. -/
def withoutReturn : List Char → List Char
  | '\r' :: rest => rest
  | line => line

/-- The lines of a text of which the first has begun; what has been read of it has the last
character first. A line feed ends a line, and the carriage return before it goes with it. -/
def linesFrom (line : List Char) : List Char → List (List Char)
  | [] => if line.isEmpty then [] else [line.reverse]
  | c :: rest =>
    if c = '\n' then (withoutReturn line).reverse :: linesFrom [] rest
    else linesFrom (c :: line) rest

def lines (chars : List Char) : List (List Char) :=
  linesFrom [] chars

/-- Blank lines and comments hold no atom. -/
def isSkipped (line : List Char) : Bool :=
  match line.dropWhile Text.isWhiteSpace with
  | [] => true
  | c :: _ => c == '#'

def decodeLines (number : Nat) : List (List Char) → Except DecodeError (List Atom)
  | [] => .ok []
  | line :: rest =>
    if isSkipped line then decodeLines (number + 1) rest
    else
      match Atom.parse? line with
      | none => .error { line := number }
      | some atom => (decodeLines (number + 1) rest).map (atom :: ·)

def decode (text : String) : Except DecodeError (List Atom) :=
  decodeLines 1 (lines text.toList)

end CausalWeave.Sequence
