import CausalWeave.Text.Repeated

namespace CausalWeave.Toml.Quoted

open CausalWeave.Text (repeated)

/-- The characters that may stand in comments and texts of one line: no control characters but the
tab. -/
def isVisible (c : Char) : Bool :=
  c == '\t' || (0x20 ≤ c.toNat && c.toNat ≤ 0x7E) || 0x80 ≤ c.toNat

def isBlank (c : Char) : Bool :=
  c == ' ' || c == '\t'

def newline? : List Char → Option (List Char)
  | '\n' :: rest => some rest
  | '\r' :: '\n' :: rest => some rest
  | _ => none

def hexValue? (c : Char) : Option Nat :=
  if c.isDigit then some (c.toNat - '0'.toNat)
  else if 'a' ≤ c ∧ c ≤ 'f' then some (c.toNat - 'a'.toNat + 10)
  else if 'A' ≤ c ∧ c ≤ 'F' then some (c.toNat - 'A'.toNat + 10)
  else none

/-- The character whose number is written with `width` digits. -/
def numbered? (width : Nat) (chars : List Char) : Option (Char × List Char) := do
  let digits ← (chars.take width).mapM hexValue?
  let number := digits.foldl (fun number digit => 16 * number + digit) 0
  if digits.length = width ∧ number.isValidChar then
    some (Char.ofNat number, chars.drop width)
  else none

/-- What a backslash and the characters after it stand for. -/
def escape? : List Char → Option (Char × List Char)
  | 'b' :: rest => some ('\x08', rest)
  | 't' :: rest => some ('\t', rest)
  | 'n' :: rest => some ('\n', rest)
  | 'f' :: rest => some ('\x0c', rest)
  | 'r' :: rest => some ('\r', rest)
  | '"' :: rest => some ('"', rest)
  | '\\' :: rest => some ('\\', rest)
  | 'u' :: rest => numbered? 4 rest
  | 'U' :: rest => numbered? 8 rest
  | _ => none

/-- One character of a basic text. -/
def basicChar? : List Char → Option (Char × List Char)
  | '\\' :: rest => escape? rest
  | c :: rest => if isVisible c && c != '"' then some (c, rest) else none
  | [] => none

/-- One character of a literal text. -/
def literalChar? : List Char → Option (Char × List Char)
  | c :: rest => if isVisible c && c != '\'' then some (c, rest) else none
  | [] => none

/-- The characters up to a closing quote, and what follows the quote. -/
def closed? (char? : List Char → Option (Char × List Char)) (quote : Char) (chars : List Char) :
    Option (String × List Char) :=
  let (content, rest) := repeated char? chars
  match rest with
  | c :: rest => if c = quote then some (String.ofList content, rest) else none
  | [] => none

def line? : List Char → Option (String × List Char)
  | '"' :: rest => closed? basicChar? '"' rest
  | '\'' :: rest => closed? literalChar? '\'' rest
  | _ => none

def isTriple (quote : Char) (chars : List Char) : Bool :=
  chars.take 3 == [quote, quote, quote]

def skipLines (chars : List Char) : List Char :=
  (repeated (fun chars =>
    match newline? chars, chars with
    | some rest, _ => some ((), rest)
    | none, c :: rest => if isBlank c then some ((), rest) else none
    | none, [] => none) chars).2

/-- One piece of a text that spans lines: a character, a quote that is not one of three, the end of
a line, or a backslash at the end of a line, which hides all blanks and ends of lines after it. -/
def spanningPiece? (char? : List Char → Option (Char × List Char)) (quote : Char)
    (chars : List Char) : Option (Unit × List Char) :=
  match newline? chars, char? chars with
  | some rest, _ => some ((), rest)
  | none, some (_, rest) => some ((), rest)
  | none, none =>
    match chars with
    | [] => none
    | c :: rest =>
      if c = quote then if isTriple quote chars then none else some ((), rest)
      else if c = '\\' ∧ quote = '"' then
        (newline? (rest.dropWhile isBlank)).map fun after => ((), skipLines after)
      else none

/-- What follows the closing quotes. Up to two quotes right before them belong to the text. -/
def afterTriple? (quote : Char) (chars : List Char) : Option (List Char) :=
  if isTriple quote chars then
    some (chars.drop (min 5 (chars.takeWhile (· == quote)).length))
  else none

/-- What follows a text that spans lines. The end of the line right after the opening quotes does
not belong to it. -/
def spanning? (char? : List Char → Option (Char × List Char)) (quote : Char)
    (chars : List Char) : Option (List Char) :=
  let content := (newline? chars).getD chars
  afterTriple? quote (repeated (spanningPiece? char? quote) content).2

def after? : List Char → Option (List Char)
  | '"' :: '"' :: '"' :: rest => spanning? basicChar? '"' rest
  | '\'' :: '\'' :: '\'' :: rest => spanning? literalChar? '\'' rest
  | chars => (line? chars).map (·.2)

end CausalWeave.Toml.Quoted
