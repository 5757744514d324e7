/-! The lexer takes one character at a time. Numbers keep their digits and texts tell whether they are
Unicode, so that nothing is refused here for its value. -/

namespace CausalWeave.Json

structure Numeral where
  negative : Bool
  /-- Never empty, and begins with zero only if that is all. -/
  whole : List Nat
  /-- The digits after the point, at least one of them. -/
  fraction : Option (List Nat)
  /-- The digits of the power of ten, and whether it is negative. -/
  power : Option (Bool × List Nat)
deriving DecidableEq

inductive Token where
  | openArray
  | closeArray
  | openObject
  | closeObject
  | colon
  | comma
  | null
  | bool (value : Bool)
  | number (value : Numeral)
  /-- No content when an escape names half of a character only. -/
  | text (value : Option String)
deriving DecidableEq

namespace Numeral

def digit? (c : Char) : Option Nat :=
  if c.isDigit then some (c.toNat - '0'.toNat) else none

def leadingDigits : List Char → List Nat × List Char
  | [] => ([], [])
  | c :: rest =>
    match digit? c with
    | none => ([], c :: rest)
    | some digit =>
      let (digits, others) := leadingDigits rest
      (digit :: digits, others)

/-- A point and at least one digit, if there is a point. -/
def fraction? : List Char → Option (Option (List Nat) × List Char)
  | '.' :: rest =>
    match leadingDigits rest with
    | ([], _) => none
    | (digits, others) => some (some digits, others)
  | rest => some (none, rest)

def powerSign : List Char → Bool × List Char
  | '-' :: rest => (true, rest)
  | '+' :: rest => (false, rest)
  | rest => (false, rest)

/-- The mark of a power, its sign and at least one digit, if there is the mark. -/
def power? : List Char → Option (Option (Bool × List Nat) × List Char)
  | [] => some (none, [])
  | c :: rest =>
    if c = 'e' ∨ c = 'E' then
      let (negative, unsigned) := powerSign rest
      match leadingDigits unsigned with
      | ([], _) => none
      | (digits, others) => some (some (negative, digits), others)
    else some (none, c :: rest)

def sign : List Char → Bool × List Char
  | '-' :: rest => (true, rest)
  | rest => (false, rest)

def ofChars? (chars : List Char) : Option Numeral :=
  let (negative, unsigned) := sign chars
  let (whole, afterWhole) := leadingDigits unsigned
  if whole.isEmpty ∨ (whole.head? = some 0 ∧ whole.length ≠ 1) then none
  else
    match fraction? afterWhole with
    | none => none
    | some (fraction, afterFraction) =>
      match power? afterFraction with
      | some (power, []) => some { negative, whole, fraction, power }
      | _ => none

def numberOfDigits (digits : List Nat) : Nat :=
  digits.foldl (fun number digit => 10 * number + digit) 0

/-- The whole number that is written, when it is written without a point and a power. The
negative zero is none. -/
def whole? (numeral : Numeral) : Option Int :=
  match numeral.fraction, numeral.power with
  | none, none =>
    match numeral.negative, numberOfDigits numeral.whole with
    | false, magnitude => some magnitude
    | true, 0 => none
    | true, magnitude => some (-magnitude)
  | _, _ => none

end Numeral

/-- A text that is being read. -/
structure PartialText where
  /-- The characters so far, the last one first; none after half of a character. -/
  chars : Option (List Char) := some []
  /-- The first half of a character, written as an escape. -/
  half : Option Nat := none
deriving DecidableEq

namespace PartialText

/-- A first half must be followed by its second half at once. -/
def push (partialText : PartialText) (c : Char) : PartialText where
  chars := if partialText.half.isSome then none else partialText.chars.map (c :: ·)

/-- An escape by number: a character, or a half of one that lies beyond the first plane. -/
def pushUnit (partialText : PartialText) (unit : Nat) : PartialText :=
  if 0xD800 ≤ unit ∧ unit < 0xDC00 then
    { chars := if partialText.half.isSome then none else partialText.chars, half := some unit }
  else if 0xDC00 ≤ unit ∧ unit < 0xE000 then
    match partialText.half with
    | none => { chars := none }
    | some first =>
      let c := Char.ofNat (0x10000 + (first - 0xD800) * 0x400 + (unit - 0xDC00))
      { chars := partialText.chars.map (c :: ·) }
  else partialText.push (Char.ofNat unit)

def finish (partialText : PartialText) : Option String :=
  if partialText.half.isSome then none
  else partialText.chars.map fun chars => String.ofList chars.reverse

end PartialText

namespace Token

/-- What the lexer is in the middle of. -/
inductive Mode where
  | between
  /-- The letters so far, the last one first. -/
  | word (letters : List Char)
  /-- The characters so far, the last one first. -/
  | number (chars : List Char)
  | text (content : PartialText)
  | escape (content : PartialText)
  /-- Inside an escape by number: how many digits are to come, and the value so far. -/
  | unit (content : PartialText) (missing : Nat) (value : Nat)

def isBlank (c : Char) : Bool :=
  c == ' ' || c == '\t' || c == '\n' || c == '\r'

def isNumberChar (c : Char) : Bool :=
  c.isDigit || c == '-' || c == '+' || c == '.' || c == 'e' || c == 'E'

def hexValue? (c : Char) : Option Nat :=
  if c.isDigit then some (c.toNat - '0'.toNat)
  else if 'a' ≤ c ∧ c ≤ 'f' then some (c.toNat - 'a'.toNat + 10)
  else if 'A' ≤ c ∧ c ≤ 'F' then some (c.toNat - 'A'.toNat + 10)
  else none

def ofWord? (letters : List Char) : Option Token :=
  if letters = ['n', 'u', 'l', 'l'] then some .null
  else if letters = ['t', 'r', 'u', 'e'] then some (.bool true)
  else if letters = ['f', 'a', 'l', 's', 'e'] then some (.bool false)
  else none

def start (c : Char) : Option (List Token × Mode) :=
  match c with
  | '[' => some ([openArray], .between)
  | ']' => some ([closeArray], .between)
  | '{' => some ([openObject], .between)
  | '}' => some ([closeObject], .between)
  | ':' => some ([colon], .between)
  | ',' => some ([comma], .between)
  | '"' => some ([], .text {})
  | c =>
    if isBlank c then some ([], .between)
    else if c.isLower then some ([], .word [c])
    else if c.isDigit || c == '-' then some ([], .number [c])
    else none

def escape? (c : Char) : Option Char :=
  match c with
  | '"' => some '"'
  | '\\' => some '\\'
  | '/' => some '/'
  | 'b' => some '\x08'
  | 'f' => some '\x0c'
  | 'n' => some '\n'
  | 'r' => some '\r'
  | 't' => some '\t'
  | _ => none

/-- Ends a token that its own last character does not end, and takes the character after it. -/
def endBefore (token : Option Token) (c : Char) : Option (List Token × Mode) :=
  match token, start c with
  | some token, some (begun, mode) => some (token :: begun, mode)
  | _, _ => none

/-- One character: the tokens that it completes and what it leaves the lexer in. -/
def step (mode : Mode) (c : Char) : Option (List Token × Mode) :=
  match mode with
  | .between => start c
  | .word letters =>
    if c.isLower then some ([], .word (c :: letters))
    else endBefore (ofWord? letters.reverse) c
  | .number chars =>
    if isNumberChar c then some ([], .number (c :: chars))
    else endBefore ((Numeral.ofChars? chars.reverse).map number) c
  | .text content =>
    if c = '"' then some ([text content.finish], .between)
    else if c = '\\' then some ([], .escape content)
    else if c.toNat < 0x20 then none
    else some ([], .text (content.push c))
  | .escape content =>
    if c = 'u' then some ([], .unit content 4 0)
    else (escape? c).map fun meant => ([], .text (content.push meant))
  | .unit content missing value =>
    (hexValue? c).map fun digit =>
      let value := 16 * value + digit
      if missing ≤ 1 then ([], .text (content.pushUnit value))
      else ([], .unit content (missing - 1) value)

/-- The token that the end of the input completes. -/
def finish : Mode → Option (List Token)
  | .between => some []
  | .word letters => (ofWord? letters.reverse).map ([·])
  | .number chars => (Numeral.ofChars? chars.reverse).map ([number ·])
  | _ => none

/-- Reads on from a mode; the tokens so far are held with the last one first. -/
def scanFrom (done : List Token) (mode : Mode) : List Char → Option (List Token)
  | [] => (finish mode).map fun last => done.reverse ++ last
  | c :: rest =>
    match step mode c with
    | none => none
    | some (completed, next) => scanFrom (completed.reverse ++ done) next rest

def scan (chars : List Char) : Option (List Token) :=
  scanFrom [] .between chars

end Token
end CausalWeave.Json
