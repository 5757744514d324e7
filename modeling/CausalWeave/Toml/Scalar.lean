import CausalWeave.Double

/-! Whole numbers keep their value; of other numbers, dates and times it only matters that they are well
formed. -/

namespace CausalWeave.Toml

inductive Value where
  | integer (value : Int)
  | other
deriving DecidableEq

namespace Scalar

/-- The characters of scalars. What may follow a scalar is none of them. -/
def isScalarChar (c : Char) : Bool :=
  c.isAlphanum || c == '+' || c == '-' || c == '_' || c == '.' || c == ':'

def digit? (base : Nat) (c : Char) : Option Nat :=
  let value :=
    if c.isDigit then some (c.toNat - '0'.toNat)
    else if 'a' ≤ c ∧ c ≤ 'f' then some (c.toNat - 'a'.toNat + 10)
    else if 'A' ≤ c ∧ c ≤ 'F' then some (c.toNat - 'A'.toNat + 10)
    else none
  value.filter (· < base)

/-- At least one digit. Single underscores may stand between digits. -/
def groupedDigits? (base : Nat) : List Char → Option (List Nat)
  | [] => none
  | [c] => (digit? base c).map ([·])
  | c :: '_' :: rest => do return (← digit? base c) :: (← groupedDigits? base rest)
  | c :: rest => do return (← digit? base c) :: (← groupedDigits? base rest)

def numberOfDigits (base : Nat) (digits : List Nat) : Nat :=
  digits.foldl (fun number digit => base * number + digit) 0

def sign : List Char → Bool × List Char
  | '-' :: rest => (true, rest)
  | '+' :: rest => (false, rest)
  | rest => (false, rest)

/-- Decimal digits of which the first is zero only if it is the last one. -/
def decimalDigits? (chars : List Char) : Option (List Nat) :=
  (groupedDigits? 10 chars).filter fun digits => digits.head? ≠ some 0 ∨ digits.length = 1

/-- A whole number before its range is checked. Only decimal ones have a sign. -/
def unbounded? : List Char → Option Int
  | '0' :: 'x' :: digits => (groupedDigits? 16 digits).map fun digits => numberOfDigits 16 digits
  | '0' :: 'o' :: digits => (groupedDigits? 8 digits).map fun digits => numberOfDigits 8 digits
  | '0' :: 'b' :: digits => (groupedDigits? 2 digits).map fun digits => numberOfDigits 2 digits
  | chars =>
    let (negative, unsigned) := sign chars
    (decimalDigits? unsigned).map fun digits =>
      let magnitude : Int := numberOfDigits 10 digits
      if negative then -magnitude else magnitude

def integer? (chars : List Char) : Option Int :=
  (unbounded? chars).filter fun value =>
    Int64.minValue.toInt ≤ value ∧ value ≤ Int64.maxValue.toInt

/-- Whether `digits * 10 ^ power` rounds to infinity. Numbers that are far from the limit are not
computed. -/
def isInfinite (digits : List Nat) (power : Int) : Bool :=
  let significand := numberOfDigits 10 digits
  let length := Int.ofNat (Nat.toDigits 10 significand).length + power
  if significand = 0 ∨ length < 300 then false
  else if 310 < length then true
  else
    Double.infinityRank ≤
      Double.nearestRank (significand * Nat.pow 10 power.toNat) (Nat.pow 10 (-power).toNat)

/-- The digits after the mark of a power, with a sign; zero when there is no mark. -/
def power? : List Char → Option Int
  | [] => some 0
  | _ :: signed =>
    let (negative, unsigned) := sign signed
    (groupedDigits? 10 unsigned).map fun digits =>
      let magnitude : Int := numberOfDigits 10 digits
      if negative then -magnitude else magnitude

def isPowerMark (c : Char) : Bool :=
  c == 'e' || c == 'E'

/-- A number with a fraction or a power of ten, or both. -/
def isFinite (chars : List Char) : Bool :=
  let (negative, unsigned) := sign chars
  let significand := unsigned.takeWhile (!isPowerMark ·)
  let powerPart := unsigned.dropWhile (!isPowerMark ·)
  let whole := significand.takeWhile (· != '.')
  let fractionPart := significand.dropWhile (· != '.')
  let fraction? :=
    match fractionPart with
    | [] => some []
    | _ :: digits => groupedDigits? 10 digits
  match decimalDigits? whole, fraction?, power? powerPart with
  | some digits, some fraction, some power =>
    !(fractionPart.isEmpty && powerPart.isEmpty) &&
      (negative || !isInfinite (digits ++ fraction) (power - fraction.length))
  | _, _, _ => false

def isSpecial (chars : List Char) : Bool :=
  let (_, unsigned) := sign chars
  unsigned == ['i', 'n', 'f'] || unsigned == ['n', 'a', 'n']

def twoDigits? (first second : Char) : Option Nat := do
  return 10 * (← digit? 10 first) + (← digit? 10 second)

def daysInMonth (year month : Nat) : Nat :=
  if month = 2 then
    if year % 4 = 0 ∧ (year % 100 ≠ 0 ∨ year % 400 = 0) then 29 else 28
  else if month = 4 ∨ month = 6 ∨ month = 9 ∨ month = 11 then 30
  else 31

def date? : List Char → Option (List Char)
  | y₁ :: y₂ :: y₃ :: y₄ :: '-' :: m₁ :: m₂ :: '-' :: d₁ :: d₂ :: rest => do
    let year := 100 * (← twoDigits? y₁ y₂) + (← twoDigits? y₃ y₄)
    let month ← twoDigits? m₁ m₂
    let day ← twoDigits? d₁ d₂
    if 1 ≤ month ∧ month ≤ 12 ∧ 1 ≤ day ∧ day ≤ daysInMonth year month then some rest else none
  | _ => none

/-- The fraction of a second, if there is one, and what follows it. -/
def secondFraction? : List Char → Option (List Char)
  | '.' :: rest =>
    match rest with
    | [] => none
    | c :: _ => if c.isDigit then some (rest.dropWhile Char.isDigit) else none
  | rest => some rest

/-- A time of day, which may fall on a leap second, and what follows it. -/
def time? : List Char → Option (List Char)
  | h₁ :: h₂ :: ':' :: m₁ :: m₂ :: ':' :: s₁ :: s₂ :: rest => do
    let hour ← twoDigits? h₁ h₂
    let minute ← twoDigits? m₁ m₂
    let second ← twoDigits? s₁ s₂
    if hour ≤ 23 ∧ minute ≤ 59 ∧ second ≤ 60 then secondFraction? rest else none
  | _ => none

/-- How far a time is from the universal one, or nothing. -/
def isOffset : List Char → Bool
  | [] => true
  | [c] => c == 'Z' || c == 'z'
  | [direction, h₁, h₂, ':', m₁, m₂] =>
    (direction == '+' || direction == '-') && (twoDigits? h₁ h₂).any (· ≤ 23) &&
      (twoDigits? m₁ m₂).any (· ≤ 59)
  | _ => false

/-- A date, a time, or both with a letter between them. -/
def isMoment (chars : List Char) : Bool :=
  match date? chars with
  | some [] => true
  | some (c :: rest) => (c == 'T' || c == 't') && (time? rest).any isOffset
  | none => time? chars == some []

def isBoolean (chars : List Char) : Bool :=
  chars == ['t', 'r', 'u', 'e'] || chars == ['f', 'a', 'l', 's', 'e']

/-- The value that all of a text is. -/
def ofChars? (chars : List Char) : Option Value :=
  match integer? chars with
  | some value => some (.integer value)
  | none =>
    if isBoolean chars || isFinite chars || isSpecial chars || isMoment chars then some .other
    else none

/-- The scalar at the start of a text, and what follows it. A date and a time may have a blank
between them. -/
def leading? (chars : List Char) : Option (Value × List Char) :=
  let scalar := chars.takeWhile isScalarChar
  let rest := chars.dropWhile isScalarChar
  match date? scalar, rest with
  | some [], ' ' :: c :: others =>
    if c.isDigit then
      let time := (c :: others).takeWhile isScalarChar
      (ofChars? (scalar ++ 'T' :: time)).map (·, (c :: others).dropWhile isScalarChar)
    else (ofChars? scalar).map (·, rest)
  | _, _ => (ofChars? scalar).map (·, rest)

end Scalar
end CausalWeave.Toml
