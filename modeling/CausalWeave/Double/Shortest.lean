import CausalWeave.Double

/-! Of the decimals with the fewest digits that lie among the reals rounding to a double, the nearest one is
taken. -/

namespace CausalWeave.Double

/-- The power of ten of the first digit: `10 ^ (k - 1) ≤ value < 10 ^ k` holds of the result `k`
for a nonzero value. -/
def decimalLength (rank : Nat) : Int :=
  let numerator := significand rank <<< (exponent rank).toNat
  let denominator := 1 <<< (-exponent rank).toNat
  if denominator ≤ numerator then
    Int.ofNat (Nat.toDigits 10 (numerator / denominator)).length
  else
    let leading := (List.range 325).find? fun shift => denominator ≤ numerator * Nat.pow 10 shift
    1 - Int.ofNat (leading.getD 0)

/-- The decimal with `count` digits that rounds to the value of a rank, nearest to it and even on
a tie, as a whole number of `10 ^ power`; `none` when no decimal of that length does. -/
def onGrid? (rank : Nat) (power : Int) : Option Nat :=
  let whole := significand rank
  let step := exponent rank - 2
  let decimalUnit := Nat.pow 10 power.toNat <<< (-step).toNat
  let binaryUnit := Nat.pow 10 (-power).toNat <<< step.toNat
  let value := 4 * whole * binaryUnit
  let gapBelow := if whole = leastSignificand ∧ 2 * leastSignificand ≤ rank then 1 else 2
  let lowest := value - gapBelow * binaryUnit
  let highest := value + 2 * binaryUnit
  let reads (candidate : Nat) : Bool :=
    let place := candidate * decimalUnit
    if whole % 2 = 0 then lowest ≤ place ∧ place ≤ highest
    else lowest < place ∧ place < highest
  let below := value / decimalUnit
  let above := below + 1
  match reads below, reads above with
  | false, false => none
  | true, false => some below
  | false, true => some above
  | true, true =>
    let middle := (below + above) * decimalUnit
    if 2 * value < middle then some below
    else if middle < 2 * value then some above
    else some (below + below % 2)

/-- The digits of the shortest decimal, without trailing zeros, and the power of ten of the
first. -/
def shortest (rank : Nat) : List Char × Int :=
  let length := decimalLength rank
  let found := (List.range 17).findSome? fun fewer =>
    let power := length - Int.ofNat (fewer + 1)
    (onGrid? rank power).map fun whole => (Nat.toDigits 10 whole, power)
  match found with
  | none => (['0'], 0)
  | some (digits, power) =>
    ((digits.reverse.dropWhile (· == '0')).reverse, power + Int.ofNat digits.length - 1)

/-- Which powers of ten of the first digit are written without an exponent. -/
structure PlainRange where
  least : Int
  greatest : Int

/-- Numbers from `0.00001` up to below `10 ^ 16` are written without an exponent. -/
def plainRange : PlainRange where
  least := -5
  greatest := 15

/-- Digits with a point in them, at least one digit on each side. -/
def plainText (digits : List Char) (power : Int) : List Char :=
  match power with
  | .negSucc zeros => '0' :: '.' :: List.replicate zeros '0' ++ digits
  | .ofNat power =>
    let whole := digits.take (power + 1)
    let fraction := digits.drop (power + 1)
    whole ++ List.replicate (power + 1 - whole.length) '0' ++
      '.' :: (if fraction.isEmpty then ['0'] else fraction)

/-- One digit, a point and the others if there are others, and a signed exponent. -/
def exponentText (digits : List Char) (power : Int) : List Char :=
  let fraction := digits.drop 1
  digits.take 1 ++ (if fraction.isEmpty then [] else '.' :: fraction) ++
    'e' :: (if power < 0 then '-' else '+') :: Nat.toDigits 10 power.natAbs

/-- The text of a double: the shortest digits, always with a point or an exponent. -/
def text (double : Double) : List Char :=
  let sign := if double.negative then ['-'] else []
  if double.rank = 0 then sign ++ ['0', '.', '0']
  else
    let (digits, power) := shortest double.rank
    sign ++
      (if plainRange.least ≤ power ∧ power ≤ plainRange.greatest then plainText digits power
        else exponentText digits power)

end CausalWeave.Double
