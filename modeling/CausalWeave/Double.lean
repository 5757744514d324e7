/-! Finite binary64 numbers, held exactly: a sign and the rank of the absolute value in the ascending row of
all nonnegative finite doubles. -/

namespace CausalWeave

/-- Two to the power of 52: the significands of all but the smallest doubles begin here. -/
def Double.leastSignificand : Nat := 0x10000000000000

/-- The number of finite nonnegative doubles, which is the rank that infinity would have. -/
def Double.infinityRank : Nat := 2047 * leastSignificand

structure Double where
  negative : Bool
  /-- How many nonnegative doubles are smaller than the absolute value. -/
  rank : Nat
  finite : rank < Double.infinityRank := by decide
deriving DecidableEq

namespace Double

/-- The whole number that a rank scales by a power of two. -/
def significand (rank : Nat) : Nat :=
  if rank < leastSignificand then rank else leastSignificand + rank % leastSignificand

/-- The power of two that scales the significand of a rank. -/
def exponent (rank : Nat) : Int :=
  if rank < leastSignificand then -1074 else Int.ofNat (rank / leastSignificand) - 1075

/-- The quotient to the nearest whole number; a half goes to the even neighbour. -/
def roundQuotient (numerator denominator : Nat) : Nat :=
  let whole := numerator / denominator
  let twice := 2 * (numerator % denominator)
  if twice < denominator then whole
  else if denominator < twice then whole + 1
  else whole + whole % 2

/-- The rank nearest to `numerator / denominator`, as if there were no largest double. -/
def nearestRank (numerator denominator : Nat) : Nat :=
  if numerator = 0 then 0
  else
    let estimate := Int.ofNat numerator.log2 - Int.ofNat denominator.log2
    let reached := denominator <<< estimate.toNat ≤ numerator <<< (-estimate).toNat
    let power := if reached then estimate else estimate - 1
    let scale := max (power - 52) (-1074)
    (scale + 1074).toNat * leastSignificand +
      roundQuotient (numerator <<< (-scale).toNat) (denominator <<< scale.toNat)

/-- The nearest rank to a fraction times a power of two. -/
def nearestScaled (numerator denominator : Nat) (power : Int) : Nat :=
  nearestRank (numerator <<< power.toNat) (denominator <<< (-power).toNat)

def product (first second : Nat) : Nat :=
  nearestScaled (significand first * significand second) 1 (exponent first + exponent second)

def quotient (first second : Nat) : Nat :=
  nearestScaled (significand first) (significand second) (exponent first - exponent second)

/-- The largest power of ten that is a double has this exponent. -/
def largestTenPower : Nat := 308

def powerOfTen (exponent : Nat) : Nat :=
  nearestRank (Nat.pow 10 exponent) 1

/-- Divides by a power of ten, at most the largest one at a time. -/
def dividedByTen (rank power : Nat) : Nat :=
  if rank = 0 then 0
  else if power ≤ largestTenPower then quotient rank (powerOfTen power)
  else dividedByTen (quotient rank (powerOfTen largestTenPower)) (power - largestTenPower)
termination_by power
decreasing_by simp [largestTenPower] at *; omega

/-- Multiplies by a power of ten; `none` when that power is no double. -/
def multipliedByTen? (rank power : Nat) : Option Nat :=
  if rank = 0 then some 0
  else if power ≤ largestTenPower then some (product rank (powerOfTen power))
  else none

/-- The double of a significand and a power of ten, by one rounded product or quotient: it may
miss the nearest double by a last place. `none` when it is too large to be finite. -/
def ofDecimal? (negative : Bool) (significand : Nat) (power : Int) : Option Double :=
  let unscaled := nearestRank significand 1
  let scaled :=
    match power with
    | .ofNat power => multipliedByTen? unscaled power
    | .negSucc power => some (dividedByTen unscaled (power + 1))
  scaled.bind fun rank =>
    if finite : rank < infinityRank then some { negative, rank, finite } else none

/-- Whether two doubles are the same number: the two zeros are. -/
def same (first second : Double) : Bool :=
  first.rank == second.rank && (first.negative == second.negative || first.rank == 0)

theorem same_refl (double : Double) : double.same double = true := by
  simp [same]

end Double
end CausalWeave
