import Steering.Binary64.Basic
/-! Rounding a quotient of natural numbers to the nearest double, a tie to the even one.
Conversion, multiplication and division are all this one function. -/

namespace Steering.Binary64

/-- The integer nearest to `num / den`, a tie going to the even one. -/
def roundDiv (num den : Nat) : Nat :=
  let quotient := num / den
  let twice := 2 * (num % den)
  if twice < den then quotient
  else if den < twice then quotient + 1
  else quotient + quotient % 2

/-- The largest `k` with `2 ^ k ≤ num / den`, for positive numbers. -/
def floorLog2 (num den : Nat) : Int :=
  let guess : Int := (num.log2 : Int) - den.log2
  if den * Nat.pow 2 guess.toNat ≤ num * Nat.pow 2 (-guess).toNat then guess else guess - 1

/-- The magnitude of the double nearest to `num / den`; beyond the largest one, infinity. -/
def nearestMagnitude (num den : Nat) : Nat :=
  if num = 0 then 0
  else
    let step : Int := max (floorLog2 num den - 52) (-1074)
    let rounded := roundDiv (num * Nat.pow 2 (-step).toNat) (den * Nat.pow 2 step.toNat)
    min ((step + 1074).toNat * 0x10000000000000 + rounded) infinityMagnitude

/-- The double nearest to `num / den`, with a sign. -/
def ofRatio (sign : Bool) (num den : Nat) : Binary64 :=
  ofMagnitude sign (nearestMagnitude num den)

/-- The double nearest to a natural number. -/
def ofNat (n : Nat) : Binary64 :=
  ofRatio false n 1

/-- The double nearest to an integer. -/
def ofInt (n : Int) : Binary64 :=
  ofRatio (n < 0) n.natAbs 1

/-- The numerator of a finite number over `denominator`. -/
def numerator (x : Binary64) : Nat :=
  x.significand * Nat.pow 2 x.exponent.toNat

/-- The power of two that a finite number is a fraction of. -/
def denominator (x : Binary64) : Nat :=
  Nat.pow 2 (-x.exponent).toNat

/-- The product of two finite numbers, rounded. -/
def mul (x y : Binary64) : Binary64 :=
  ofRatio (x.signed != y.signed) (x.numerator * y.numerator) (x.denominator * y.denominator)

/-- The quotient of a finite number by a finite number other than zero, rounded. -/
def div (x y : Binary64) : Binary64 :=
  ofRatio (x.signed != y.signed) (x.numerator * y.denominator) (x.denominator * y.numerator)

end Steering.Binary64
