/-! Double-precision numbers as bit patterns. Every operation is defined on natural numbers, so
that sign, order and rounding can be reasoned about without an opaque float type. -/

namespace Steering

/-- A number in the 64-bit binary format of IEEE 754: sign, 11 bits of exponent, 52 of fraction. -/
structure Binary64 where
  bits : UInt64
deriving DecidableEq, Repr

namespace Binary64

/-- The pattern without its sign bit, as a number below `2 ^ 63`. -/
def magnitude (x : Binary64) : Nat :=
  x.bits.toNat % 0x8000000000000000

/-- Whether the sign bit is set. -/
def signed (x : Binary64) : Bool :=
  0x8000000000000000 ≤ x.bits.toNat

/-- The magnitude of infinity; larger magnitudes are not numbers. -/
def infinityMagnitude : Nat := 0x7FF0000000000000

/-- The number with a given sign and magnitude. -/
def ofMagnitude (sign : Bool) (magnitude : Nat) : Binary64 :=
  ⟨UInt64.ofNat ((if sign then 0x8000000000000000 else 0) + magnitude % 0x8000000000000000)⟩

/-- Positive zero. -/
def zero : Binary64 := ⟨0⟩

/-- Positive or negative infinity. -/
def infinity (sign : Bool) : Binary64 :=
  ofMagnitude sign infinityMagnitude

/-- The quiet pattern that is not a number, with either sign. -/
def nan (sign : Bool) : Binary64 :=
  ofMagnitude sign 0x7FF8000000000000

instance : Inhabited Binary64 := ⟨zero⟩

/-- Whether the pattern stands for no number. -/
def isNaN (x : Binary64) : Bool :=
  infinityMagnitude < x.magnitude

/-- Whether the pattern stands for a finite number. -/
def isFinite (x : Binary64) : Bool :=
  x.magnitude < infinityMagnitude

/-- Whether the number is at least zero; zero of either sign is. -/
def isNonneg (x : Binary64) : Bool :=
  !x.isNaN && (!x.signed || x.magnitude == 0)

/-- The number with the other sign. -/
def negate (x : Binary64) : Binary64 :=
  ofMagnitude (!x.signed) x.magnitude

/-- The place of a pattern in the total order of IEEE 754: negative patterns by falling
magnitude, then positive ones by rising magnitude, so `-0.0` comes right before `0.0` and the
patterns that are not numbers come at both ends. -/
def orderKey (x : Binary64) : Int :=
  if x.signed then -(x.magnitude : Int) - 1 else x.magnitude

/-- The fraction with its leading bit: the integer `m` in `m * 2 ^ exponent`. -/
def significand (x : Binary64) : Nat :=
  if x.magnitude / 0x10000000000000 = 0 then x.magnitude
  else 0x10000000000000 + x.magnitude % 0x10000000000000

/-- The power of two that the significand is multiplied by. -/
def exponent (x : Binary64) : Int :=
  if x.magnitude / 0x10000000000000 = 0 then -1074
  else (x.magnitude / 0x10000000000000 : Nat) - 1075

/-- Whether two patterns stand for the same number: both zeros do, and what is not a number
equals nothing. -/
def sameNumber (x y : Binary64) : Bool :=
  !x.isNaN && !y.isNaN && (x == y || (x.magnitude == 0 && y.magnitude == 0))

end Binary64

end Steering
