import Steering.Binary64.Basic
/-! The shortest decimal form of a double: the fewest significant digits that read back as the
number, of these the nearest to it, and of two as near the one that ends in an even digit. -/

namespace Steering.Binary64

/-- A positive decimal number `digits * 10 ^ power`. -/
structure Decimal where
  digits : Nat
  power : Int
deriving DecidableEq, Repr

/-- Whether `num / den` lies strictly below, or with `closed` also at, `num' / den'`. -/
def ratioBelow (closed : Bool) (num den num' den' : Nat) : Bool :=
  num * den' < num' * den || (closed && num * den' == num' * den)

/-- The real numbers that round to a positive finite number, times four: the lower end, the
number and the upper end, each to be multiplied by `2 ^ exponent`. -/
def roundingRange (x : Binary64) : Nat × Nat × Nat :=
  let m := x.significand
  let narrow := m = 0x10000000000000 ∧ 1 < x.magnitude / 0x10000000000000
  (if narrow then 4 * m - 1 else 4 * m - 2, 4 * m, 4 * m + 2)

/-- The largest `k` with `10 ^ k ≤ num / den`, searched downward from a start at or above it. -/
def floorLog10 (num den : Nat) : Nat → Int → Int
  | 0, k => k
  | fuel + 1, k =>
    if den * Nat.pow 10 k.toNat ≤ num * Nat.pow 10 (-k).toNat then k else floorLog10 num den fuel (k - 1)

/-- The candidate of a decimal grid for a positive finite number: the nearer of its two
neighbours on the grid `10 ^ power` that round to the number. -/
def onGrid? (x : Binary64) (power : Int) : Option Decimal :=
  let range := x.roundingRange
  let scale := Nat.pow 2 x.exponent.toNat * Nat.pow 10 (-power).toNat
  let unit := 4 * Nat.pow 2 (-x.exponent).toNat * Nat.pow 10 power.toNat
  let closed := x.significand % 2 == 0
  let value := range.2.1 * scale
  let down := value / unit
  let hits (n : Nat) : Bool :=
    0 < n && ratioBelow closed (range.1 * scale) unit n 1
      && ratioBelow closed n 1 (range.2.2 * scale) unit
  let downIsNearer :=
    2 * (value % unit) < unit || (2 * (value % unit) == unit && down % 2 == 0)
  if hits down && (downIsNearer || !hits (down + 1)) then some ⟨down, power⟩
  else if hits (down + 1) then some ⟨down + 1, power⟩
  else none

/-- The first grid that has a candidate, from one significant digit up to seventeen. -/
def shortestFrom (x : Binary64) (top : Int) : Decimal :=
  ((List.range 17).findSome? fun (more : Nat) => x.onGrid? (top - more)).getD ⟨0, 0⟩

/-- Drops the zeros at the end of the digits. -/
def Decimal.normalize : Nat → Decimal → Decimal
  | 0, d => d
  | fuel + 1, d =>
    if d.digits ≠ 0 ∧ d.digits % 10 = 0 then normalize fuel ⟨d.digits / 10, d.power + 1⟩ else d

/-- The shortest decimal that reads back as a positive finite number. -/
def shortest (x : Binary64) : Decimal :=
  let num := x.significand * Nat.pow 2 x.exponent.toNat
  let den := Nat.pow 2 (-x.exponent).toNat
  (x.shortestFrom (floorLog10 num den 700 310)).normalize 400

/-- How numbers are written: positional between two powers of ten, with an exponent outside. -/
structure Notation where
  /-- The least decimal exponent that is written positionally. -/
  leastPositional : Int
  /-- The first decimal exponent that is not. -/
  firstScientific : Int
  /-- What a positional number without a fraction ends in. -/
  wholeSuffix : String
  /-- What marks a positive exponent. -/
  positiveMark : String
  /-- What marks a negative exponent. -/
  negativeMark : String

/-- Digits with a point after the first `whole` of them, filled up with zeros. -/
def positional (style : Notation) (digits : String) (whole : Int) : String :=
  let count : Int := digits.length
  if whole ≤ 0 then "0." ++ "".pushn '0' (-whole).toNat ++ digits
  else if count ≤ whole then digits ++ "".pushn '0' (whole - count).toNat ++ style.wholeSuffix
  else (digits.take whole.toNat).toString ++ "." ++ (digits.drop whole.toNat).toString

/-- Digits with a point after the first, and an exponent. -/
def scientific (style : Notation) (digits : String) (power : Int) : String :=
  let fraction := (digits.drop 1).toString
  let mantissa := (digits.take 1).toString ++ (if fraction.isEmpty then "" else "." ++ fraction)
  let mark := if power < 0 then style.negativeMark else style.positiveMark
  mantissa ++ mark ++ toString power.natAbs

/-- The text of a positive finite number. -/
def writePositive (style : Notation) (x : Binary64) : String :=
  let decimal := x.shortest
  let digits := toString decimal.digits
  let power := decimal.power + digits.length - 1
  if style.leastPositional ≤ power ∧ power < style.firstScientific then
    positional style digits (power + 1)
  else scientific style digits power

/-- The text of a finite number. -/
def write (style : Notation) (x : Binary64) : String :=
  (if x.signed then "-" else "") ++
    (if x.magnitude = 0 then "0" ++ style.wholeSuffix else writePositive style x)

/-- The form of numbers in documents and messages: positional from `0.00001` up to sixteen
digits, always with a point or an exponent. -/
def documentNotation : Notation :=
  ⟨-5, 16, ".0", "e+", "e-"⟩

end Steering.Binary64
