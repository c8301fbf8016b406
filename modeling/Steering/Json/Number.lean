import Steering.Json.Cursor
import Steering.Binary64.Rounding
/-! Numbers in documents. A number without a fraction and an exponent is an integer if it fits
in 64 bits; any other is a double, made from at most the digits that fit in 64 bits and one
multiplication or division by a power of ten. -/

namespace Steering.Json

/-- A number as it is read. -/
inductive Number where
  | natural (value : Nat)
  | negative (value : Int)
  | float (value : Binary64)
deriving DecidableEq, Repr

/-- The number among the kinds of value that a reader can meet. -/
def Number.found : Number → Found
  | natural value => .integer value
  | negative value => .integer value
  | float value => .float value

/-- The double nearest to a number. -/
def Number.toBinary64 : Number → Binary64
  | natural value => .ofNat value
  | negative value => .ofInt value
  | float value => value

/-- Whether a byte is a decimal digit. -/
def isDigit (b : UInt8) : Bool :=
  0x30 ≤ b && b ≤ 0x39

/-- The decimal digits ahead. -/
def digitsAhead (c : Cursor) : List Nat :=
  (c.rest.takeWhile isDigit).map fun b => b.toNat - 0x30

/-- Appends digits to a significand as long as it fits in 64 bits; gives the significand and
how many digits were left out. -/
def appendDigits : Nat → List Nat → Nat × Nat
  | significand, [] => (significand, 0)
  | significand, d :: ds =>
    if significand * 10 + d < 0x10000000000000000 then appendDigits (significand * 10 + d) ds
    else (significand, ds.length + 1)

/-- The power of ten nearest to which a double is. -/
def powerOfTen (exponent : Nat) : Binary64 :=
  .ofNat (Nat.pow 10 exponent)

/-- A double times a power of ten, each step rounded: one multiplication or division where the
power itself is a double, and first divisions by the largest such power where it is smaller.
Nothing if the result is too large. -/
def scale (x : Binary64) (exponent : Int) : Option Binary64 :=
  if exponent < -308 then
    if x.magnitude = 0 then some x else scale (x.div (powerOfTen 308)) (exponent + 308)
  else if exponent < 0 then some (x.div (powerOfTen (-exponent).toNat))
  else if exponent ≤ 308 then
    let product := x.mul (powerOfTen exponent.toNat)
    if product.isFinite then some product else none
  else if x.magnitude = 0 then some x
  else none
termination_by (-exponent).toNat

/-- The double of a significand and a power of ten, with the sign applied last. -/
def ofParts (positive : Bool) (significand : Nat) (exponent : Int) (c : Cursor) :
    Except Fault (Number × Cursor) :=
  match scale (.ofNat significand) exponent with
  | none => .error (c.fault .numberOutOfRange)
  | some x => .ok (.float (if positive then x else x.negate), c)

/-- The largest exponent that is taken by its digits. -/
def maxExponent : Nat := 0x7FFFFFFF

/-- Reads the digits of an exponent. The result has nothing if the exponent is too large, with
the cursor after the digit that made it so. -/
def readExponentDigits (exponent : Nat) : List Nat → Cursor → Option Nat × Cursor
  | [], c => (some exponent, c)
  | d :: ds, c =>
    if maxExponent < exponent * 10 + d then (none, c.advance)
    else readExponentDigits (exponent * 10 + d) ds c.advance

/-- Reads the exponent of a number, from the letter on. -/
def readExponent (positive : Bool) (significand : Nat) (exponent : Int) (c : Cursor) :
    Except Fault (Number × Cursor) :=
  let c := c.advance
  let raises := c.peek? != some 0x2D
  let c := if c.peek? == some 0x2B || c.peek? == some 0x2D then c.advance else c
  match c.peek? with
  | none => .error (c.fault .endInValue)
  | some b =>
    if isDigit b then
      match readExponentDigits 0 (digitsAhead c) c with
      | (some written, c) =>
        ofParts positive significand (if raises then exponent + written else exponent - written) c
      | (none, c) =>
        if significand ≠ 0 ∧ raises then .error (c.fault .numberOutOfRange)
        else
          .ok (.float (if positive then .zero else Binary64.zero.negate),
            c.skip (digitsAhead c).length)
    else .error (c.advance.fault .invalidNumber)

/-- Whether the next byte starts an exponent. -/
def exponentAhead (c : Cursor) : Bool :=
  c.peek? == some 0x65 || c.peek? == some 0x45

/-- Reads the fraction of a number, from the point on, and what follows it. -/
def readFraction (positive : Bool) (significand : Nat) (exponent : Int) (c : Cursor) :
    Except Fault (Number × Cursor) :=
  let c := c.advance
  let digits := digitsAhead c
  if digits = [] then
    .error (c.faultAhead (if c.rest = [] then .endInValue else .invalidNumber))
  else
    let (significand, left) := appendDigits significand digits
    let exponent := exponent - (digits.length - left : Nat)
    let c := c.skip digits.length
    if exponentAhead c then readExponent positive significand exponent c
    else ofParts positive significand exponent c

/-- The number that an integer's digits alone make. -/
def ofInteger (positive : Bool) (value : Nat) : Number :=
  if positive then .natural value
  else if value = 0 ∨ 0x8000000000000000 < value then .float (Binary64.ofNat value).negate
  else .negative (-value)

/-- Reads a number after its sign. -/
def readNumber (positive : Bool) (c : Cursor) : Except Fault (Number × Cursor) :=
  match c.peek? with
  | none => .error (c.fault .endInValue)
  | some b =>
    let digits := digitsAhead c
    if !isDigit b then .error (c.advance.fault .invalidNumber)
    else if b = 0x30 ∧ 1 < digits.length then .error (c.advance.faultAhead .invalidNumber)
    else
      let (significand, left) := appendDigits 0 digits
      let c := c.skip digits.length
      if c.peek? == some 0x2E then readFraction positive significand left c
      else if exponentAhead c then readExponent positive significand left c
      else if left = 0 then .ok (ofInteger positive significand, c)
      else ofParts positive significand left c

/-- The written form of a number. -/
def Number.write : Number → String
  | natural value => toString value
  | negative value => toString value
  | float value => value.write Binary64.documentNotation

end Steering.Json
