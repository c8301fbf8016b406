/-! Numbers inside addresses: runs of digits with a bound on their count or their value. -/

namespace Steering.Net

/-- The value of a digit in a radix of at most sixteen. -/
def digitValue? (radix : Nat) (c : Char) : Option Nat :=
  let value :=
    if '0' ≤ c ∧ c ≤ '9' then some (c.toNat - '0'.toNat)
    else if 'a' ≤ c ∧ c ≤ 'f' then some (c.toNat - 'a'.toNat + 10)
    else if 'A' ≤ c ∧ c ≤ 'F' then some (c.toNat - 'A'.toNat + 10)
    else none
  value.filter (· < radix)

/-- Splits off the leading digits: their values and what follows them. -/
def splitDigits (radix : Nat) : List Char → List Nat × List Char
  | [] => ([], [])
  | c :: rest =>
    match digitValue? radix c with
    | some d => let (ds, tail) := splitDigits radix rest; (d :: ds, tail)
    | none => ([], c :: rest)

/-- The number that digits spell. -/
def ofDigits (radix : Nat) (digits : List Nat) : Nat :=
  digits.foldl (fun n d => n * radix + d) 0

/-- What a number inside an address may look like. -/
structure NumberForm where
  radix : Nat
  maxDigits : Option Nat
  maxValue : Nat
  leadingZeros : Bool

/-- The octets of an IPv4 address: no leading zeros. -/
def octetForm : NumberForm := ⟨10, some 3, 255, false⟩

/-- The groups of an IPv6 address. -/
def groupForm : NumberForm := ⟨16, some 4, 0xFFFF, true⟩

/-- The port of a socket address. -/
def portForm : NumberForm := ⟨10, none, 0xFFFF, true⟩

/-- The scope of an IPv6 socket address. -/
def scopeForm : NumberForm := ⟨10, none, 0xFFFFFFFF, true⟩

/-- Reads all leading digits as one number of the form, or fails. -/
def readNumber (form : NumberForm) (cs : List Char) : Option (Nat × List Char) :=
  let (digits, rest) := splitDigits form.radix cs
  let value := ofDigits form.radix digits
  if digits = [] then none
  else if form.maxDigits.any (· < digits.length) then none
  else if !form.leadingZeros && digits.length > 1 && digits.head? == some 0 then none
  else if form.maxValue < value then none
  else some (value, rest)

/-- Reads a given character. -/
def readChar (expected : Char) : List Char → Option (List Char)
  | [] => none
  | c :: rest => if c = expected then some rest else none

/-- Reads a whole text as a decimal number up to `maxValue`; one plus sign and any leading
zeros may come first. -/
def parseDecimal (maxValue : Nat) (cs : List Char) : Option Nat :=
  let digits := if cs.head? = some '+' then cs.tail else cs
  match readNumber ⟨10, none, maxValue, true⟩ digits with
  | some (value, []) => some value
  | _ => none

end Steering.Net
