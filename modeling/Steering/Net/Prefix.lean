import Steering.Net.Address
/-! Prefixes of IPv4 addresses, written as an address and a length or a mask. The address keeps
its bits below the length. -/

namespace Steering.Net

/-- An IPv4 prefix: an address and how many of its leading bits count. -/
structure Prefix where
  address : Ipv4
  length : Nat
  length_le : length ≤ 32
deriving DecidableEq, Repr

namespace Prefix

/-- The leading bits of an address that a prefix of some length looks at. -/
def leadingBits (length : Nat) (address : Ipv4) : Nat :=
  address.bits.toNat / Nat.pow 2 (32 - length)

/-- Whether an address agrees with the prefix in all bits that count. -/
def contains (p : Prefix) (address : Ipv4) : Bool :=
  leadingBits p.length p.address == leadingBits p.length address

/-- The written form: the address as it was given, a slash and the length. -/
def text (p : Prefix) : String :=
  p.address.text ++ "/" ++ toString p.length

/-- The length of a mask, which is ones followed by zeros. -/
def maskLength? (mask : Ipv4) : Option Nat :=
  (List.range 33).find? fun length => mask.bits.toNat == 0x100000000 - Nat.pow 2 (32 - length)

/-- Reads what follows the slash: a mask in dotted form or a decimal length. -/
def parseLength? (s : String) : Option Nat :=
  match Ipv4.parse? s with
  | some mask => maskLength? mask
  | none => (parseDecimal 255 s.toList).filter (· ≤ 32)

/-- Reads a prefix. Without a slash the whole address counts; a second slash is refused. -/
def parse? (s : String) : Option Prefix :=
  let cs := s.toList
  let before := cs.takeWhile (· ≠ '/')
  let found := match cs.dropWhile (· ≠ '/') with
    | [] => some 32
    | _ :: after => parseLength? (String.ofList after)
  match Ipv4.parse? (String.ofList before), found with
  | some address, some length =>
    if h : length ≤ 32 then some ⟨address, length, h⟩ else none
  | _, _ => none

end Prefix

end Steering.Net
