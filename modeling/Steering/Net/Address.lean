import Steering.Net.Numeral
/-! Internet addresses: their text forms and the one family a mapped address belongs to. -/

namespace Steering.Net

/-- An IPv4 address, as its 32 bits. -/
structure Ipv4 where
  bits : BitVec 32
deriving DecidableEq, Repr

/-- An IPv6 address, as its 128 bits. -/
structure Ipv6 where
  bits : BitVec 128
deriving DecidableEq, Repr

/-- An address of either family. -/
inductive Address where
  | v4 (address : Ipv4)
  | v6 (address : Ipv6)
deriving DecidableEq, Repr

namespace Ipv4

instance : Inhabited Ipv4 := ⟨⟨0⟩⟩

/-- The address with the given octets. -/
def ofOctets (a b c d : Nat) : Ipv4 :=
  ⟨BitVec.ofNat 32 (((a * 256 + b) * 256 + c) * 256 + d)⟩

/-- The four octets, first to last. -/
def octets (address : Ipv4) : List Nat :=
  let n := address.bits.toNat
  [n / 0x1000000 % 256, n / 0x10000 % 256, n / 0x100 % 256, n % 256]

/-- The dotted form: the octets in decimal, without leading zeros. -/
def text (address : Ipv4) : String :=
  ".".intercalate (address.octets.map toString)

/-- Reads a dotted address at the front. -/
def read (cs : List Char) : Option (Ipv4 × List Char) := do
  let (a, cs) ← readNumber octetForm cs
  let (b, cs) ← readNumber octetForm (← readChar '.' cs)
  let (c, cs) ← readNumber octetForm (← readChar '.' cs)
  let (d, cs) ← readNumber octetForm (← readChar '.' cs)
  return (ofOctets a b c d, cs)

/-- Reads a whole text as a dotted address. -/
def parse? (s : String) : Option Ipv4 :=
  match read s.toList with
  | some (address, []) => some address
  | _ => none

end Ipv4

namespace Ipv6

/-- The address with the given groups of sixteen bits. -/
def ofGroups (groups : List Nat) : Ipv6 :=
  ⟨BitVec.ofNat 128 (groups.foldl (fun n g => n * 65536 + g) 0)⟩

/-- Reads groups separated by colons, at most `room` more of them; the last two may be written
as a dotted address. Gives the groups, whether a dotted address ended them, and the rest. -/
def readGroups (first : Bool) : Nat → List Char → List Nat × Bool × List Char
  | 0, cs => ([], false, cs)
  | room + 1, cs =>
    match (if first then some cs else readChar ':' cs) with
    | none => ([], false, cs)
    | some inner =>
      match (if room = 0 then none else Ipv4.read inner) with
      | some (dotted, rest) =>
        ([dotted.bits.toNat / 65536, dotted.bits.toNat % 65536], true, rest)
      | none =>
        match readNumber groupForm inner with
        | none => ([], false, cs)
        | some (group, rest) =>
          let (groups, dotted, rest) := readGroups false room rest
          (group :: groups, dotted, rest)

/-- Reads an address at the front: eight groups, or fewer around one `::`, which stands for at
least one group of zeros and may not follow a dotted part. -/
def read (cs : List Char) : Option (Ipv6 × List Char) :=
  let (head, dotted, rest) := readGroups true 8 cs
  if head.length = 8 then some (ofGroups head, rest)
  else if dotted then none
  else do
    let rest ← readChar ':' (← readChar ':' rest)
    let (tail, _, rest) := readGroups true (7 - head.length) rest
    let zeros := List.replicate (8 - head.length - tail.length) 0
    return (ofGroups (head ++ zeros ++ tail), rest)

/-- The IPv4 address in an address of the form `::ffff:a.b.c.d`. -/
def mapped? (address : Ipv6) : Option Ipv4 :=
  if address.bits.toNat / 0x100000000 = 0xFFFF then
    some ⟨BitVec.ofNat 32 (address.bits.toNat % 0x100000000)⟩
  else none

end Ipv6

namespace Address

/-- The IPv4 address that an address is or maps; an IPv6 address of another form has none. -/
def ipv4? : Address → Option Ipv4
  | v4 address => some address
  | v6 address => address.mapped?

/-- Reads a whole text as an address of either family. -/
def parse? (s : String) : Option Address :=
  match Ipv4.read s.toList with
  | some (address, []) => some (v4 address)
  | _ =>
    match Ipv6.read s.toList with
    | some (address, []) => some (v6 address)
    | _ => none

end Address

end Steering.Net
