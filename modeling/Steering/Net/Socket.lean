import Steering.Net.Address
/-! Listening addresses: which texts name a host and a port that can be listened on. -/

namespace Steering.Net

/-- A host and a port as far as they matter for listening. -/
structure Endpoint where
  host : Address
  port : Nat
deriving DecidableEq, Repr

namespace Endpoint

/-- Reads `address:port` with an IPv4 address, or `[address%scope]:port` with an IPv6 one, where
the scope may be left out. -/
def parseLiteral? (s : String) : Option Endpoint :=
  let cs := s.toList
  let port (host : Address) (cs : List Char) : Option Endpoint := do
    match ← readNumber portForm (← readChar ':' cs) with
    | (port, []) => some ⟨host, port⟩
    | _ => none
  match Ipv4.read cs with
  | some (address, rest) => port (.v4 address) rest
  | none => do
    let (address, rest) ← Ipv6.read (← readChar '[' cs)
    let rest ← match rest with
      | '%' :: scope => (readNumber scopeForm scope).map (·.2)
      | _ => some rest
    port (.v6 address) (← readChar ']' rest)

/-- Reads a number of the loose dotted form: hexadecimal after `0x`, octal after `0`. -/
def parseLoosePart? (cs : List Char) : Option Nat :=
  let (radix, digits) : Nat × List Char := match cs with
    | '0' :: 'x' :: rest => (16, rest)
    | '0' :: 'X' :: rest => (16, rest)
    | '0' :: rest => (8, '0' :: rest)
    | _ => (10, cs)
  match readNumber ⟨radix, none, 0xFFFFFFFF, true⟩ digits with
  | some (value, []) => some value
  | _ => none

/-- Joins one to four parts: all but the last are octets, the last fills what is left. -/
def joinParts? (room : Nat) : List Nat → Option Nat
  | [] => none
  | [last] => if last < Nat.pow 256 room then some last else none
  | part :: rest =>
    if part < 256 ∧ 1 < room then
      (joinParts? (room - 1) rest).map (part * Nat.pow 256 (room - 1) + ·)
    else none

end Endpoint

/-- What is said of a host name: the addresses that it has, or why none can be told. -/
abbrev NameService := String → Except String (List Address)

/-- The name service of a host without a network. It knows dotted addresses of one to four parts, IPv6
addresses and the local host. -/
def NameService.offline : NameService := fun name =>
  let parts := (name.toList.splitOn '.').mapM Endpoint.parseLoosePart?
  match parts.bind (Endpoint.joinParts? 4) with
  | some value => .ok [.v4 ⟨BitVec.ofNat 32 value⟩]
  | none =>
    match Ipv6.read name.toList with
    | some (address, []) => .ok [.v6 address]
    | _ =>
      if name.toLower = "localhost" then .ok [.v4 (.ofOctets 127 0 0 1)]
      else .error "failed to lookup address information: Name or service not known"

namespace Endpoint

/-- The host and the port around the last colon. -/
def splitPort? (s : String) : Option (List Char × List Char) :=
  let reversed := s.toList.reverse
  let port := (reversed.takeWhile (· ≠ ':')).reverse
  match reversed.dropWhile (· ≠ ':') with
  | [] => none
  | _ :: host => some (host.reverse, port)

/-- The endpoints that a listening address stands for: a literal socket address is one, and otherwise
the name service is asked for the host before the last colon, with a decimal port behind it. -/
def resolve (names : NameService) (s : String) : Except String (List Endpoint) :=
  match parseLiteral? s with
  | some endpoint => .ok [endpoint]
  | none =>
    match splitPort? s with
    | none => .error "invalid socket address"
    | some (host, port) =>
      match parseDecimal 0xFFFF port with
      | none => .error "invalid port value"
      | some port => (names (String.ofList host)).map (·.map (⟨·, port⟩))

end Endpoint

end Steering.Net
