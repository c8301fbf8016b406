import Std.Async.DNS
import Std.Async.TCP
import Std.Async.Timer
import Steering.Dashboard.Visit
import Steering.Net.Socket
/-! Connections of this host: asking others, and answering those who ask. -/

namespace Steering.Network

open Std.Async
open Std.Async.TCP.Socket (Client Server)

/-- How many bytes are received at once. -/
def portion : UInt64 := 65536

/-- An address as the sockets of the system take it. -/
def ipAddress : Net.Address → Std.Net.IPAddr
  | .v4 a =>
    let octet (i : Nat) : UInt8 := .ofNat (a.bits.toNat >>> (24 - 8 * i))
    .v4 (.ofParts (octet 0) (octet 1) (octet 2) (octet 3))
  | .v6 a =>
    let part (i : Nat) : UInt16 := .ofNat (a.bits.toNat >>> (112 - 16 * i))
    .v6 (.ofParts (part 0) (part 1) (part 2) (part 3) (part 4) (part 5) (part 6) (part 7))

/-- An address as the sockets of the system give it. -/
def address : Std.Net.IPAddr → Net.Address
  | .v4 a =>
    let join (bits : Nat) (octet : UInt8) : Nat := bits * 256 + octet.toNat
    .v4 ⟨.ofNat 32 (a.octets.toList.foldl join 0)⟩
  | .v6 a =>
    let join (bits : Nat) (part : UInt16) : Nat := bits * 65536 + part.toNat
    .v6 ⟨.ofNat 128 (a.segments.toList.foldl join 0)⟩

/-- An address and a port as the sockets of the system take them. -/
def socketAddress (address : Std.Net.IPAddr) (port : Nat) : Std.Net.SocketAddress :=
  match address with
  | .v4 address => .v4 ⟨address, .ofNat port⟩
  | .v6 address => .v6 ⟨address, .ofNat port⟩

/-- Connects to the first address that accepts. -/
def connect (port : Nat) : List Std.Net.IPAddr → Async Client
  | [] => throw (IO.userError "no address accepts connections")
  | address :: rest => do
    try
      let client ← Client.mk
      client.connect (socketAddress address port)
      return client
    catch fault =>
      if rest.isEmpty then throw fault else connect port rest

/-- Receives bytes until they make a response, but not beyond a moment. -/
partial def receive (client : Client) (limit deadline : Nat) (bytes : List UInt8) :
    Async (Except Http.Failure Http.Response) := do
  match Http.Response.ofBytes limit false bytes with
  | some result => return result
  | none =>
    let patience := deadline - (← IO.monoMsNow)
    let received ← Selectable.one #[
      .case (client.recvSelector portion) fun bytes => return some bytes,
      .case (← Selector.sleep (.ofNat patience)) fun _ => return none]
    match received with
    | none => return .error (.send "deadline exceeded")
    | some none =>
      return (Http.Response.ofBytes limit true bytes).getD (.error (.send "connection closed"))
    | some (some more) => receive client limit deadline (bytes ++ more.toList)

/-- The addresses that the system knows for a host. -/
def lookup (host : String) : Async (List Net.Address) := do
  return (← DNS.getAddrInfo host "").toList.map address

/-- Sends a request and receives its response, but not beyond a moment. -/
def exchange (request : Http.Request) (limit deadline : Nat) :
    Async (Except Http.Failure Http.Response) := do
  match request.route with
  | .error failure => return .error failure
  | .ok (uri, authority) =>
    try
      let (host, port) := Http.hostAndPort authority
      let addresses ← DNS.getAddrInfo host ""
      let client ← connect port addresses.toList
      client.send (request.bytes uri).toByteArray
      receive client limit deadline []
    catch fault => return .error (.send (toString fault))

/-- Listens on an endpoint. -/
def listen (endpoint : Net.Endpoint) : IO Server := do
  let server ← Server.mk
  server.bind (socketAddress (ipAddress endpoint.host) endpoint.port)
  server.listen 1024
  return server

/-- Answers the requests of a connection one after another. -/
partial def attend (answer : Dashboard.Visit → IO Dashboard.Page) (client : Client)
    (bytes : List UInt8) : Async Unit := do
  match Http.splitHead? bytes with
  | none =>
    match ← client.recv? portion with
    | none => return
    | some more => attend answer client (bytes ++ more.toList)
  | some (head, rest) =>
    match Dashboard.Visit.ofHead? (.ofBytes head) with
    | none =>
      client.send (Dashboard.Page.unreadable.bytes ⟨"", "", false⟩).toByteArray
      client.shutdown
    | some visit =>
      let page ← answer visit
      client.send (page.bytes visit).toByteArray
      if visit.keepsOpen then attend answer client rest else client.shutdown

/-- Answers whoever connects. -/
partial def serve (answer : Dashboard.Visit → IO Dashboard.Page) (server : Server) :
    Async Unit := do
  let client ← server.accept
  background do
    try attend answer client [] catch _ => return
  serve answer server

end Steering.Network
