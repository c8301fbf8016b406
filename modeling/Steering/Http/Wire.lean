import Steering.Http.Exchange
import Steering.Http.Form
/-! Messages as bytes: a first line, named fields, an empty line, and a body. The fields say
where the body ends: after a number of bytes, after the last of its chunks, or with the
connection. -/

namespace Steering.Http

/-- The bytes before the first empty line and those after it; nothing if there is none yet. -/
def splitHead? : List UInt8 → Option (List UInt8 × List UInt8)
  | 0x0D :: 0x0A :: 0x0D :: 0x0A :: rest => some ([], rest)
  | b :: rest => (splitHead? rest).map fun (head, rest) => (b :: head, rest)
  | [] => none

/-- What stands before a body. The names of the fields are in lower case. -/
structure Head where
  first : String
  fields : List (String × String)
deriving DecidableEq, Repr

namespace Head

/-- The name and the value in a line. -/
def readField (line : String) : String × String :=
  let cs := line.toList
  ((String.ofList (cs.takeWhile (· ≠ ':'))).toLower,
    (String.ofList ((cs.dropWhile (· ≠ ':')).drop 1)).trimAscii.toString)

/-- Reads the lines of a head. -/
def ofBytes (bytes : List UInt8) : Head :=
  match (Text.decodeLossy bytes).splitOn "\r\n" with
  | [] => ⟨"", []⟩
  | first :: lines => ⟨first, lines.map readField⟩

/-- The value of a field. -/
def field? (head : Head) (name : String) : Option String :=
  (head.fields.find? (·.1 == name)).map (·.2)

/-- Whether a field mentions a word, in any case of letters. -/
def mentions (head : Head) (name word : String) : Bool :=
  (head.field? name).any fun value => (value.toLower.splitOn word).length != 1

/-- The bytes of a head. -/
def bytes (head : Head) : List UInt8 :=
  Text.encode (String.join ((head.first :: head.fields.map fun (name, value) =>
    name ++ ": " ++ value).map (· ++ "\r\n")) ++ "\r\n")

end Head

/-- Where a body ends. -/
inductive Framing where
  | length (n : Nat)
  | chunked
  | untilClosed
deriving DecidableEq, Repr

/-- Where the body of a response ends. -/
def Head.framing (head : Head) (code : Nat) : Framing :=
  if code = 204 ∨ code = 304 then .length 0
  else if head.mentions "transfer-encoding" "chunked" then .chunked
  else
    match (head.field? "content-length").bind String.toNat? with
    | some n => .length n
    | none => .untilClosed

/-- The number that begins some bytes, in hexadecimal digits. -/
def readSize : List UInt8 → Nat
  | bytes => (bytes.map Json.hexValue?).takeWhile Option.isSome |>.foldl
      (fun n digit => n * 16 + digit.getD 0) 0

/-- The chunks so far, and whether the last one has come. Each takes a byte at least, so as many
steps as bytes are enough. -/
def unchunk : Nat → List UInt8 → List (List UInt8) × Bool
  | 0, _ => ([], false)
  | fuel + 1, bytes =>
    match bytes.dropWhile (· ≠ 0x0A) with
    | [] => ([], false)
    | _ :: rest =>
      let size := readSize bytes
      if size = 0 then ([], true)
      else if rest.length < size then ([rest], false)
      else
        let (chunks, whole) := unchunk fuel ((rest.drop size).drop 2)
        (rest.take size :: chunks, whole)

/-- The body so far, and whether it has come to its end. -/
def Framing.body (framing : Framing) (closed : Bool) (bytes : List UInt8) :
    List (List UInt8) × Bool :=
  match framing with
  | length n => ([bytes.take n], n ≤ bytes.length)
  | chunked => unchunk bytes.length bytes
  | untilClosed => ([bytes], closed)

/-- The status code in the first line of a response. -/
def readCode? (first : String) : Option Nat :=
  match first.splitOn " " with
  | version :: code :: _ => if version.startsWith "HTTP/1." then code.toNat? else none
  | _ => none

/-- What some bytes of a response amount to: nothing as long as more is needed, a fault if they
are no response, or the response. No more of a body is needed once it is too large. -/
def Response.ofBytes (limit : Nat) (closed : Bool) (bytes : List UInt8) :
    Option (Except Failure Response) :=
  match splitHead? bytes with
  | none => if closed then some (.error (.send "connection closed before a response")) else none
  | some (first, rest) =>
    let head := Head.ofBytes first
    match readCode? head.first with
    | none => some (.error (.send "invalid response"))
    | some code =>
      let (frames, complete) := (head.framing code).body closed rest
      if complete || closed || limit < frames.flatten.length then
        some (.ok ⟨code, frames, complete⟩)
      else none

/-- The host and the port of an authority. What stands before an `@` is no part of the host. -/
def hostAndPort (authority : String) : String × Nat :=
  let cs := (authority.toList.reverse.takeWhile (· ≠ '@')).reverse
  let (host, rest) := match cs with
    | '[' :: inner => (inner.takeWhile (· ≠ ']'), (inner.dropWhile (· ≠ ']')).drop 1)
    | _ => (cs.takeWhile (· ≠ ':'), cs.dropWhile (· ≠ ':'))
  (String.ofList host, (String.ofList (rest.drop 1)).toNat?.getD 80)

/-- The bytes of a request for a checked resource. One connection is used for one request. -/
def Request.bytes (request : Request) (uri : Net.Uri) : List UInt8 :=
  let target := if uri.path.startsWith "/" then uri.path else "/" ++ uri.path
  let authority := String.ofList
    ((uri.authority.getD "").toList.reverse.takeWhile (· ≠ '@')).reverse
  let optional (name : String) (value : Option String) : List (String × String) :=
    (value.map fun value => (name, value)).toList
  let length := if request.method = .post then some (toString request.body.length) else none
  Head.bytes ⟨request.method.name ++ " " ++ target ++ " HTTP/1.1",
    [("host", authority), ("connection", "close")] ++ optional "content-type" request.contentType
      ++ optional "authorization" request.authorization ++ optional "content-length" length⟩
    ++ request.body

end Steering.Http
