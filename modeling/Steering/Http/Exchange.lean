import Steering.Http.Status
import Steering.Net.Uri
import Steering.Text.Utf8
/-! One request and its response: when a request can be made at all, and what is made of a
response, whose body arrives in pieces and may break off. -/

namespace Steering.Http

/-- Why a request brought no body. -/
inductive Failure where
  /-- The request could not be made. -/
  | request (detail : String)
  /-- The request could not be sent, or no response came. -/
  | send (detail : String)
  /-- The response reports no success. -/
  | status (code : Nat)
  /-- The body broke off. -/
  | body (detail : String)
  /-- The body has more bytes than allowed. -/
  | tooLarge (limit : Nat)
deriving DecidableEq, Repr

/-- The wording of a failure. -/
def Failure.message : Failure → String
  | request detail => "invalid request: " ++ detail
  | send detail => "send failed: " ++ detail
  | status code => "unexpected response status " ++ statusText code
  | body detail => "failed to read response body: " ++ detail
  | tooLarge limit => "response body exceeds " ++ toString limit ++ " bytes"

/-- The methods that requests are made with. -/
inductive Method where
  | get
  | post
deriving DecidableEq, Repr

/-- The name of a method. -/
def Method.name : Method → String
  | get => "GET"
  | post => "POST"

/-- A request before it is checked. -/
structure Request where
  method : Method
  url : String
  contentType : Option String
  authorization : Option String
  body : List UInt8
deriving DecidableEq, Repr

/-- Whether a byte may stand in the value of a header. -/
def isHeaderByte (b : UInt8) : Bool :=
  (0x20 ≤ b && b != 0x7F) || b == 0x09

/-- Whether a text may be the value of a header. -/
def isHeaderValue (s : String) : Bool :=
  (Text.encode s).all isHeaderByte

/-- Checks the resource of a request, then its headers. -/
def Request.check (request : Request) : Except Failure Net.Uri :=
  match Net.Uri.parse request.url with
  | .error fault => .error (.request fault.message)
  | .ok uri =>
    if [request.contentType, request.authorization].all (·.all isHeaderValue) then .ok uri
    else .error (.request "failed to parse header value")

/-- Whether a resource can be asked for without encryption. -/
def isReachable (uri : Net.Uri) : Bool :=
  uri.isHttp && uri.authority.isSome

/-- Where a request is sent: the resource that is asked for, and the authority to connect to. -/
def Request.route (request : Request) : Except Failure (Net.Uri × String) :=
  match request.check with
  | .error failure => .error failure
  | .ok uri =>
    match if isReachable uri then uri.authority else none with
    | some authority => .ok (uri, authority)
    | none => .error (.send "the resource cannot be reached without encryption")

/-- A response: its status, the pieces of its body in order of arrival, and whether the body
came to its end. -/
structure Response where
  code : Nat
  frames : List (List UInt8)
  complete : Bool
deriving DecidableEq, Repr

/-- The most bytes of a body that are accepted unless said otherwise. -/
def defaultBodyLimit : Nat := 65536

/-- Collects the pieces of a body while they fit; `room` is how many bytes are still allowed. -/
def collect (limit : Nat) (complete : Bool) :
    Nat → List (List UInt8) → Except Failure (List UInt8)
  | _, [] => if complete then .ok [] else .error (.body "connection closed before message completed")
  | room, frame :: frames =>
    if room < frame.length then .error (.tooLarge limit)
    else (collect limit complete (room - frame.length) frames).map (frame ++ ·)

/-- The body of a successful response within the limit. The status is looked at first, then
the size, then whether the body is whole. -/
def Response.accept (limit : Nat) (response : Response) : Except Failure (List UInt8) :=
  if isSuccess response.code then collect limit response.complete limit response.frames
  else .error (.status response.code)

end Steering.Http
