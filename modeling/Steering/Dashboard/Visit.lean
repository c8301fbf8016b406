import Steering.Dashboard.Page
import Steering.Http.Wire
/-! Requests to the dashboard and its answers as bytes on a connection. -/

namespace Steering.Dashboard

/-- A request as it is received. -/
structure Visit where
  method : String
  target : String
  /-- Whether the connection may bring another request. -/
  keepsOpen : Bool
deriving DecidableEq, Repr

/-- Reads a request from its head. After a request with a body, or of an old version, the
connection is closed. -/
def Visit.ofHead? (head : Http.Head) : Option Visit :=
  match head.first.splitOn " " with
  | [method, target, version] =>
    let hasBody := (head.field? "transfer-encoding").isSome
      || ((head.field? "content-length").any (· != "0"))
    some ⟨method, target,
      version == "HTTP/1.1" && !hasBody && !head.mentions "connection" "close"⟩
  | _ => none

/-- The answer to a request as bytes. -/
def Page.bytes (page : Page) (visit : Visit) : List UInt8 :=
  let typed : List (String × String) :=
    (page.contentType.map fun type => ("content-type", type)).toList
  let connection : List (String × String) :=
    if visit.keepsOpen then [] else [("connection", "close")]
  Http.Head.bytes ⟨"HTTP/1.1 " ++ Http.statusText page.code,
    typed ++ [("content-length", toString page.content.length)] ++ connection⟩
    ++ page.sent visit.method

end Steering.Dashboard
