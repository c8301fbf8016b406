import Steering.Http.Exchange
import Steering.Json.Record
import Steering.Json.Value
import Steering.Net.Address
/-! The health record of a PoP: its document, and how it is fetched. A record without an error
is healthy. -/

namespace Steering

/-- What a PoP reports about itself, or why nothing is known of it. -/
structure PopStatus where
  id : String
  /-- Seconds since the PoP started. -/
  uptime : Binary64
  load : Binary64
  error : String
deriving DecidableEq, Repr

namespace PopStatus

/-- The record with nothing in it, which is healthy. -/
def blank : PopStatus := ⟨"", .zero, .zero, ""⟩

instance : Inhabited PopStatus := ⟨blank⟩

/-- The record that carries only a reason why the PoP is not healthy. -/
def failed (reason : String) : PopStatus :=
  { blank with error := reason }

/-- The record of a PoP that has not been asked yet. -/
def notYetAvailable : PopStatus :=
  failed "not yet available"

/-- A PoP is healthy if its record names no error. -/
def isHealthy (status : PopStatus) : Bool :=
  status.error == ""

/-- The form of the status document: every field may be left out. -/
def schema : Json.Schema PopStatus where
  title := "PopStatus"
  initial := blank
  fields := [
    ⟨"id", false, fun s c => (Json.readTextValue c).map fun (x, c) => ({ s with id := x }, c)⟩,
    ⟨"uptime", false, fun s c => (Json.readDouble c).map fun (x, c) => ({ s with uptime := x }, c)⟩,
    ⟨"load", false, fun s c => (Json.readDouble c).map fun (x, c) => ({ s with load := x }, c)⟩,
    ⟨"error", false, fun s c => (Json.readTextValue c).map fun (x, c) => ({ s with error := x }, c)⟩]

/-- Reads a status document. -/
def decode (document : List UInt8) : Except Json.Fault PopStatus :=
  schema.decode document

/-- The status document of a record; an empty error is left out. -/
def toValue (status : PopStatus) : Json.Value :=
  .object ([("id", .text status.id), ("uptime", .double status.uptime),
      ("load", .double status.load)]
    ++ if status.error = "" then [] else [("error", .text status.error)])

end PopStatus

/-- Why the status of a PoP could not be fetched. -/
inductive FetchFailure where
  | http (failure : Http.Failure)
  | malformed (detail : String)
  | deadlineExceeded
  | other (reason : String)
deriving DecidableEq, Repr

/-- The wording of a failed fetch. -/
def FetchFailure.message : FetchFailure → String
  | http failure => failure.message
  | malformed detail => "malformed status document: " ++ detail
  | deadlineExceeded => "deadline exceeded"
  | other reason => reason

namespace PopStatus

/-- Reads a status document that came as the body of a response. -/
def ofBody (body : List UInt8) : Except FetchFailure PopStatus :=
  match decode body with
  | .ok status => .ok status
  | .error fault => .error (.malformed (fault.message body))

/-- Where a PoP publishes its status document. -/
def url (address : Net.Ipv4) (port : Nat) : String :=
  "http://" ++ address.text ++ ":" ++ toString port ++ "/statusz"

/-- The request for the status document of a PoP. -/
def request (address : Net.Ipv4) (port : Nat) : Http.Request :=
  ⟨.get, url address port, none, none, []⟩

/-- What is made of a response to that request. -/
def ofResponse (limit : Nat) (response : Http.Response) : Except FetchFailure PopStatus :=
  match response.accept limit with
  | .ok body => ofBody body
  | .error failure => .error (.http failure)

end PopStatus

end Steering
