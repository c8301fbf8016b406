import Steering.Http.Exchange
import Steering.Json.Record
import Steering.Json.Value
/-! Measurements: what a prober is asked, what it reports, and the latency that follows. -/

namespace Steering

/-- What a prober is asked to measure. -/
structure ProbeArgs where
  targetUrl : String
deriving DecidableEq, Repr

namespace ProbeArgs

/-- The form of the document that asks for a measurement. -/
def schema : Json.Schema ProbeArgs where
  title := "ProbeArgs"
  initial := ⟨""⟩
  fields := [
    ⟨"target_url", true, fun _ c => (Json.readTextValue c).map fun (x, c) => (⟨x⟩, c)⟩]

/-- Reads the document that asks for a measurement. -/
def decode (document : List UInt8) : Except Json.Fault ProbeArgs :=
  schema.decode document

/-- The document that asks for a measurement. -/
def toValue (args : ProbeArgs) : Json.Value :=
  .object [("target_url", .text args.targetUrl)]

end ProbeArgs

/-- The milestones of one measured request, in nanoseconds since the epoch. -/
structure ProbeResult where
  proberNodeId : String
  url : String
  start : Int64
  dnsEnd : Int64
  connectEnd : Int64
  requestEnd : Int64
  firstByte : Int64
  responseEnd : Int64
  responseCode : UInt16
deriving DecidableEq, Repr

/-- Why a measurement failed. -/
inductive MeasureFailure where
  | http (failure : Http.Failure)
  | malformed (detail : String)
  | inconsistentTimings (start firstByte : Int64)
  | deadlineExceeded
  | other (reason : String)
deriving DecidableEq, Repr

/-- The wording of a failed measurement. -/
def MeasureFailure.message : MeasureFailure → String
  | http failure => failure.message
  | malformed detail => "malformed probe result: " ++ detail
  | inconsistentTimings start firstByte =>
    "prober returned first_byte=" ++ toString firstByte.toInt ++ " before start="
      ++ toString start.toInt
  | deadlineExceeded => "deadline exceeded"
  | other reason => reason

namespace ProbeResult

/-- The result with every milestone at zero. -/
def blank : ProbeResult := ⟨"", "", 0, 0, 0, 0, 0, 0, 0⟩

instance : Inhabited ProbeResult := ⟨blank⟩

/-- A field that holds a string. -/
def textField (name : String) (set : ProbeResult → String → ProbeResult) :
    Json.Field ProbeResult :=
  ⟨name, false, fun r c => (Json.readTextValue c).map fun (x, c) => (set r x, c)⟩

/-- Reads a milestone. -/
def readMilestone (c : Json.Cursor) : Except Json.Fault (Int64 × Json.Cursor) :=
  (Json.readInteger "i64" (-0x8000000000000000) 0x7FFFFFFFFFFFFFFF c).map fun (x, c) => (Int64.ofInt x, c)

/-- A field that holds a milestone. -/
def milestoneField (name : String) (required : Bool)
    (set : ProbeResult → Int64 → ProbeResult) : Json.Field ProbeResult :=
  ⟨name, required, fun r c => (readMilestone c).map fun (x, c) => (set r x, c)⟩

/-- A field that holds a status code. -/
def codeField (name : String) (set : ProbeResult → UInt16 → ProbeResult) :
    Json.Field ProbeResult :=
  ⟨name, false, fun r c =>
    (Json.readInteger "u16" 0 0xFFFF c).map fun (x, c) => (set r (.ofNat x.toNat), c)⟩

/-- The form of a probe result: only the two milestones that the latency needs must be there. -/
def schema : Json.Schema ProbeResult where
  title := "ProbeResult"
  initial := blank
  fields := [
    textField "prober_node_id" fun r x => { r with proberNodeId := x },
    textField "url" fun r x => { r with url := x },
    milestoneField "start" true fun r x => { r with start := x },
    milestoneField "dns_end" false fun r x => { r with dnsEnd := x },
    milestoneField "connect_end" false fun r x => { r with connectEnd := x },
    milestoneField "request_end" false fun r x => { r with requestEnd := x },
    milestoneField "first_byte" true fun r x => { r with firstByte := x },
    milestoneField "response_end" false fun r x => { r with responseEnd := x },
    codeField "response_code" fun r x => { r with responseCode := x }]

/-- Reads a probe result. -/
def decode (document : List UInt8) : Except Json.Fault ProbeResult :=
  schema.decode document

/-- An integer as a value. -/
def integerValue (n : Int) : Json.Value :=
  .number (if n < 0 then .negative n else .natural n.toNat)

/-- The document of a probe result. -/
def toValue (r : ProbeResult) : Json.Value :=
  .object [
    ("prober_node_id", .text r.proberNodeId),
    ("url", .text r.url),
    ("start", integerValue r.start.toInt),
    ("dns_end", integerValue r.dnsEnd.toInt),
    ("connect_end", integerValue r.connectEnd.toInt),
    ("request_end", integerValue r.requestEnd.toInt),
    ("first_byte", integerValue r.firstByte.toInt),
    ("response_end", integerValue r.responseEnd.toInt),
    ("response_code", .natural r.responseCode.toNat)]

/-- The difference of two milestones, unless it takes more than 64 bits. The difference that wraps
around is the true one if both have the same sign, or if it has the sign of the first. -/
def difference? (a b : Int64) : Option Int64 :=
  if decide (a < 0) = decide (b < 0) ∨ decide (a - b < 0) = decide (a < 0) then some (a - b)
  else none

/-- The milliseconds from the start to the first byte. The difference must be representable in
64 bits and not negative. -/
def latency (r : ProbeResult) : Except MeasureFailure Binary64 :=
  match difference? r.firstByte r.start with
  | some elapsed =>
    if elapsed < 0 then .error (.inconsistentTimings r.start r.firstByte)
    else .ok ((Binary64.ofInt elapsed.toInt).div (.ofNat 1000000))
  | none => .error (.inconsistentTimings r.start r.firstByte)

/-- The latency that follows from the body of a prober's response. -/
def latencyOfBody (body : List UInt8) : Except MeasureFailure Binary64 :=
  match decode body with
  | .ok result => result.latency
  | .error fault => .error (.malformed (fault.message body))

/-- The latency that follows from a prober's response. -/
def latencyOfResponse (limit : Nat) (response : Http.Response) :
    Except MeasureFailure Binary64 :=
  match response.accept limit with
  | .ok body => latencyOfBody body
  | .error failure => .error (.http failure)

end ProbeResult

/-- A prober: where it listens and the secret it is shown. -/
structure Prober where
  url : String
  secret : String
deriving DecidableEq, Repr

namespace Prober

/-- How a prober is named in messages. -/
def describe (prober : Prober) : String :=
  "ProberLatencyMeasurer\x7bprober_url=" ++ prober.url ++ "\x7d"

/-- The request for a measurement of an endpoint. -/
def request (prober : Prober) (endpoint : String) : Http.Request :=
  ⟨.post, prober.url, some "application/json", some ("Bearer " ++ prober.secret),
    Text.encode (ProbeArgs.toValue ⟨endpoint⟩).write⟩

end Prober

end Steering
