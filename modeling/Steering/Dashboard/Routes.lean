import Steering.Dashboard.Files
import Steering.Engine.Query
import Steering.Http.Form
/-! The requests that the dashboard answers: the lists of PoPs and regions, lookups, the two
views of the latencies, and files for every other path. Nothing can be changed through it. -/

namespace Steering.Dashboard

open Json (Value)

/-- What is requested: a path and the parameters after it. -/
structure Target where
  path : String
  parameters : List (String × String)
deriving DecidableEq, Repr

/-- The target that an identifier names. -/
def Target.ofUri (uri : Net.Uri) : Target :=
  let written := uri.path.toList
  ⟨String.ofList (written.takeWhile (· ≠ '?')),
    Http.Form.decode (Text.encodeChars ((written.dropWhile (· ≠ '?')).drop 1))⟩

/-- The value of a parameter; empty if it is absent. -/
def Target.value (target : Target) (name : String) : String :=
  (Http.Form.value? target.parameters name).getD ""

/-- The PoPs as a document. -/
def popsDocument (engine : Engine) : Value :=
  .list <| engine.pops.map fun pop => .object
    [("id", .text pop.id), ("ip4", .text pop.ip4.text), ("ui_popup_css", .text pop.uiPopupCss)]

/-- The regions as a document. -/
def regionsDocument (engine : Engine) : Value :=
  .list <| engine.regions.map fun region => .object
    [("id", .text region.id), ("prefices", .list (region.prefixes.map fun p => .text p.text)),
      ("ui_popup_css", .text region.uiPopupCss)]

/-- Addresses as a document, each with the id of its PoP. -/
def lookupDocument (engine : Engine) (addresses : List Net.Ipv4) : Value :=
  .list <| addresses.map fun ip4 => .object
    [("ip", .text ip4.text), ("pop_id", .text (engine.popIdOf (.v4 ip4)))]

/-- Latencies as a document, by id. -/
def latencyDocument (latencies : List (String × Binary64)) : Value :=
  .object (latencies.map fun (id, x) => (id, .double x))

/-- The page for a lookup. Without a client it shows the ranking for clients of no region. -/
def lookupPage (engine : Engine) (client : String) : Page :=
  if client = "" then .document (lookupDocument engine engine.defaultRanking)
  else
    match Net.Address.parse? client with
    | some address => .document (lookupDocument engine (engine.query address))
    | none => .message 400 "Failed to parse srcip"

/-- The page for latencies, if there are any for the requested id. -/
def latencyPage (latencies : Option (List (String × Binary64))) (refusal : String) : Page :=
  match latencies with
  | some latencies => .document (latencyDocument latencies)
  | none => .message 400 refusal

/-- The page for a target. -/
def page (engine : Engine) (files : Option FileTree) (target : Target) : Page :=
  match target.path with
  | "/pops.json" => .document (popsDocument engine)
  | "/regions.json" => .document (regionsDocument engine)
  | "/query" => lookupPage engine (target.value "srcip")
  | "/latency_to_pop" =>
    latencyPage (engine.latencyToPop? (target.value "pop_id")) "Invalid pop_id"
  | "/latency_to_region" =>
    latencyPage (engine.latencyToRegion? (target.value "region_id")) "Invalid region_id"
  | path => filePage files path

/-- The path below the root of the file that a target may be answered with. -/
def requestedFile? (target : String) : Option String :=
  match Net.Uri.parse target with
  | .ok uri => filePath? (Target.ofUri uri).path
  | .error _ => none

/-- The page that answers a request. Only reading methods are served. -/
def answer (engine : Engine) (files : Option FileTree) (method target : String) : Page :=
  match Net.Uri.parse target with
  | .error _ => .unreadable
  | .ok uri =>
    if method = "GET" ∨ method = "HEAD" then page engine files (.ofUri uri)
    else .message 405 "GET only"

end Steering.Dashboard
