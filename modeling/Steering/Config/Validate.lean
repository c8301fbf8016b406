import Steering.Config.Basic
import Steering.Net.Socket
import Steering.Net.Uri
import Steering.Text.Blank
import Steering.Text.Lowercase
/-! Which configurations are accepted. The checks stand in one list, and the first that fails
gives the violation. -/

namespace Steering

/-- What is wrong with a configuration. -/
inductive Violation where
  | logLevel (text : String)
  | ranking (text : String)
  | statusTimeout
  | latencyTimeout
  | interval
  | statusPort
  | listenAddressMissing
  | listenAddress (address : String)
  | noPops
  | popIdMissing (ip4 : Net.Ipv4)
  | popIdRepeated (id : String)
  | endpointMissing (id : String)
  | endpointInvalid (url id : String)
  | regionIdMissing
  | regionIdRepeated (id : String)
  | noPrefixes (id : String)
  | proberMissing (id : String)
  | proberInvalid (url id : String)
  | proberNotHttp (url id : String)
  | rankingUnsupported (text : String)
deriving DecidableEq, Repr

namespace Violation

/-- The wording of a violation. -/
def message : Violation → String
  | logLevel text => "Invalid log level: " ++ text
  | ranking text => "Invalid ranking type: " ++ text
  | statusTimeout => "Status refresh timeout is invalid (0)"
  | latencyTimeout => "Latency refresh timeout is invalid (0)"
  | interval => "Refresh interval is invalid (0)"
  | statusPort => "PoP status port is invalid (0)"
  | listenAddressMissing => "Observability listen address is empty"
  | listenAddress address => "Invalid observability listen address: " ++ address
  | noPops => "No PoPs configured"
  | popIdMissing ip4 => "PoP id is missing for PoP at " ++ ip4.text
  | popIdRepeated id => "Duplicate PoP id '" ++ id ++ "'"
  | endpointMissing id => "Latency endpoint URL is missing for PoP id '" ++ id ++ "'"
  | endpointInvalid url id =>
    "Latency endpoint URL '" ++ url ++ "' is invalid for PoP id '" ++ id ++ "'"
  | regionIdMissing => "Region id is missing"
  | regionIdRepeated id => "Duplicate region id '" ++ id ++ "'"
  | noPrefixes id => "No prefices configured for region id '" ++ id ++ "'"
  | proberMissing id => "Prober URL is missing for region id '" ++ id ++ "'"
  | proberInvalid url id => "Prober URL '" ++ url ++ "' is invalid for region id '" ++ id ++ "'"
  | proberNotHttp url id =>
    "Prober URL '" ++ url ++ "' for region id '" ++ id ++ "' must use http://"
  | rankingUnsupported text => "unsupported ranking type: " ++ text

/-- The message of a configuration that is refused for a violation. -/
def report (violation : Violation) : String :=
  "invalid configuration: " ++ violation.message

end Violation

namespace Config

/-- The log levels that may be configured. -/
def logLevels : List String := ["trace", "debug", "info", "warn", "error", "off"]

/-- The rankings that may be configured. -/
def rankings : List String :=
  ["lowest-latency", "lowest_latency", "latency", "config-order", "config_order", "health-only",
    "least-load", "least_load"]

/-- Whether a text is a log level, in any case of letters. -/
def isLogLevel (s : String) : Bool :=
  logLevels.any (Text.sameIgnoringCase · s)

/-- Whether a text is a ranking, in any case of letters and with blanks around it. -/
def isRanking (s : String) : Bool :=
  rankings.any (Text.sameIgnoringCase · (Text.trim s))

/-- Whether an address stands for an endpoint that can be listened on. -/
def isListenable (names : Net.NameService) (s : String) : Bool :=
  match Net.Endpoint.resolve names s with
  | .ok endpoints => !endpoints.isEmpty
  | .error _ => false

/-- A check: whether it holds and what is wrong if it does not. -/
abbrev Check := Bool × Violation

/-- The checks of the settings. -/
def settingChecks (config : Config) : List Check :=
  [(isLogLevel config.log.level, .logLevel config.log.level),
    (isRanking config.ranking, .ranking config.ranking),
    (config.refresh.statusTimeout != 0, .statusTimeout),
    (config.refresh.latencyTimeout != 0, .latencyTimeout),
    (config.refresh.interval != 0, .interval),
    (config.refresh.statusPort != 0, .statusPort)]

/-- The checks of the dashboard's address. -/
def observabilityChecks (names : Net.NameService) : Option Observability → List Check
  | none => []
  | some o =>
    [(o.address != "", .listenAddressMissing),
      (isListenable names o.bindAddress, .listenAddress o.address)]

/-- The checks of one PoP, given the ids before it. -/
def popChecks (earlier : List String) (pop : Pop) : List Check :=
  [(pop.id != "", .popIdMissing pop.ip4),
    (!earlier.contains pop.id, .popIdRepeated pop.id),
    (pop.latencyEndpointUrl != "", .endpointMissing pop.id),
    (Net.Uri.isAbsolute pop.latencyEndpointUrl,
      .endpointInvalid pop.latencyEndpointUrl pop.id)]

/-- The checks of one region, given the ids before it. -/
def regionChecks (earlier : List String) (region : Region) : List Check :=
  [(region.id != "", .regionIdMissing),
    (!earlier.contains region.id, .regionIdRepeated region.id),
    (region.prefixes != [], .noPrefixes region.id),
    (region.proberUrl != "", .proberMissing region.id),
    (Net.Uri.isAbsolute region.proberUrl, .proberInvalid region.proberUrl region.id)]

/-- The checks of a list of entries, each given the ids of the entries before it. -/
def entryChecks {α : Type} (id : α → String) (checks : List String → α → List Check) :
    List String → List α → List Check
  | _, [] => []
  | earlier, entry :: entries =>
    checks earlier entry ++ entryChecks id checks (id entry :: earlier) entries

/-- All checks of a configuration in order. -/
def checks (config : Config) (names : Net.NameService) : List Check :=
  settingChecks config ++ observabilityChecks names config.observability
    ++ [(config.pops != [], .noPops)]
    ++ entryChecks Pop.id popChecks [] config.pops
    ++ entryChecks Region.id regionChecks [] config.regions

/-- The violation of the first check that fails, if one does. -/
def validate (config : Config) (names : Net.NameService := .offline) : Except Violation Unit :=
  match (config.checks names).find? (!·.1) with
  | some (_, violation) => .error violation
  | none => .ok ()

end Config

end Steering
