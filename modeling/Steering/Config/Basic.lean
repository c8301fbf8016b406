import Steering.Net.Prefix
/-! The configuration of an engine: its PoPs, the regions its clients come from, and how often
it looks at them. -/

namespace Steering

/-- A point of presence that clients can be sent to. -/
structure Pop where
  id : String
  ip4 : Net.Ipv4
  /-- What the probers fetch to time the way to this PoP. -/
  latencyEndpointUrl : String
  uiPopupCss : String
deriving DecidableEq, Repr

/-- A group of client prefixes with one vantage point for measurements. -/
structure Region where
  id : String
  prefixes : List Net.Prefix
  proberUrl : String
  uiPopupCss : String
deriving DecidableEq, Repr

/-- Where the dashboard listens and which directory it serves. -/
structure Observability where
  address : String
  staticDir : Option String
deriving DecidableEq, Repr

/-- The address to listen on: a bare `:port` stands for all interfaces. -/
def Observability.bindAddress (o : Observability) : String :=
  if o.address.toList.head? = some ':' then "0.0.0.0" ++ o.address else o.address

/-- How long the two phases of a refresh may take and how long to pause after them, in
milliseconds, and the port that the PoPs report on. -/
structure RefreshSettings where
  statusTimeout : Nat
  latencyTimeout : Nat
  interval : Nat
  statusPort : UInt16
deriving DecidableEq, Repr

/-- What the log keeps and where it is written. -/
structure LogSettings where
  level : String
  file : Option String
deriving DecidableEq, Repr

/-- A whole configuration. The order of PoPs and regions matters. -/
structure Config where
  proberSecret : String
  pops : List Pop
  regions : List Region
  /-- Without it there is no dashboard. -/
  observability : Option Observability
  refresh : RefreshSettings
  ranking : String
  log : LogSettings
deriving DecidableEq, Repr

namespace Config

/-- The settings of a refresh that are not configured. -/
def defaultRefresh : RefreshSettings := ⟨10000, 30000, 30000, 8889⟩

/-- The ranking if none is configured. -/
def defaultRanking : String := "lowest-latency"

/-- The log settings that are not configured. -/
def defaultLog : LogSettings := ⟨"info", none⟩

/-- The configuration in which nothing is configured. -/
def empty : Config := ⟨"", [], [], none, defaultRefresh, defaultRanking, defaultLog⟩

end Config

end Steering
