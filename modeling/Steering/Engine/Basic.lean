import Steering.Config.Validate
import Steering.Ranking
import Steering.Refresh.Phase
import Steering.RegionTable
/-! Engines: a configuration that has been accepted, with the state that its refreshes keep. -/

namespace Steering

/-- An engine. Its probers stand in the order of its regions. -/
structure Engine where
  pops : List Pop
  regions : List Region
  table : RegionTable
  ranking : RankingPolicy
  observability : Option Observability
  probers : List Prober
  plan : Refresh.Plan
  store : Store

namespace Engine

/-- Whether a text is the URL of a prober that can be asked without encryption. -/
def isPlainHttp (url : String) : Bool :=
  match Net.Uri.parse url with
  | .ok uri => uri.isHttp
  | .error _ => false

/-- What the refreshes of an engine work on. -/
def planOf (config : Config) : Refresh.Plan where
  addresses := config.pops.map (·.ip4)
  endpoints := config.pops.map (·.latencyEndpointUrl)
  regionCount := config.regions.length
  statusTimeout := config.refresh.statusTimeout
  latencyTimeout := config.refresh.latencyTimeout
  interval := config.refresh.interval

/-- Builds an engine. Its own transport for measurements has no encryption, so with `ownProbers`
every prober must be reachable without it. -/
def build (config : Config) (ownProbers : Bool) (names : Net.NameService := .offline) :
    Except Violation Engine := do
  config.validate names
  match if ownProbers then config.regions.find? fun r => !isPlainHttp r.proberUrl else none with
  | some region => throw (.proberNotHttp region.proberUrl region.id)
  | none => pure ()
  match RankingPolicy.ofText? config.ranking with
  | none => throw (.rankingUnsupported config.ranking)
  | some ranking =>
    return {
      pops := config.pops
      regions := config.regions
      table := .ofPrefixes (config.regions.map (·.prefixes))
      ranking := ranking
      observability := config.observability
      probers := config.regions.map fun r => ⟨r.proberUrl, config.proberSecret⟩
      plan := planOf config
      store := .initial config.pops.length config.regions.length }

/-- How a manual refresh went: how long it took, and the engine after it. -/
structure Refreshed where
  elapsed : Nat
  engine : Engine
  crashed : Bool

/-- Runs one phase on its own, from a moment on. -/
def refresh (engine : Engine) (t : Refresh.Responder) (now : Nat) (phase : Refresh.Phase) :
    Refreshed :=
  let finish := phase.follow t engine.plan now engine.store
  ⟨finish.moment - now, { engine with store := finish.store }, finish.crashed⟩

/-- Runs one status phase. -/
def refreshStatus (engine : Engine) (t : Refresh.Responder) (now : Nat) : Refreshed :=
  engine.refresh t now (.beginStatus engine.plan now)

/-- Runs one latency phase. -/
def refreshLatency (engine : Engine) (t : Refresh.Responder) (now : Nat) : Refreshed :=
  engine.refresh t now (.beginLatency engine.plan now)

end Engine

end Steering
