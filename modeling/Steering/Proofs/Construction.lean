import Steering.Engine.Basic
import Steering.Proofs.StoreLog
/-! What an engine that has been built owes to its configuration. -/

namespace Steering.Engine

/-- The parts of an engine are those of an accepted configuration, and its state is the first. -/
structure BuiltFrom (config : Config) (engine : Engine) : Prop where
  accepted : ∃ names, config.validate names = .ok ()
  pops : engine.pops = config.pops
  regions : engine.regions = config.regions
  table : engine.table = .ofPrefixes (config.regions.map (·.prefixes))
  ranking : RankingPolicy.ofText? config.ranking = some engine.ranking
  observability : engine.observability = config.observability
  plan : engine.plan = planOf config
  store : engine.store = .initial config.pops.length config.regions.length

/-- A configuration is built only if it is accepted, its probers can be asked where they have to be,
and its ranking is known, and all parts of the engine are as the configuration has them. -/
theorem build_eq_ok {config : Config} {ownProbers : Bool} {names : Net.NameService}
    {engine : Engine} (built : build config ownProbers names = .ok engine) :
    config.validate names = .ok () ∧
    (ownProbers = true → ∀ region ∈ config.regions, isPlainHttp region.proberUrl = true) ∧
    ∃ ranking, RankingPolicy.ofText? config.ranking = some ranking ∧
      engine = ⟨config.pops, config.regions, .ofPrefixes (config.regions.map (·.prefixes)), ranking,
        config.observability, config.regions.map fun r => ⟨r.proberUrl, config.proberSecret⟩,
        planOf config, .initial config.pops.length config.regions.length⟩ := by
  cases accepted : config.validate names with
  | error violation => simp [build, accepted, bind, Except.bind] at built
  | ok checked =>
    cases unreachable : if ownProbers then config.regions.find? fun r => !isPlainHttp r.proberUrl
      else none with
    | some region =>
      simp [build, accepted, unreachable, bind, Except.bind, throw, throwThe,
        MonadExceptOf.throw] at built
    | none =>
      cases named : RankingPolicy.ofText? config.ranking with
      | none =>
        simp [build, accepted, unreachable, named, bind, Except.bind, throw, throwThe,
          MonadExceptOf.throw] at built
      | some ranking =>
        simp only [build, accepted, unreachable, named, bind, Except.bind, pure, Except.pure,
          Except.ok.injEq] at built
        refine ⟨rfl, ?_, ranking, rfl, built.symm⟩
        intro own region member
        rw [if_pos own] at unreachable
        simpa using List.find?_eq_none.mp unreachable region member

theorem builtFrom_of_build {config : Config} {ownProbers : Bool} {names : Net.NameService}
    {engine : Engine} (built : build config ownProbers names = .ok engine) : BuiltFrom config engine := by
  obtain ⟨accepted, -, ranking, named, rfl⟩ := build_eq_ok built
  exact ⟨⟨_, accepted⟩, rfl, rfl, rfl, named, rfl, rfl, rfl⟩

/-- Every check of an accepted configuration holds. -/
theorem holds_of_validate {config : Config} {names : Net.NameService}
    (accepted : config.validate names = .ok ()) {check : Config.Check}
    (member : check ∈ config.checks names) : check.1 = true := by
  unfold Config.validate at accepted
  split at accepted
  · cases accepted
  · rename_i none
    simpa using List.find?_eq_none.mp none check member

/-- A configuration of two PoPs and one region. -/
def twoPops : Config where
  proberSecret := "s3cret"
  pops := [
    ⟨"tokyo", .ofOctets 192 0 2 1, "http://192.0.2.1/latencyz", "left: 1px"⟩,
    ⟨"osaka", .ofOctets 192 0 2 2, "http://192.0.2.2/latencyz", "left: 2px"⟩]
  regions := [
    ⟨"us-west", [⟨.ofOctets 198 51 100 0, 28, by decide⟩], "http://203.0.113.1:8823/probe", ""⟩]
  observability := none
  refresh := Config.defaultRefresh
  ranking := Config.defaultRanking
  log := Config.defaultLog

theorem exists_build {config : Config} {ownProbers : Bool} {names : Net.NameService}
    (succeeds : (build config ownProbers names).isOk = true) :
    ∃ engine, build config ownProbers names = .ok engine := by
  cases built : build config ownProbers names with
  | error violation => simp [built, Except.isOk, Except.toBool] at succeeds
  | ok engine => exact ⟨engine, rfl⟩

theorem build_twoPops : ∃ engine, build twoPops true = .ok engine :=
  exists_build (by decide +kernel)

namespace BuiltFrom

variable {config : Config} {engine : Engine}

theorem addresses_length (built : BuiltFrom config engine) :
    engine.plan.addresses.length = config.pops.length := by
  rw [built.plan]
  exact List.length_map _

theorem endpoints_length (built : BuiltFrom config engine) :
    engine.plan.endpoints.length = config.pops.length := by
  rw [built.plan]
  exact List.length_map _

theorem regionCount (built : BuiltFrom config engine) :
    engine.plan.regionCount = config.regions.length := by
  rw [built.plan]
  rfl

/-- An engine pauses between its refreshes. -/
theorem interval_pos (built : BuiltFrom config engine) : 0 < engine.plan.interval := by
  obtain ⟨names, accepted⟩ := built.accepted
  have checked := @holds_of_validate config names accepted
    (config.refresh.interval != 0, .interval) (by simp [Config.checks, Config.settingChecks])
  rw [built.plan]
  exact Nat.pos_of_ne_zero (by simpa [planOf] using checked)

/-- PoPs are ranked by latency unless the configuration says otherwise. -/
theorem lowestLatency (built : BuiltFrom config engine)
    (unsaid : config.ranking = Config.defaultRanking) : engine.ranking = .lowestLatency := by
  have named : RankingPolicy.ofText? Config.defaultRanking = some .lowestLatency := by
    decide +kernel
  rw [← unsaid] at named
  exact Option.some.inj (built.ranking.symm.trans named)

/-- Whatever has been committed, the state has the shape of the configuration. -/
theorem shaped_replay (built : BuiltFrom config engine) (commits : List Commit) :
    (engine.store.replay commits).Shaped config.pops.length config.regions.length := by
  rw [built.store]
  exact (Store.shaped_initial _ _).replay commits

end BuiltFrom

end Steering.Engine
