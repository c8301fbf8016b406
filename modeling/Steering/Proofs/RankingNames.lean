import Steering.Engine.Basic
import Steering.Proofs.CaseFolding
/-! The names of the rankings. A configuration is accepted with a ranking exactly if an engine
understands it: what the check finds in its list without regard to the case of ASCII letters, the
engine finds among the names of its policies in the lower case of all of Unicode. -/

namespace Steering

namespace RankingPolicy

/-- The names that a policy is configured by. -/
def names : RankingPolicy → List String
  | lowestLatency => ["lowest-latency", "lowest_latency", "latency"]
  | configOrder => ["config-order", "config_order", "health-only"]
  | leastLoad => ["least-load", "least_load"]

theorem unmistakable_of_mem {policy : RankingPolicy} {name : String} (member : name ∈ policy.names) :
    name.toList.all Text.isUnmistakable = true := by
  have all : ∀ policy ∈ [lowestLatency, configOrder, leastLoad], ∀ name ∈ policy.names,
      name.toList.all Text.isUnmistakable = true := by decide +kernel
  exact all policy (by cases policy <;> simp) name member

/-- A policy is understood by exactly its names. -/
theorem ofText?_eq_some_iff_lower {s : String} {policy : RankingPolicy} :
    ofText? s = some policy ↔ Text.lower (Text.trim s) ∈ policy.names := by
  rw [ofText?]
  split <;> cases policy <;> simp_all [names]

theorem ofText?_eq_some_iff {s : String} {policy : RankingPolicy} :
    ofText? s = some policy ↔ Config.IsOneOf policy.names (Text.trim s) := by
  rw [ofText?_eq_some_iff_lower, ← Config.any_sameIgnoringCase_iff, List.any_eq_true]
  constructor
  · intro member
    exact ⟨_, member, (Text.lower_eq_iff (unmistakable_of_mem member)).mp rfl⟩
  · rintro ⟨name, member, same⟩
    exact (Text.lower_eq_iff (unmistakable_of_mem member)).mpr same ▸ member

end RankingPolicy

namespace Config

/-- All names that may be configured are those of the policies. -/
theorem mem_rankings_iff {name : String} :
    name ∈ rankings ↔ ∃ policy : RankingPolicy, name ∈ policy.names := by
  have together : rankings = RankingPolicy.lowestLatency.names ++ RankingPolicy.configOrder.names
      ++ RankingPolicy.leastLoad.names := rfl
  rw [together, List.mem_append, List.mem_append]
  constructor
  · rintro ((member | member) | member)
    · exact ⟨_, member⟩
    · exact ⟨_, member⟩
    · exact ⟨_, member⟩
  · rintro ⟨policy, member⟩
    cases policy with
    | lowestLatency => exact .inl (.inl member)
    | configOrder => exact .inl (.inr member)
    | leastLoad => exact .inr member

theorem isRanking_iff {s : String} :
    isRanking s = true ↔ ∃ policy, RankingPolicy.ofText? s = some policy := by
  simp only [isRanking, any_sameIgnoringCase_iff, RankingPolicy.ofText?_eq_some_iff, IsOneOf,
    mem_rankings_iff]
  constructor
  · rintro ⟨name, ⟨policy, member⟩, same⟩
    exact ⟨policy, name, member, same⟩
  · rintro ⟨policy, name, member, same⟩
    exact ⟨name, ⟨policy, member⟩, same⟩

theorem isRanking_eq_false_iff_ofText? {s : String} :
    isRanking s = false ↔ RankingPolicy.ofText? s = none := by
  rw [← Bool.not_eq_true, isRanking_iff, Option.eq_none_iff_forall_ne_some, not_exists]

/-- Only the rule of the log level is looked at before that of the ranking. -/
theorem validate_eq_ranking_iff {config : Config} {names : Net.NameService} {text : String} :
    config.validate names = .error (.ranking text) ↔
      isLogLevel config.log.level = true ∧ isRanking config.ranking = false ∧
        text = config.ranking := by
  rw [isRanking_eq_false_iff]
  constructor
  · intro refused
    obtain ⟨place, broken, first⟩ := validate_eq_error_iff.mp refused
    cases broken with
    | setting broken =>
      cases broken with
      | ranking unknown =>
        refine ⟨?_, unknown, rfl⟩
        by_contra unlisted
        have earlier := first _ _
          (.setting (.logLevel (isLogLevel_eq_false_iff.mp (Bool.not_eq_true _ ▸ unlisted))))
        simp [Place.Before] at earlier
    | observability configured broken => cases broken
    | pop found broken => cases broken
    | region found broken => cases broken
  · rintro ⟨listed, unknown, rfl⟩
    refine validate_eq_setting (.ranking unknown) fun other violation broken => ?_
    cases broken with
    | logLevel unlisted =>
      rw [isLogLevel_eq_false_iff.mpr unlisted] at listed
      cases listed
    | ranking | statusTimeout | latencyTimeout | interval | statusPort => decide

end Config

namespace Engine

/-- That a ranking is not understood comes up only where an engine is built. -/
theorem validate_ne_rankingUnsupported {config : Config} {names : Net.NameService}
    {text : String} : config.validate names ≠ .error (.rankingUnsupported text) := by
  intro refused
  obtain ⟨place, broken, -⟩ := Config.validate_eq_error_iff.mp refused
  cases broken with
  | setting broken => cases broken
  | observability configured broken => cases broken
  | pop found broken => cases broken
  | region found broken => cases broken

/-- The ranking of an accepted configuration is understood. -/
theorem exists_ranking_of_validate {config : Config} {names : Net.NameService}
    (accepted : config.validate names = .ok ()) :
    ∃ policy, RankingPolicy.ofText? config.ranking = some policy := by
  have valid := Config.isValid_iff.mpr (Config.validate_eq_ok_iff.mp accepted)
  rw [← Config.isRanking_iff, Config.isRanking, Config.any_sameIgnoringCase_iff]
  exact valid.ranking

/-- Of an accepted configuration only a prober can keep an engine from being built. -/
theorem build_of_validate {config : Config} {names : Net.NameService} (ownProbers : Bool)
    (accepted : config.validate names = .ok ()) :
    (∃ engine, build config ownProbers names = .ok engine) ∨
      ownProbers = true ∧ ∃ region ∈ config.regions, isPlainHttp region.proberUrl = false ∧
        build config ownProbers names = .error (.proberNotHttp region.proberUrl region.id) := by
  obtain ⟨policy, understood⟩ := exists_ranking_of_validate accepted
  cases unreachable : if ownProbers then config.regions.find? fun r => !isPlainHttp r.proberUrl
    else none with
  | none =>
    left
    simp [build, accepted, unreachable, understood, bind, Except.bind, pure, Except.pure]
  | some region =>
    cases ownProbers with
    | false => simp at unreachable
    | true =>
      rw [if_pos rfl] at unreachable
      refine .inr ⟨rfl, region, List.mem_of_find?_eq_some unreachable, ?_, ?_⟩
      · simpa using List.find?_some unreachable
      · simp [build, accepted, unreachable, bind, Except.bind, throw, throwThe,
          MonadExceptOf.throw]

theorem build_ne_rankingUnsupported {config : Config} {ownProbers : Bool}
    {names : Net.NameService} {text : String} :
    build config ownProbers names ≠ .error (.rankingUnsupported text) := by
  intro refused
  cases accepted : config.validate names with
  | error violation =>
    simp only [build, accepted, bind, Except.bind, Except.error.injEq] at refused
    exact validate_ne_rankingUnsupported (refused ▸ accepted)
  | ok =>
    rcases build_of_validate ownProbers accepted with ⟨engine, built⟩ | ⟨-, region, -, -, failed⟩
    · cases built.symm.trans refused
    · cases failed.symm.trans refused

/-- The check and the engine understand the same texts: blanks around one of the names of a policy,
in any case of ASCII letters. So an accepted configuration is never refused for its ranking when an
engine is built, and no ranking that an engine understands is refused by the check. -/
theorem rankings_agree :
    (∀ s, Config.isRanking s = true ↔ ∃ policy, RankingPolicy.ofText? s = some policy) ∧
    (∀ s policy, RankingPolicy.ofText? s = some policy ↔
      Config.IsOneOf policy.names (Text.trim s)) ∧
    (∀ (config : Config) (names : Net.NameService) (text : String),
      config.validate names = .error (.ranking text) ↔
      Config.isLogLevel config.log.level = true ∧
        RankingPolicy.ofText? config.ranking = none ∧ text = config.ranking) ∧
    ∀ (config : Config) (names : Net.NameService) (ownProbers : Bool),
      (∀ text, build config ownProbers names ≠ .error (.rankingUnsupported text)) ∧
      (config.validate names = .ok () → (∃ engine, build config ownProbers names = .ok engine) ∨
        ownProbers = true ∧ ∃ region ∈ config.regions, isPlainHttp region.proberUrl = false ∧
          build config ownProbers names = .error (.proberNotHttp region.proberUrl region.id)) := by
  refine ⟨fun s => Config.isRanking_iff, fun s policy => RankingPolicy.ofText?_eq_some_iff,
    fun config names text => ?_, fun config names ownProbers =>
      ⟨fun text => build_ne_rankingUnsupported, build_of_validate ownProbers⟩⟩
  rw [Config.validate_eq_ranking_iff, Config.isRanking_eq_false_iff_ofText?]

/-- A name between blanks of Unicode, with capitals. The dotted capital `İ` is no capital `i`. -/
example : Config.isRanking "\u00a0LEAST-Load\u3000" = true ∧
    RankingPolicy.ofText? "\u00a0LEAST-Load\u3000" = some .leastLoad ∧
    Config.isRanking "CONFİG-ORDER" = false ∧ RankingPolicy.ofText? "CONFİG-ORDER" = none := by
  decide +kernel

end Engine

end Steering
