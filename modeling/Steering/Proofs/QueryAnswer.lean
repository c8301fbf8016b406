import Mathlib.Data.List.Perm.Basic
import Mathlib.Data.List.Nodup
import Steering.Engine.Query
import Steering.Proofs.Construction
import Steering.Proofs.LongestPrefix
import Steering.Proofs.RankingOrder
/-! What a query answers: the healthy PoPs in the order of the key that the policy goes by, and of
their places in the configuration where the keys are equal. -/

namespace Steering

/-- Whether the PoP at a place has a record without an error. -/
def Snapshot.isHealthyAt (snapshot : Snapshot) (index : Nat) : Bool :=
  snapshot.popStatus[index]?.any (·.error == "")

/-- The load that the PoP at a place reports. -/
def Snapshot.loadAt (snapshot : Snapshot) (index : Nat) : Option Binary64 :=
  snapshot.popStatus[index]?.map (·.load)

/-- The latency from a region to the PoP at a place. -/
def Snapshot.latencyAt (snapshot : Snapshot) (region index : Nat) : Option Binary64 :=
  snapshot.regionLatency[region]?.bind fun latency => latency[index]?

/-- What a policy orders the PoP at a place by for the clients of a region, or for clients without
one: the place of its latency or load in the total order of doubles, or nothing at all. -/
def RankingPolicy.key (policy : RankingPolicy) (snapshot : Snapshot) (region : Option Nat)
    (index : Nat) : Option Int :=
  match policy with
  | lowestLatency =>
    (region.bind fun region => snapshot.latencyAt region index).map Binary64.orderKey
  | configOrder => none
  | leastLoad => (snapshot.loadAt index).map Binary64.orderKey

/-- Whether the PoP at one place comes before the PoP at another: by a smaller key, or by its
place if the keys are equal. -/
def RankingPolicy.Precedes (policy : RankingPolicy) (snapshot : Snapshot) (region : Option Nat)
    (first second : Nat) : Prop :=
  (∃ x y, policy.key snapshot region first = some x ∧ policy.key snapshot region second = some y ∧
    x < y) ∨
  policy.key snapshot region first = policy.key snapshot region second ∧ first < second

namespace Engine

theorem mem_candidates_iff {snapshot : Snapshot} {region : Option Nat} {candidate : Candidate} :
    candidate ∈ candidates snapshot region ↔
      ∃ status, snapshot.popStatus[candidate.index]? = some status ∧
        candidate = ⟨candidate.index, status.isHealthy, status.load,
          region.bind fun region => snapshot.latencyAt region candidate.index⟩ := by
  simp only [candidates, List.mem_map, Prod.exists, List.mem_zipIdx_iff_getElem?]
  constructor
  · rintro ⟨status, index, found, rfl⟩
    refine ⟨status, found, ?_⟩
    cases region <;> rfl
  · rintro ⟨status, found, same⟩
    refine ⟨status, candidate.index, found, ?_⟩
    rw [same]
    cases region <;> rfl

theorem pairwise_candidates (snapshot : Snapshot) (region : Option Nat) :
    (candidates snapshot region).Pairwise fun a b => a.index < b.index :=
  List.pairwise_map.mpr (pairwise_zipIdx snapshot.popStatus)

/-- A healthy candidate of a region stands for a PoP whose record has no error. -/
theorem healthy_candidate_iff {snapshot : Snapshot} {region : Option Nat} {index : Nat} :
    (∃ candidate ∈ candidates snapshot region,
        candidate.healthy = true ∧ candidate.index = index) ↔
      snapshot.isHealthyAt index = true := by
  simp only [Snapshot.isHealthyAt, Option.any_eq_true]
  constructor
  · rintro ⟨candidate, member, healthy, rfl⟩
    obtain ⟨status, found, same⟩ := mem_candidates_iff.mp member
    rw [same] at healthy
    exact ⟨status, found, healthy⟩
  · rintro ⟨status, found, healthy⟩
    let candidate : Candidate := ⟨index, status.isHealthy, status.load,
      region.bind fun region => snapshot.latencyAt region index⟩
    exact ⟨candidate, mem_candidates_iff.mpr ⟨status, found, rfl⟩, healthy, rfl⟩

/-- What a policy orders a candidate by. -/
theorem key_of_candidate {snapshot : Snapshot} {region : Option Nat} {candidate : Candidate}
    (member : candidate ∈ candidates snapshot region) (policy : RankingPolicy) :
    policy.key snapshot region candidate.index =
      match policy with
      | .lowestLatency => candidate.latency.map Binary64.orderKey
      | .configOrder => none
      | .leastLoad => some candidate.load.orderKey := by
  obtain ⟨status, found, same⟩ := mem_candidates_iff.mp member
  cases policy with
  | lowestLatency =>
    rw [same]
    rfl
  | configOrder => rfl
  | leastLoad =>
    rw [same]
    simp [RankingPolicy.key, Snapshot.loadAt, found]

/-- In a state of the right shape, every PoP has a latency from a region that exists. -/
theorem isSome_latency {store : Store} {pops regions : Nat} (shaped : store.Shaped pops regions)
    {region : Option Nat} (known : ∀ index ∈ region, index < regions) {candidate : Candidate}
    (member : candidate ∈ candidates store.state region) :
    candidate.latency.isSome = region.isSome := by
  obtain ⟨status, found, same⟩ := mem_candidates_iff.mp member
  rw [same]
  cases region with
  | none => rfl
  | some index =>
    have present : index < store.state.regionLatency.length := by
      rw [shaped.regions]
      exact known index rfl
    have place : candidate.index < (store.state.regionLatency[index]).length := by
      rw [shaped.latencies _ (List.getElem_mem present), ← shaped.statuses]
      exact (List.getElem?_eq_some_iff.mp found).1
    simp [Snapshot.latencyAt, present, place]

/-- Two candidates stand as the policy and their places tell. -/
theorem precedes_of_le {store : Store} {pops regions : Nat} (shaped : store.Shaped pops regions)
    {region : Option Nat} (known : ∀ index ∈ region, index < regions) {policy : RankingPolicy}
    {a b : Candidate} (first : a ∈ candidates store.state region)
    (second : b ∈ candidates store.state region)
    (stands : policy.le a b = true ∧ (policy.le b a = true → a.index < b.index)) :
    policy.Precedes store.state region a.index b.index := by
  obtain ⟨less, tie⟩ := stands
  rw [RankingPolicy.Precedes, key_of_candidate first, key_of_candidate second]
  cases policy with
  | configOrder => exact .inr ⟨rfl, tie rfl⟩
  | leastLoad =>
    simp only [RankingPolicy.le, decide_eq_true_eq] at less tie
    rcases Int.lt_or_eq_of_le less with smaller | equal
    · exact .inl ⟨_, _, rfl, rfl, smaller⟩
    · exact .inr ⟨congrArg some equal, tie (Int.le_of_eq equal.symm)⟩
  | lowestLatency =>
    have both := (isSome_latency shaped known first).trans (isSome_latency shaped known second).symm
    cases left : a.latency with
    | none =>
      have right : b.latency = none := by simpa [left] using both
      simp only [RankingPolicy.le, RankingPolicy.latencyLe, left, right] at tie
      exact .inr ⟨by rw [right], tie trivial⟩
    | some x =>
      obtain ⟨y, right⟩ : ∃ y, b.latency = some y := by
        simpa [left, Option.isSome_iff_exists] using both.symm
      simp only [RankingPolicy.le, RankingPolicy.latencyLe, left, right,
        decide_eq_true_eq] at less tie
      rw [right]
      rcases Int.lt_or_eq_of_le less with smaller | equal
      · exact .inl ⟨_, _, rfl, rfl, smaller⟩
      · exact .inr ⟨congrArg some equal, tie (Int.le_of_eq equal.symm)⟩

/-- The PoPs for the clients of a region with their places, best first. -/
def standing (engine : Engine) (region : Option Nat) : List (Pop × Nat) :=
  (engine.ranking.ranked (candidates engine.store.state region)).filterMap fun candidate =>
    engine.pops[candidate.index]?.map (·, candidate.index)

theorem rank_eq_standing (engine : Engine) (region : Option Nat) :
    engine.rank region = (engine.standing region).map (·.1) := by
  rw [rank, RankingPolicy.rank_eq, List.filterMap_map, standing, List.map_filterMap]
  apply List.filterMap_congr
  intro candidate _
  simp [Option.map_map, Function.comp_def]

theorem mem_standing_iff {engine : Engine} {region : Option Nat} {pop : Pop} {index : Nat} :
    (pop, index) ∈ engine.standing region ↔
      engine.pops[index]? = some pop ∧ engine.store.state.isHealthyAt index = true := by
  simp only [standing, List.mem_filterMap, RankingPolicy.mem_ranked_iff,
    Option.map_eq_some_iff, Prod.mk.injEq, ← @healthy_candidate_iff _ region]
  constructor
  · rintro ⟨candidate, ⟨member, healthy⟩, _, found, rfl, rfl⟩
    exact ⟨found, candidate, member, healthy, rfl⟩
  · rintro ⟨found, candidate, member, healthy, rfl⟩
    exact ⟨candidate, ⟨member, healthy⟩, pop, found, rfl, rfl⟩

theorem pairwise_standing (engine : Engine) {pops regions : Nat}
    (shaped : engine.store.Shaped pops regions) {region : Option Nat}
    (known : ∀ index ∈ region, index < regions) :
    (engine.standing region).Pairwise fun a b =>
      engine.ranking.Precedes engine.store.state region a.2 b.2 := by
  have sorted := @RankingPolicy.pairwise_ranked engine.ranking _
    (pairwise_candidates engine.store.state region)
  have inOrder := sorted.imp_of_mem fun first second stands =>
    precedes_of_le shaped known (RankingPolicy.mem_ranked_iff.mp first).1
      (RankingPolicy.mem_ranked_iff.mp second).1 stands
  refine inOrder.filterMap _ ?_
  intro a b precedes x first y second
  obtain ⟨_, _, rfl⟩ := Option.map_eq_some_iff.mp first
  obtain ⟨_, _, rfl⟩ := Option.map_eq_some_iff.mp second
  exact precedes

theorem nodup_standing (engine : Engine) (region : Option Nat) :
    (engine.standing region).Nodup := by
  have places := pairwise_candidates engine.store.state region
  have distinct : (engine.ranking.ranked (candidates engine.store.state region)).Pairwise
      fun a b => a.index ≠ b.index := by
    refine (List.Perm.pairwise_iff Ne.symm (List.mergeSort_perm _ _)).mpr ?_
    exact (places.imp Nat.ne_of_lt).filter _
  refine distinct.filterMap _ ?_
  intro a b different x first y second same
  obtain ⟨_, _, rfl⟩ := Option.map_eq_some_iff.mp first
  obtain ⟨_, _, rfl⟩ := Option.map_eq_some_iff.mp second
  exact different (congrArg Prod.snd same)

/-- The standing holds every healthy PoP once and nothing else. -/
theorem standing_perm (engine : Engine) (region : Option Nat) :
    (engine.standing region).Perm
      (engine.pops.zipIdx.filter fun (_, index) => engine.store.state.isHealthyAt index) := by
  have places : engine.pops.zipIdx.Nodup := by
    refine List.Nodup.of_map Prod.snd ?_
    rw [List.zipIdx_map_snd]
    exact List.nodup_range'
  refine (List.perm_ext_iff_of_nodup (nodup_standing engine region) (places.filter _)).mpr ?_
  rintro ⟨pop, index⟩
  rw [mem_standing_iff, List.mem_filter, List.mem_zipIdx_iff_getElem?]

/-- There is no standing exactly if no record is without an error. -/
theorem standing_eq_nil_iff (engine : Engine) {regions : Nat}
    (shaped : engine.store.Shaped engine.pops.length regions) (region : Option Nat) :
    engine.standing region = [] ↔ ∀ status ∈ engine.store.state.popStatus, status.error ≠ "" := by
  rw [List.eq_nil_iff_forall_not_mem]
  constructor
  · intro empty status member healthy
    obtain ⟨index, found⟩ := List.mem_iff_getElem?.mp member
    have place : index < engine.pops.length := by
      rw [← shaped.statuses]
      exact (List.getElem?_eq_some_iff.mp found).1
    refine empty (engine.pops[index], index) (mem_standing_iff.mpr ⟨?_, ?_⟩)
    · exact List.getElem?_eq_getElem place
    · simp [Snapshot.isHealthyAt, found, healthy]
  · rintro unhealthy ⟨pop, index⟩ member
    obtain ⟨status, found, healthy⟩ :=
      (Option.any_eq_true _ _).mp (mem_standing_iff.mp member).2
    exact unhealthy status (List.mem_of_getElem? found) (by simpa using healthy)

/-- Until records are committed, none of them is without an error. -/
theorem unhealthy_of_no_status {config : Config} {engine : Engine}
    (built : BuiltFrom config engine) {commits : List Commit}
    (none : ∀ statuses, .status statuses ∈ commits → statuses.length ≠ config.pops.length) :
    ∀ status ∈ (engine.store.replay commits).state.popStatus, status.error ≠ "" := by
  rcases (built.shaped_replay []).popStatus_replay commits with first | ⟨statuses, member, fits, _⟩
  · intro status listed
    rw [Store.replay_nil, built.store] at first
    rw [built.store, first] at listed
    rw [List.eq_of_mem_replicate listed]
    decide
  · exact absurd fits (none statuses member)

/-- An answer for the clients of a region in a state: the addresses of exactly the PoPs whose
records have no error, each PoP once, ordered by the key of the policy and then by place. -/
structure IsAnswer (pops : List Pop) (policy : RankingPolicy) (snapshot : Snapshot)
    (region : Option Nat) (answer : List Net.Ipv4) : Prop where
  ranked : ∃ ranked : List (Pop × Nat), answer = ranked.map (·.1.ip4) ∧
    ranked.Perm (pops.zipIdx.filter fun (_, index) => snapshot.isHealthyAt index) ∧
    ranked.Pairwise fun a b => policy.Precedes snapshot region a.2 b.2
  empty_iff : answer = [] ↔ ∀ status ∈ snapshot.popStatus, status.error ≠ ""

theorem isAnswer_standing (engine : Engine) {regions : Nat}
    (shaped : engine.store.Shaped engine.pops.length regions) {region : Option Nat}
    (known : ∀ index ∈ region, index < regions) :
    IsAnswer engine.pops engine.ranking engine.store.state region
      ((engine.standing region).map (·.1.ip4)) where
  ranked := ⟨engine.standing region, rfl, standing_perm engine region,
    pairwise_standing engine shaped known⟩
  empty_iff := by
    rw [List.map_eq_nil_iff]
    exact standing_eq_nil_iff engine shaped region

/-- Whatever has been committed, a query is answered from that one state, by the policy that is
configured and the one region that the client belongs to. Without a commit of records the answer is
empty. -/
theorem query_answer {config : Config} {ownProbers : Bool} {names : Net.NameService}
    {engine : Engine} (built : build config ownProbers names = .ok engine)
    (commits : List Commit) (client : Net.Address) :
    let store := engine.store.replay commits
    let answer := { engine with store }.query client
    store.Shaped config.pops.length config.regions.length ∧
    RankingPolicy.ofText? config.ranking = some engine.ranking ∧
    (∃ region, (∀ other, RegionTable.BelongsTo (config.regions.map (·.prefixes)) client other ↔
        other = region) ∧ IsAnswer config.pops engine.ranking store.state region answer) ∧
    ((∀ statuses, .status statuses ∈ commits → statuses.length ≠ config.pops.length) →
      answer = []) := by
  intro store answer
  have parts := builtFrom_of_build built
  have shaped := parts.shaped_replay commits
  have belongs := @RegionTable.belongsTo_resolve (config.regions.map (·.prefixes)) client
  rw [← parts.table] at belongs
  have known : ∀ index ∈ engine.table.resolve? client, index < config.regions.length := by
    intro index resolved
    rw [Option.mem_def] at resolved
    rw [resolved] at belongs
    obtain ⟨_, _, _, ⟨_, found, _⟩, _⟩ := belongs
    simpa using (List.getElem?_eq_some_iff.mp found).1
  let current : Engine := { engine with store }
  have listed : answer = (current.standing (engine.table.resolve? client)).map (·.1.ip4) := by
    change (current.rank (engine.table.resolve? client)).map (·.ip4) = _
    rw [rank_eq_standing, List.map_map]
    rfl
  have isAnswer : IsAnswer config.pops engine.ranking store.state (engine.table.resolve? client)
      answer := by
    rw [listed, ← parts.pops]
    rw [← parts.pops] at shaped
    exact isAnswer_standing current shaped known
  refine ⟨shaped, parts.ranking, ⟨_, ?_, isAnswer⟩, ?_⟩
  · exact fun other => ⟨fun also => also.unique belongs, fun same => same ▸ belongs⟩
  · exact fun none => isAnswer.empty_iff.mpr (unhealthy_of_no_status parts none)

theorem query_answer_twoPops : ∃ engine, build twoPops true = .ok engine ∧
    let store := engine.store.replay [.status [.blank, .blank], .latency 0 [.ofNat 20, .ofNat 10]]
    IsAnswer twoPops.pops engine.ranking store.state (some 0)
      ({ engine with store }.query (.v4 (.ofOctets 198 51 100 12))) := by
  obtain ⟨engine, built⟩ := build_twoPops
  have belongs : RegionTable.BelongsTo (twoPops.regions.map (·.prefixes))
      (.v4 (.ofOctets 198 51 100 12)) (some 0) := by
    have resolved : (RegionTable.ofPrefixes (twoPops.regions.map (·.prefixes))).resolve?
        (.v4 (.ofOctets 198 51 100 12)) = some 0 := by decide +kernel
    rw [← resolved]
    exact RegionTable.belongsTo_resolve _
  obtain ⟨-, -, ⟨region, only, isAnswer⟩, -⟩ := query_answer built
    [.status [.blank, .blank], .latency 0 [.ofNat 20, .ofNat 10]] (.v4 (.ofOctets 198 51 100 12))
  cases (only (some 0)).mp belongs
  exact ⟨engine, built, isAnswer⟩

end Engine

end Steering
