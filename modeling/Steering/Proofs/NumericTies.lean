import Steering.Proofs.ProbedLatencies
import Steering.Proofs.StableRanking
import Steering.Proofs.UsableLatencies
/-! PoPs whose keys are numerically equal stand in the order of the configuration, unless the first has
zero and the other has minus zero. Minus zero is never a key that nobody has reported. -/

namespace Steering

/-! ## Equal numbers -/

namespace Binary64

/-- The number that a pattern stands for if its sign is left out. For an infinity this is the power of
two beyond all finite numbers. -/
def fraction (x : Binary64) : ℚ :=
  x.numerator / x.denominator

/-- The number that a pattern stands for. -/
def number (x : Binary64) : ℚ :=
  if x.signed then -x.fraction else x.fraction

variable {x y : Binary64}

theorem fraction_nonneg (x : Binary64) : 0 ≤ x.fraction :=
  div_nonneg (Nat.cast_nonneg _) (Nat.cast_nonneg _)

theorem fraction_eq_iff : x.fraction = y.fraction ↔ x.magnitude = y.magnitude := by
  have below := magnitude_lt_iff x y
  have above := magnitude_lt_iff y x
  have left : (x.denominator : ℚ) ≠ 0 := Nat.cast_ne_zero.mpr (Nat.ne_of_gt x.denominator_pos)
  have right : (y.denominator : ℚ) ≠ 0 := Nat.cast_ne_zero.mpr (Nat.ne_of_gt y.denominator_pos)
  rw [fraction, fraction, div_eq_div_iff left right]
  norm_cast
  omega

theorem fraction_eq_zero_iff : x.fraction = 0 ↔ x.magnitude = 0 := by
  have none : zero.numerator = 0 := by decide +kernel
  have ofZero : zero.fraction = 0 := by
    rw [fraction, none, Nat.cast_zero, zero_div]
  rw [← ofZero, fraction_eq_iff]
  rfl

/-- A pattern is known by its sign and its magnitude. -/
theorem eq_of_parts (sign : x.signed = y.signed) (magnitude : x.magnitude = y.magnitude) : x = y := by
  apply orderKey_injective
  rw [orderKey, orderKey, sign, magnitude]

/-- Only zero has two patterns. -/
theorem number_eq_iff : x.number = y.number ↔ x = y ∨ x.magnitude = 0 ∧ y.magnitude = 0 := by
  have left := x.fraction_nonneg
  have right := y.fraction_nonneg
  constructor
  · intro same
    by_cases sign : x.signed = y.signed
    · left
      refine eq_of_parts sign (fraction_eq_iff.mp ?_)
      rw [number, number, sign] at same
      split at same
      · exact neg_inj.mp same
      · exact same
    · -- With different signs one of the numbers is not above zero, and the other is not below.
      right
      rw [← fraction_eq_zero_iff, ← fraction_eq_zero_iff]
      have opposite : y.signed = !x.signed := Bool.eq_not.mpr (Ne.symm sign)
      have none : x.fraction + y.fraction = 0 := by
        rw [number, number, opposite] at same
        cases one : x.signed with
        | false =>
          simp only [one, Bool.false_eq_true, if_false, Bool.not_false, if_true] at same
          linarith
        | true =>
          simp only [one, Bool.false_eq_true, if_false, Bool.not_true, if_true] at same
          linarith
      exact (add_eq_zero_iff_of_nonneg left right).mp none
  · rintro (rfl | ⟨none, noneToo⟩)
    · rfl
    · rw [number, number, fraction_eq_zero_iff.mpr none, fraction_eq_zero_iff.mpr noneToo, neg_zero,
        ite_self, ite_self]

theorem sameNumber_iff :
    x.sameNumber y = true ↔ x.isNaN = false ∧ y.isNaN = false ∧ x.number = y.number := by
  rw [number_eq_iff]
  simp [sameNumber, and_assoc]

/-- The pattern of zero with a sign. -/
theorem eq_zero_of_magnitude (none : x.magnitude = 0) :
    x = if x.signed then zero.negate else zero := by
  cases sign : x.signed with
  | false => exact eq_of_parts sign none
  | true => exact eq_of_parts sign none

/-- Patterns that stand for the same number are the same one, or the two zeros. -/
theorem eq_or_zeros_of_sameNumber (same : x.sameNumber y = true) :
    x = y ∨ x = zero ∧ y = zero.negate ∨ x = zero.negate ∧ y = zero := by
  rcases number_eq_iff.mp (sameNumber_iff.mp same).2.2 with equal | ⟨none, noneToo⟩
  · exact .inl equal
  · rw [eq_zero_of_magnitude none, eq_zero_of_magnitude noneToo]
    cases x.signed <;> cases y.signed <;> simp

end Binary64

/-! ## Ties of a policy -/

namespace RankingPolicy

/-- The load or the latency that a policy orders the PoP at a place by, if it goes by one and the clients
have a region where it has to. -/
def keyAt (policy : RankingPolicy) (snapshot : Snapshot) (region : Option Nat) (place : Nat) :
    Option Binary64 :=
  match policy with
  | lowestLatency => region.bind fun region => snapshot.latencyAt region place
  | configOrder => none
  | leastLoad => snapshot.loadAt place

/-- The keys of the PoPs at two places are numerically equal: they stand for the same number, or neither
PoP has one. -/
inductive Ties (policy : RankingPolicy) (snapshot : Snapshot) (region : Option Nat)
    (first second : Nat) : Prop
  | absent (left : policy.keyAt snapshot region first = none)
      (right : policy.keyAt snapshot region second = none)
  | equal {x y : Binary64} (left : policy.keyAt snapshot region first = some x)
      (right : policy.keyAt snapshot region second = some y) (number : x.isNaN = false)
      (numberToo : y.isNaN = false) (same : x.number = y.number)

/-- The PoP at the second place has minus zero where the one at the first has zero. -/
def Overtakes (policy : RankingPolicy) (snapshot : Snapshot) (region : Option Nat)
    (first second : Nat) : Prop :=
  policy.keyAt snapshot region first = some .zero ∧
    policy.keyAt snapshot region second = some Binary64.zero.negate

variable {policy : RankingPolicy} {snapshot : Snapshot} {region : Option Nat} {first second : Nat}

instance : Decidable (policy.Overtakes snapshot region first second) :=
  inferInstanceAs (Decidable (_ ∧ _))

theorem key_eq_keyAt (policy : RankingPolicy) (snapshot : Snapshot) (region : Option Nat)
    (place : Nat) :
    policy.key snapshot region place =
      (policy.keyAt snapshot region place).map Binary64.orderKey := by
  cases policy <;> rfl

theorem precedes_of_keyAt {x y : Binary64} (left : policy.keyAt snapshot region first = some x)
    (right : policy.keyAt snapshot region second = some y) (less : x.orderKey < y.orderKey) :
    policy.Precedes snapshot region first second := by
  refine .inl ⟨x.orderKey, y.orderKey, ?_, ?_, less⟩
  · rw [key_eq_keyAt, left, Option.map_some]
  · rw [key_eq_keyAt, right, Option.map_some]

/-- Of PoPs with equal keys the earlier comes first, unless the later overtakes it. -/
theorem Ties.precedes (ties : policy.Ties snapshot region first second) (before : first < second)
    (stays : ¬ policy.Overtakes snapshot region first second) :
    policy.Precedes snapshot region first second := by
  cases ties with
  | absent left right =>
    refine .inr ⟨?_, before⟩
    rw [key_eq_keyAt, key_eq_keyAt, left, right]
  | @equal x y left right number numberToo same =>
    have numbers : x.sameNumber y = true := Binary64.sameNumber_iff.mpr ⟨number, numberToo, same⟩
    rcases Binary64.eq_or_zeros_of_sameNumber numbers with rfl | ⟨rfl, rfl⟩ | ⟨rfl, rfl⟩
    · refine .inr ⟨?_, before⟩
      rw [key_eq_keyAt, key_eq_keyAt, left, right]
    · exact absurd ⟨left, right⟩ stays
    · exact precedes_of_keyAt left right (by decide +kernel)

/-- A PoP that overtakes another has the same key in number. -/
theorem Overtakes.ties (overtakes : policy.Overtakes snapshot region first second) :
    policy.Ties snapshot region first second :=
  .equal overtakes.1 overtakes.2 (by decide +kernel) (by decide +kernel)
    (Binary64.number_eq_iff.mpr (.inr (by decide +kernel)))

theorem Overtakes.precedes (overtakes : policy.Overtakes snapshot region first second) :
    policy.Precedes snapshot region second first :=
  precedes_of_keyAt overtakes.2 overtakes.1 (by decide +kernel)

end RankingPolicy

/-- Of two healthy PoPs with equal keys the earlier stands first in a ranking, unless the later overtakes
it. -/
theorem Engine.sublist_places_of_ties {engine : Engine} {pops regions : Nat}
    (shaped : engine.store.Shaped pops regions) {region : Option Nat}
    (known : ∀ index ∈ region, index < regions) {first second : Nat} (before : first < second)
    (healthy : engine.store.state.isHealthyAt first = true)
    (healthyToo : engine.store.state.isHealthyAt second = true)
    (ties : engine.ranking.Ties engine.store.state region first second) :
    ([first, second].Sublist (engine.places region) ↔
      ¬ engine.ranking.Overtakes engine.store.state region first second) ∧
    ([second, first].Sublist (engine.places region) ↔
      engine.ranking.Overtakes engine.store.state region first second) := by
  rw [sublist_places_iff shaped known healthy healthyToo,
    sublist_places_iff shaped known healthyToo healthy]
  refine ⟨⟨fun precedes overtakes => ?_, ties.precedes before⟩,
    ⟨fun precedes => ?_, fun overtakes => overtakes.precedes⟩⟩
  · exact precedes.asymm overtakes.precedes
  · by_contra stays
    exact precedes.asymm (ties.precedes before stays)

/-! ## Where keys come from -/

namespace Refresh

variable (t : Responder) (plan : Plan) (heard : List Arrival) (history seen : List Deed)

/-- A load that has been committed as it was fetched for the PoP at a place. -/
inductive LoadReported (place : Nat) (address : Net.Ipv4) (load : Binary64) : Prop
  | intro {deed : Deed} {statuses : List PopStatus} {status : PopStatus} {began : Nat}
      (member : deed ∈ seen) (committed : deed.entry = .committed (.status statuses))
      (record : statuses[place]? = some status) (its : status.load = load)
      (fetched : Fetched t (heardBy heard deed.actor)
        (deedsBy deed.actor (doneBy deed.moment history)) began (began + plan.statusTimeout) place
        address (.success status))

/-- A latency that has been committed as it was measured from a region to the PoP at a place. -/
inductive LatencyReported (region place : Nat) (endpoint : String) (latency : Binary64) : Prop
  | intro {deed : Deed} {latencies : List Binary64} {began asked : Nat}
      (member : deed ∈ seen) (committed : deed.entry = .committed (.latency region latencies))
      (held : latencies[place]? = some latency) (known : region < plan.regionCount)
      (since : began ≤ asked)
      (measured : Measured t (heardBy heard deed.actor)
        (deedsBy deed.actor (doneBy deed.moment history)) region (began + plan.latencyTimeout) asked
        place endpoint (.success latency))

end Refresh

namespace Engine

open Refresh

variable {config : Config} {engine : Engine} {t : Responder} {course : Course} {seen : List Deed}

/-- Where a state has minus zero, it has been reported. -/
structure MinusZerosReported (t : Responder) (config : Config) (heard : List Arrival)
    (history seen : List Deed) (state : Snapshot) : Prop where
  load : ∀ place pop, config.pops[place]? = some pop →
    state.loadAt place = some Binary64.zero.negate →
    LoadReported t (planOf config) heard history seen place pop.ip4 Binary64.zero.negate
  latency : ∀ region place pop, config.pops[place]? = some pop →
    state.latencyAt region place = some Binary64.zero.negate →
    LatencyReported t (planOf config) heard history seen region place pop.latencyEndpointUrl
      Binary64.zero.negate

section Reported

variable (built : BuiltFrom config engine) (sound : course.Sound t engine.plan engine.store)
  (dated : course.Dated t engine.plan) (part : seen <+: course.history)
include built dated part

section Place

variable {place : Nat} {pop : Pop} (found : config.pops[place]? = some pop)
include found

/-- Any load but zero has been reported. -/
theorem loadReported_of_ne {load : Binary64}
    (its : (stateAfter engine.store seen).state.loadAt place = some load) (other : load ≠ .zero) :
    LoadReported t engine.plan course.heard course.history seen place pop.ip4 load := by
  obtain ⟨status, record, rfl⟩ := Option.map_eq_some_iff.mp its
  rcases (built.fits []).shaped.popStatus_replay (commits (seen.map Deed.entry)) with
    first | ⟨statuses, made, -, now⟩
  · change (stateAfter engine.store seen).state.popStatus = engine.store.state.popStatus at first
    rw [first, built.store] at record
    rw [List.eq_of_mem_replicate (List.mem_of_getElem? record)] at other
    exact absurd rfl other
  · change (stateAfter engine.store seen).state.popStatus = statuses at now
    rw [now] at record
    obtain ⟨deed, member, committed⟩ := List.mem_map.mp (mem_commits.mp made)
    obtain ⟨began, batch⟩ := dated.whole deed (part.subset member) _ committed
    have address : engine.plan.addresses[place]? = some pop.ip4 := by
      rw [built.plan, planOf, List.getElem?_map, found, Option.map_some]
    obtain ⟨outcome, recorded, fetched⟩ := batch.record place _ _ address record
    cases outcome with
    | success value =>
      cases recorded
      exact .intro member committed record rfl fetched
    | failure reason =>
      cases recorded
      exact absurd rfl other
    | crash => cases recorded

include sound in
/-- Any latency but the first one and the one that stands for a failed measurement has been
reported. -/
theorem latencyReported_of_ne {region : Nat} {latency : Binary64}
    (its : (stateAfter engine.store seen).state.latencyAt region place = some latency)
    (later : latency ≠ initialLatency) (reached : latency ≠ unreachableLatency) :
    LatencyReported t engine.plan course.heard course.history seen region place
      pop.latencyEndpointUrl latency := by
  obtain ⟨vector, kept, held⟩ := Option.bind_eq_some_iff.mp its
  rcases regionLatency_stateAfter built sound.logged part region with
    first | ⟨deed, member, latencies, committed, -, now⟩
  · have initial : engine.store.regionLatency? region = some vector := first.symm.trans kept
    rw [built.store] at initial
    rw [List.eq_of_mem_replicate (List.mem_of_getElem? initial)] at held
    exact absurd (List.eq_of_mem_replicate (List.mem_of_getElem? held)) later
  · cases kept.symm.trans now
    obtain ⟨known, began, last, pass⟩ := dated.whole deed (part.subset member) _ committed
    have endpoint : engine.plan.endpoints[place]? = some pop.latencyEndpointUrl := by
      rw [built.plan, planOf, List.getElem?_map, found, Option.map_some]
    obtain ⟨x, asked, outcome, same, since, asks, accepted⟩ := pass.entry endpoint
    cases held.symm.trans same
    rcases latencyOf_eq_some accepted with failed | ⟨rfl, -⟩
    · exact absurd failed reached
    · exact .intro member committed held known since asks

end Place

include sound in
/-- None of the values that a state has without a report is minus zero. -/
theorem minusZerosReported : MinusZerosReported t config course.heard course.history seen
    (stateAfter engine.store seen).state where
  load place pop found its := by
    rw [← built.plan]
    exact loadReported_of_ne built dated part found its (by decide +kernel)
  latency region place pop found its := by
    rw [← built.plan]
    exact latencyReported_of_ne built sound dated part found its (by decide +kernel)
      (by decide +kernel)

end Reported

section OwnTransports

variable {statusPort : Nat} {carrier : Http.Carrier} {heard : List Arrival}
  (expected : ∀ arrival ∈ heard, engine.Expects statusPort arrival)
include expected

/-- A latency that an own prober has reported is not minus zero. -/
theorem ne_minusZero_of_latencyReported {history : List Deed} {region place : Nat}
    {endpoint : String} {latency : Binary64}
    (reported : LatencyReported (engine.ownTransports statusPort carrier) engine.plan heard history
      seen region place endpoint latency) : latency ≠ Binary64.zero.negate := by
  obtain @⟨deed, _, _, _, _, _, _, known, _, measured⟩ := reported
  have own : ∀ arrival ∈ heardBy heard deed.actor, engine.Expects statusPort arrival :=
    fun arrival told => expected arrival (heardBy_subset_self heard deed.actor told)
  have kept : ProbeResult.IsKept latency := isKept_of_origin own (measured.origin known) rfl
  rintro rfl
  exact absurd kept.2 (by decide +kernel)

/-- With its own probers, by latency no PoP overtakes another. -/
theorem not_overtakes_of_minusZerosReported (built : BuiltFrom config engine) {store : Store}
    (shaped : store.Shaped config.pops.length config.regions.length) {history : List Deed}
    (reported : MinusZerosReported (engine.ownTransports statusPort carrier) config heard history
      seen store.state) (region : Option Nat) (first second : Nat) :
    ¬ RankingPolicy.lowestLatency.Overtakes store.state region first second := by
  rintro ⟨-, its⟩
  obtain ⟨index, -, latency⟩ := Option.bind_eq_some_iff.mp its
  have place : second < config.pops.length := by
    obtain ⟨vector, kept, held⟩ := Option.bind_eq_some_iff.mp latency
    rw [← shaped.latencies vector (List.mem_of_getElem? kept)]
    exact (List.getElem?_eq_some_iff.mp held).1
  have told := reported.latency index second _ (List.getElem?_eq_getElem place) latency
  rw [← built.plan] at told
  exact ne_minusZero_of_latencyReported expected told rfl

end OwnTransports

/-! ## Ties in an answer -/

/-- A client has one of the regions of the configuration, if it has one. -/
theorem BuiltFrom.lt_of_resolve (built : BuiltFrom config engine) (client : Net.Address) :
    ∀ index ∈ engine.table.resolve? client, index < config.regions.length := by
  intro index resolved
  have belongs := @RegionTable.belongsTo_resolve (config.regions.map (·.prefixes)) client
  rw [← built.table, Option.mem_def.mp resolved] at belongs
  simpa using RegionTable.BelongsTo.lt_length belongs

/-- How an answer to the clients of a region, or to clients without one, orders PoPs whose keys are
numerically equal. -/
structure TiesByPlace (engine : Engine) (region : Option Nat) (answer : List Net.Ipv4) : Prop where
  /-- The answer goes through the places of PoPs. -/
  places : answer = (engine.places region).filterMap fun place => engine.pops[place]?.map (·.ip4)
  /-- Of two healthy PoPs the one configured first comes first, unless the other overtakes it, and then
  the other does. -/
  tied : ∀ first second, first < second → engine.store.state.isHealthyAt first = true →
    engine.store.state.isHealthyAt second = true →
    engine.ranking.Ties engine.store.state region first second →
    ([first, second].Sublist (engine.places region) ↔
      ¬ engine.ranking.Overtakes engine.store.state region first second) ∧
    ([second, first].Sublist (engine.places region) ↔
      engine.ranking.Overtakes engine.store.state region first second)

/-- However the refreshes of an engine are interleaved and whatever is reported to them, PoPs with
numerically equal keys stand by their places in every answer, unless minus zero has been reported for the
later one where the earlier has zero. Its own probers never report minus zero. -/
theorem numeric_ties {ownProbers : Bool} {names : Net.NameService}
    (built : build config ownProbers names = .ok engine)
    (t : Responder) (channel : Shutdown.Channel) (events : List (Nat × Event)) :
    let course := (Course.start engine.store channel).run t engine.plan events
    course.loop.store = stateAfter engine.store course.history ∧
    ∀ seen, seen <+: course.history →
      let store := stateAfter engine.store seen
      let current : Engine := { engine with store }
      (∀ client, ∃ region, RegionTable.BelongsTo (config.regions.map (·.prefixes)) client region ∧
        current.TiesByPlace region (current.query client)) ∧
      MinusZerosReported t config course.heard course.history seen store.state ∧
      ∀ carrier, t = engine.ownTransports config.refresh.statusPort.toNat carrier →
        (∀ elapsed arrival, (elapsed, .arrive arrival) ∈ events →
          engine.Expects config.refresh.statusPort.toNat arrival) →
        ∀ region first second,
          ¬ RankingPolicy.lowestLatency.Overtakes store.state region first second := by
  intro course
  have parts := builtFrom_of_build built
  have sound : course.Sound t engine.plan engine.store := parts.sound_run t channel events
  have dated : course.Dated t engine.plan :=
    Course.dated_run (parts.fits []) (Course.sound_start _ channel) (Course.dated_start _ channel)
      events
  refine ⟨sound.logged.state, fun seen part => ?_⟩
  intro store current
  have shaped : store.Shaped config.pops.length config.regions.length := parts.shaped_replay _
  have reported := minusZerosReported parts sound dated part
  refine ⟨fun client => ?_, reported, ?_⟩
  · have belongs := @RegionTable.belongsTo_resolve (config.regions.map (·.prefixes)) client
    rw [← parts.table] at belongs
    refine ⟨_, belongs, current.query_eq_places client, ?_⟩
    intro first second before healthy healthyToo ties
    exact sublist_places_of_ties shaped (parts.lt_of_resolve client) before healthy healthyToo ties
  · rintro carrier rfl expected
    refine not_overtakes_of_minusZerosReported (fun arrival told => ?_) parts shaped reported
    rcases Course.heard_run told with none | ⟨elapsed, among⟩
    · cases none
    · exact expected elapsed arrival among

/-- The configuration of two PoPs that are ranked by their loads. -/
def leastLoadPops : Config := { twoPops with ranking := "least-load" }

/-- The status documents of two PoPs, by the address of the first. -/
def reporting (first second : String) : Http.Carrier := fun _ request =>
  (some 0, .ok ⟨200, [Text.encode
    (if request.url = "http://192.0.2.1:8889/statusz" then first else second)], true⟩)

theorem build_leastLoadPops : ∃ engine, build leastLoadPops true = .ok engine :=
  exists_build (by decide +kernel)

theorem ranking_leastLoadPops {engine : Engine} (parts : BuiltFrom leastLoadPops engine) :
    engine.ranking = .leastLoad := by
  have named : RankingPolicy.ofText? leastLoadPops.ranking = some .leastLoad := by decide +kernel
  exact Option.some.inj (parts.ranking.symm.trans named)

/-- Two PoPs that write the same load in different ways stand by their places for every client. -/
theorem numeric_ties_equalLoads : ∃ engine, build leastLoadPops true = .ok engine ∧
    let t := engine.ownTransports leastLoadPops.refresh.statusPort.toNat
      (reporting "\x7b\"load\":0.50\x7d" "\x7b\"load\":5e-1\x7d")
    let course := (Course.start engine.store .initial).run t engine.plan [(0, .beginStatus)]
    let current := { engine with store := stateAfter engine.store course.history }
    ∀ client, ∃ region,
      RegionTable.BelongsTo (leastLoadPops.regions.map (·.prefixes)) client region ∧
      current.ranking.Ties current.store.state region 0 1 ∧
      [0, 1].Sublist (current.places region) := by
  obtain ⟨engine, built⟩ := build_leastLoadPops
  refine ⟨engine, built, ?_⟩
  intro t course current client
  obtain ⟨-, laws⟩ := numeric_ties built t .initial [(0, .beginStatus)]
  obtain ⟨region, belongs, law⟩ := (laws course.history (List.prefix_refl _)).1 client
  refine ⟨region, belongs, ?_⟩
  have policy := ranking_leastLoadPops (builtFrom_of_build built)
  obtain ⟨-, -, ranking, -, rfl⟩ := build_eq_ok built
  cases policy
  have half : current.store.state.loadAt 0 = some ⟨0x3FE0000000000000⟩ ∧
      current.store.state.loadAt 1 = some ⟨0x3FE0000000000000⟩ := by decide +kernel
  have ties : current.ranking.Ties current.store.state region 0 1 :=
    .equal half.1 half.2 (by decide +kernel) (by decide +kernel) rfl
  have stays : ¬ current.ranking.Overtakes current.store.state region 0 1 := by
    rintro ⟨zero, -⟩
    cases half.1.symm.trans zero
  exact ⟨ties, (law.tied 0 1 (by decide) (by decide +kernel) (by decide +kernel) ties).1.mpr stays⟩

/-- Of two healthy PoPs whose keys are numerically equal, the one configured later comes first for a
client. -/
structure TieReversed (engine : Engine) (client : Net.Address) (first second : Nat) : Prop where
  before : first < second
  healthy : engine.store.state.isHealthyAt first = true
  healthyToo : engine.store.state.isHealthyAt second = true
  ties : engine.ranking.Ties engine.store.state (engine.table.resolve? client) first second
  behind : ¬ [first, second].Sublist (engine.places (engine.table.resolve? client))
  answered : ∀ one two, engine.pops[first]? = some one → engine.pops[second]? = some two →
    [two.ip4, one.ip4].Sublist (engine.query client)

theorem BuiltFrom.tieReversed (built : BuiltFrom config engine) {store : Store}
    (shaped : store.Shaped config.pops.length config.regions.length) {client : Net.Address}
    {first second : Nat} (before : first < second) (healthy : store.state.isHealthyAt first = true)
    (healthyToo : store.state.isHealthyAt second = true)
    (overtakes : engine.ranking.Overtakes store.state (engine.table.resolve? client) first second) :
    { engine with store }.TieReversed client first second := by
  let current : Engine := { engine with store }
  obtain ⟨place, reversed⟩ := @sublist_places_of_ties current _ _ shaped _
    (built.lt_of_resolve client) _ _ before healthy healthyToo overtakes.ties
  refine ⟨before, healthy, healthyToo, overtakes.ties, fun kept => place.mp kept overtakes, ?_⟩
  intro one two found foundToo
  have addresses := (reversed.mpr overtakes).filterMap fun place => current.pops[place]?.map (·.ip4)
  change [two.ip4, one.ip4].Sublist (current.query client)
  rw [query_eq_places]
  simpa [current, found, foundToo] using addresses

/-- All PoPs are healthy and right beside their probers, the first of them on one side of zero and the
others on the other. -/
def besideZero : Responder where
  fetch _ _ _ := ⟨some 0, .success .blank⟩
  measure _ _ place _ :=
    ⟨some 0, .success (if place = 0 then .zero else Binary64.zero.negate)⟩

/-- A later PoP comes first where it reports minus zero as its load and the earlier reports zero, and where
minus zero is measured to it and zero to the earlier. -/
theorem numeric_ties_minusZero :
    (∃ engine, build leastLoadPops true = .ok engine ∧
      let t := engine.ownTransports leastLoadPops.refresh.statusPort.toNat
        (reporting "\x7b\"load\":0.0\x7d" "\x7b\"load\":-0.0\x7d")
      let course := (Course.start engine.store .initial).run t engine.plan [(0, .beginStatus)]
      ∀ client, { engine with store := course.loop.store }.TieReversed client 0 1) ∧
    ∃ engine, build twoPops true = .ok engine ∧
      let course := (Course.start engine.store .initial).run besideZero engine.plan
        [(0, .beginStatus), (0, .beginLatency)]
      { engine with store := course.loop.store }.TieReversed (.v4 (.ofOctets 198 51 100 12)) 0 1 := by
  constructor
  · obtain ⟨engine, built⟩ := build_leastLoadPops
    refine ⟨engine, built, ?_⟩
    intro t course client
    have parts := builtFrom_of_build built
    have policy := ranking_leastLoadPops parts
    obtain ⟨healthy, healthyToo, zero, minusZero⟩ : course.loop.store.state.isHealthyAt 0 = true ∧
        course.loop.store.state.isHealthyAt 1 = true ∧
        course.loop.store.state.loadAt 0 = some .zero ∧
        course.loop.store.state.loadAt 1 = some Binary64.zero.negate := by
      obtain ⟨-, -, ranking, -, rfl⟩ := build_eq_ok built
      cases policy
      decide +kernel
    refine parts.tieReversed (parts.shaped_run _ _ _) (by decide) healthy healthyToo ?_
    rw [policy]
    exact ⟨zero, minusZero⟩
  · obtain ⟨engine, built⟩ := build_twoPops
    refine ⟨engine, built, ?_⟩
    intro course
    have parts := builtFrom_of_build built
    obtain ⟨healthy, healthyToo, zeros⟩ : course.loop.store.state.isHealthyAt 0 = true ∧
        course.loop.store.state.isHealthyAt 1 = true ∧
        RankingPolicy.lowestLatency.Overtakes course.loop.store.state (some 0) 0 1 := by
      simp only [course, parts.plan, parts.store]
      decide +kernel
    refine parts.tieReversed (parts.shaped_run _ _ _) (by decide) healthy healthyToo ?_
    rw [ranking_twoPops parts, resolve_twoPops parts]
    exact zeros

end Engine

end Steering
