import Steering.Proofs.Delivery
import Steering.Proofs.MagnitudeOrder
import Steering.Proofs.RankedPlaces
/-! What a failed measurement comes to: the latency that stands for it, which puts the PoP behind every
one whose latency is less. -/

namespace Steering

open Binary64

theorem numerator_unreachableLatency :
    unreachableLatency.numerator = 20000000 * unreachableLatency.denominator := by decide +kernel

theorem unreachableLatency_lt_iff (x : Binary64) :
    unreachableLatency.magnitude < x.magnitude ↔ 20000000 * x.denominator < x.numerator := by
  rw [magnitude_lt_iff, numerator_unreachableLatency, Nat.mul_right_comm,
    Nat.mul_lt_mul_right unreachableLatency.denominator_pos]

theorem lt_unreachableLatency_iff (x : Binary64) :
    x.magnitude < unreachableLatency.magnitude ↔ x.numerator < 20000000 * x.denominator := by
  rw [magnitude_lt_iff, numerator_unreachableLatency, Nat.mul_right_comm,
    Nat.mul_lt_mul_right unreachableLatency.denominator_pos]

namespace Refresh

/-- A number is accepted as a latency when it is finite and not negative. -/
def IsLatency (x : Binary64) : Prop :=
  x.isFinite = true ∧ x.isNonneg = true

instance (x : Binary64) : Decidable (IsLatency x) :=
  inferInstanceAs (Decidable (_ ∧ _))

/-- How a measurement fails: it gives no number, or one that is not accepted. -/
inductive Fails : Outcome MeasureFailure Binary64 → Prop
  | failure (reason : MeasureFailure) : Fails (.failure reason)
  | value {x : Binary64} (refused : ¬ IsLatency x) : Fails (.success x)

theorem latencyOf_of_fails {outcome : Outcome MeasureFailure Binary64} (fails : Fails outcome) :
    latencyOf outcome = some unreachableLatency := by
  cases fails with
  | failure reason => rfl
  | value refused =>
    have not_both := mt Bool.and_eq_true_iff.mp refused
    simp only [latencyOf, if_neg not_both]

theorem latencyOf_of_isLatency {x : Binary64} (accepted : IsLatency x) :
    latencyOf (.success x) = some x := by
  simp only [latencyOf, if_pos (Bool.and_eq_true_iff.mpr accepted)]

/-- The place of an accepted latency in the total order against that of a failed measurement. -/
theorem IsLatency.orderKey {x : Binary64} (accepted : IsLatency x) :
    (unreachableLatency.orderKey < x.orderKey ↔ 20000000 * x.denominator < x.numerator) ∧
    (unreachableLatency.orderKey = x.orderKey ↔ x.numerator = 20000000 * x.denominator) := by
  have above := unreachableLatency_lt_iff x
  have below := lt_unreachableLatency_iff x
  have key : unreachableLatency.orderKey = unreachableLatency.magnitude := by decide +kernel
  have positive : 0 < unreachableLatency.magnitude := by decide +kernel
  rw [key]
  generalize unreachableLatency.magnitude = bound at above below positive
  have same : bound = x.magnitude ↔ x.numerator = 20000000 * x.denominator := by omega
  rw [← above, ← same, Binary64.orderKey]
  split
  · -- Of the numbers with a sign only zero is accepted.
    have zero : x.magnitude = 0 := by
      have nonneg := accepted.2
      simp_all [isNonneg]
    omega
  · omega

/-- Measurements of the first of two PoPs fail, and others give a number at once. -/
def Responder.reachingSecond (x : Binary64) : Responder where
  fetch _ _ _ := ⟨some 0, .failure .deadlineExceeded⟩
  measure _ _ place _ := ⟨some 0, if place = 0 then .failure .deadlineExceeded else .success x⟩

end Refresh

namespace Engine

open Refresh

section Latencies

variable {engine : Engine} {pops regions region place other : Nat} {one two : Binary64}

theorem query_of_resolve {client : Net.Address}
    (resolves : engine.table.resolve? client = some region) :
    engine.query client = (engine.places (some region)).filterMap fun place =>
      engine.pops[place]?.map (·.ip4) := by
  rw [query_eq_places, resolves]

/-- By latency, of two healthy PoPs the nearer comes first, and the earlier if they are as near. -/
theorem sublist_places_of_latency (policy : engine.ranking = .lowestLatency)
    (shaped : engine.store.Shaped pops regions) (known : region < regions)
    (healthy : engine.store.state.isHealthyAt place = true)
    (healthyToo : engine.store.state.isHealthyAt other = true)
    (first : engine.store.state.latencyAt region place = some one)
    (second : engine.store.state.latencyAt region other = some two) :
    [place, other].Sublist (engine.places (some region)) ↔
      one.orderKey < two.orderKey ∨ one.orderKey = two.orderKey ∧ place < other := by
  have inside : ∀ index ∈ some region, index < regions := by
    rintro index ⟨⟩
    exact known
  rw [sublist_places_iff shaped inside healthy healthyToo, policy]
  simp [RankingPolicy.Precedes, RankingPolicy.key, first, second]

end Latencies

/-- By latency, of two healthy PoPs one whose measurement failed comes before one whose measurement was
accepted only if the accepted latency is more than 20000000 milliseconds, or just as much and the other
PoP is the earlier one. This holds in every state with the latencies of the pass, and so until the next
commit for the region. -/
theorem failed_measurement {config : Config} {ownProbers : Bool} {names : Net.NameService}
    {engine : Engine} (built : build config ownProbers names = .ok engine)
    (policy : engine.ranking = .lowestLatency)
    (earlier : List Commit) (t : Responder) (channel : Shutdown.Channel)
    (events : List (Nat × Event)) {done later seen : List Deed} {actor : Actor}
    {moment region place other : Nat} {latencies : List Binary64}
    {outcome : Outcome MeasureFailure Binary64} {x : Binary64}
    (failed : (Course.start (engine.store.replay earlier) channel).EndedBefore t engine.plan events
      done actor (.measurement region place outcome)) (fails : Fails outcome)
    (measured : (Course.start (engine.store.replay earlier) channel).EndedBefore t engine.plan events
      done actor (.measurement region other (.success x))) (accepted : IsLatency x)
    (history : ((Course.start (engine.store.replay earlier) channel).run t engine.plan events).history =
      done ++ ⟨actor, moment, .committed (.latency region latencies)⟩ :: later)
    (still : ∀ deed ∈ seen, ∀ others, deed.entry ≠ .committed (.latency region others))
    (store : Store) (shaped : store.Shaped config.pops.length config.regions.length)
    (since : store.regionLatency? region = (stateAfter (engine.store.replay earlier)
      (done ++ ⟨actor, moment, .committed (.latency region latencies)⟩ :: seen)).regionLatency? region)
    (healthy : store.state.isHealthyAt place = true)
    (healthyToo : store.state.isHealthyAt other = true)
    (client : Net.Address) (resolves : engine.table.resolve? client = some region) :
    let current : Engine := { engine with store }
    (current.query client = (current.places (some region)).filterMap fun index =>
      current.pops[index]?.map (·.ip4)) ∧
    ([place, other].Sublist (current.places (some region)) ↔
      20000000 * x.denominator < x.numerator ∨
        x.numerator = 20000000 * x.denominator ∧ place < other) := by
  intro current
  have parts := builtFrom_of_build built
  have fits := parts.fits earlier
  have starts : (Course.start (engine.store.replay earlier) channel).Sound t engine.plan
      (engine.store.replay earlier) := Course.sound_start _ channel
  have logged := (Course.sound_run fits starts events).logged
  obtain ⟨known, vector⟩ := logged.regionLatency_since fits history rfl still
  rw [← since] at vector
  have latencyAt (index : Nat) : store.state.latencyAt region index = latencies[index]? := by
    change (store.regionLatency? region).bind _ = _
    rw [vector]
    rfl
  have unreachable : store.state.latencyAt region place = some unreachableLatency := by
    rw [latencyAt]
    cases failed.in_next_commit fits starts history rfl with
    | latency its found =>
      rw [latencyOf_of_fails fails] at its
      cases its
      exact found
  have reached : store.state.latencyAt region other = some x := by
    rw [latencyAt]
    cases measured.in_next_commit fits starts history rfl with
    | latency its found =>
      rw [latencyOf_of_isLatency accepted] at its
      cases its
      exact found
  obtain ⟨less, same⟩ := accepted.orderKey
  refine ⟨query_of_resolve resolves, ?_⟩
  rw [parts.regionCount] at known
  rw [← less, ← same]
  exact sublist_places_of_latency policy shaped known healthy healthyToo unreachable reached

/-- Both measurements of a refresh by hand of two PoPs and one region. -/
def bothMeasured : List Deed :=
  [⟨.byHand 0, 0, .measured 0 "http://192.0.2.1/latencyz"⟩,
    ⟨.byHand 0, 0, .measured 0 "http://192.0.2.2/latencyz"⟩]

/-- The commit of that refresh when only the second is reached. -/
def secondReached (x : Binary64) : Deed :=
  ⟨.byHand 0, 0, .committed (.latency 0 [unreachableLatency, x])⟩

/-- Records of two PoPs that are both healthy. -/
def bothBlank : List Commit := [.status [.blank, .blank]]

section TwoPops

variable {engine : Engine} (parts : BuiltFrom twoPops engine)
include parts

theorem failed_reachingSecond (x : Binary64) :
    (Course.start (engine.store.replay bothBlank) .initial).EndedBefore (.reachingSecond x) engine.plan
      [(0, .beginLatency)] bothMeasured (.byHand 0)
      (.measurement 0 0 (.failure .deadlineExceeded)) := by
  rw [parts.plan, parts.store]
  refine @Course.EndedBefore.intro _ _ _ _ _ _ _ [] [] 0 _ _ bothMeasured rfl .beginsLatency
    ⟨_, rfl, .begins (.here ?_ ?_)⟩ rfl ?_
  · exact Nat.le_refl _
  · rfl
  · simp [bothMeasured]

theorem measured_reachingSecond (x : Binary64) :
    (Course.start (engine.store.replay bothBlank) .initial).EndedBefore (.reachingSecond x) engine.plan
      [(0, .beginLatency)] bothMeasured (.byHand 0) (.measurement 0 1 (.success x)) := by
  rw [parts.plan, parts.store]
  refine @Course.EndedBefore.intro _ _ _ _ _ _ _ [] [] 0 _ _ bothMeasured rfl .beginsLatency
    ⟨_, rfl, .begins (.later ⟨?_, ?_⟩ (.here ?_ ?_))⟩ rfl ?_
  · exact Nat.le_refl _
  · nofun
  · exact Nat.le_refl _
  · rfl
  · simp [bothMeasured]

theorem history_reachingSecond {x : Binary64} (accepted : IsLatency x) :
    ((Course.start (engine.store.replay bothBlank) .initial).run (.reachingSecond x) engine.plan
      [(0, .beginLatency)]).history = bothMeasured ++ secondReached x :: [] := by
  have number : (if x.isFinite && x.isNonneg then x else unreachableLatency) = x :=
    if_pos (Bool.and_eq_true_iff.mpr accepted)
  have made : ((Course.start ((Store.initial 2 1).replay bothBlank) .initial).run
      (.reachingSecond x) (planOf twoPops) [(0, .beginLatency)]).history = bothMeasured ++
        secondReached (if x.isFinite && x.isNonneg then x else unreachableLatency) :: [] := rfl
  rw [parts.plan, parts.store]
  exact made.trans (by rw [number])

theorem healthy_reachingSecond (x : Binary64) :
    let store := stateAfter (engine.store.replay bothBlank) (bothMeasured ++ secondReached x :: [])
    store.state.isHealthyAt 0 = true ∧ store.state.isHealthyAt 1 = true := by
  rw [parts.store]
  exact ⟨rfl, rfl⟩

theorem ranking_twoPops : engine.ranking = .lowestLatency := by
  have named : RankingPolicy.ofText? twoPops.ranking = some .lowestLatency := by decide +kernel
  exact Option.some.inj (parts.ranking.symm.trans named)

theorem resolve_twoPops : engine.table.resolve? (.v4 (.ofOctets 198 51 100 12)) = some 0 := by
  rw [parts.table]
  decide +kernel

end TwoPops

theorem failed_measurement_twoPops : ∃ engine, build twoPops true = .ok engine ∧
    let store := stateAfter (engine.store.replay bothBlank)
      (bothMeasured ++ secondReached (.ofNat 10) :: [])
    let current := { engine with store }
    current.query (.v4 (.ofOctets 198 51 100 12)) = (current.places (some 0)).filterMap (fun index =>
      current.pops[index]?.map (·.ip4)) ∧
    ¬ [0, 1].Sublist (current.places (some 0)) := by
  obtain ⟨engine, built⟩ := build_twoPops
  have parts := builtFrom_of_build built
  have accepted : IsLatency (.ofNat 10) := by decide +kernel
  obtain ⟨healthy, healthyToo⟩ := healthy_reachingSecond parts (.ofNat 10)
  obtain ⟨answer, order⟩ := failed_measurement built (ranking_twoPops parts) bothBlank
    (.reachingSecond (.ofNat 10)) .initial [(0, .beginLatency)] (failed_reachingSecond parts _)
    (.failure _) (measured_reachingSecond parts _) accepted (history_reachingSecond parts accepted)
    (List.forall_mem_nil _) _ ((parts.shaped_replay bothBlank).replay _) rfl healthy healthyToo _
    (resolve_twoPops parts)
  exact ⟨engine, built, answer, mt order.mp (by decide +kernel)⟩

/-- A PoP that is reached after more than 20000000 milliseconds comes behind one that is not reached. -/
theorem failed_measurement_first : ∃ engine, build twoPops true = .ok engine ∧
    engine.ranking = .lowestLatency ∧ IsLatency (.ofNat 30000000) ∧
    let start := Course.start (engine.store.replay bothBlank) .initial
    let t : Responder := .reachingSecond (.ofNat 30000000)
    start.EndedBefore t engine.plan [(0, .beginLatency)] bothMeasured (.byHand 0)
      (.measurement 0 0 (.failure .deadlineExceeded)) ∧
    start.EndedBefore t engine.plan [(0, .beginLatency)] bothMeasured (.byHand 0)
      (.measurement 0 1 (.success (.ofNat 30000000))) ∧
    (start.run t engine.plan [(0, .beginLatency)]).history =
      bothMeasured ++ secondReached (.ofNat 30000000) :: [] ∧
    let store := stateAfter (engine.store.replay bothBlank)
      (bothMeasured ++ secondReached (.ofNat 30000000) :: [])
    store.state.isHealthyAt 0 = true ∧ store.state.isHealthyAt 1 = true ∧
    [.ofOctets 192 0 2 1, .ofOctets 192 0 2 2].Sublist
      ({ engine with store }.query (.v4 (.ofOctets 198 51 100 12))) := by
  obtain ⟨engine, built⟩ := build_twoPops
  have parts := builtFrom_of_build built
  have accepted : IsLatency (.ofNat 30000000) := by decide +kernel
  refine ⟨engine, built, ranking_twoPops parts, accepted, failed_reachingSecond parts _,
    measured_reachingSecond parts _, history_reachingSecond parts accepted, ?_⟩
  intro store
  obtain ⟨healthy, healthyToo⟩ := healthy_reachingSecond parts (.ofNat 30000000)
  refine ⟨healthy, healthyToo, ?_⟩
  let current : Engine := { engine with store }
  have policy : current.ranking = .lowestLatency := @ranking_twoPops engine parts
  have resolves : current.table.resolve? (.v4 (.ofOctets 198 51 100 12)) = some 0 :=
    @resolve_twoPops engine parts
  have shaped : current.store.Shaped 2 1 := (parts.shaped_replay bothBlank).replay _
  have latencies : current.store.state.latencyAt 0 0 = some unreachableLatency ∧
      current.store.state.latencyAt 0 1 = some (.ofNat 30000000) := by
    simp only [current, store, parts.store]
    exact ⟨rfl, rfl⟩
  have before : [0, 1].Sublist (current.places (some 0)) := by
    refine (sublist_places_of_latency policy shaped (by decide) healthy healthyToo latencies.1
      latencies.2).mpr (.inl ?_)
    decide +kernel
  have answered := before.filterMap fun index => current.pops[index]?.map (·.ip4)
  have pops : current.pops = twoPops.pops := parts.pops
  rw [← query_of_resolve resolves, pops] at answered
  exact answered

end Engine

end Steering
