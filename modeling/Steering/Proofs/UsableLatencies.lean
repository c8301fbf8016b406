import Steering.Dashboard.Routes
import Steering.Proofs.CommitOrigins
import Steering.Proofs.FailedMeasurement
import Steering.Proofs.SortedKeys
/-! Whatever the probers report, the latencies that an engine keeps are finite and not negative, so that
they can all be shown and compared. -/

namespace Steering

namespace Refresh

variable {t : Responder} {plan : Plan} {heard : List Arrival} {seen : List (Nat × Entry)}

theorem isLatency_initialLatency : IsLatency initialLatency := by decide +kernel

theorem isLatency_unreachableLatency : IsLatency unreachableLatency := by decide +kernel

theorem IsLatency.not_isNaN {x : Binary64} (usable : IsLatency x) : x.isNaN = false := by
  have below := of_decide_eq_true usable.1
  exact decide_eq_false (Nat.not_lt.mpr (Nat.le_of_lt below))

/-- A measurement gives the latency that stands for a failed one, or its value, which is usable. -/
theorem latencyOf_eq_some {outcome : Outcome MeasureFailure Binary64} {latency : Binary64}
    (accepted : latencyOf outcome = some latency) :
    latency = unreachableLatency ∨ outcome = .success latency ∧ IsLatency latency := by
  cases outcome with
  | success x =>
    by_cases usable : IsLatency x
    · rw [latencyOf_of_isLatency usable, Option.some.injEq] at accepted
      exact .inr (accepted ▸ ⟨rfl, usable⟩)
    · rw [latencyOf_of_fails (.value usable), Option.some.injEq] at accepted
      exact .inl accepted.symm
  | failure reason => exact .inl (Option.some.inj accepted).symm
  | crash => cases accepted

section Pass

variable {region began deadline last : Nat} {endpoints : List String} {latencies : List Binary64}
  (pass : Measurements t heard seen region began deadline endpoints latencies last)
include pass

theorem Measurements.began_le : began ≤ last := by
  induction pass with
  | none => exact Nat.le_refl _
  | next _ later _ _ ih => exact Nat.le_trans ih later

/-- The latency at each place of a pass comes from a measurement of the endpoint at this place. -/
theorem Measurements.entry {place : Nat} {endpoint : String}
    (found : endpoints[place]? = some endpoint) :
    ∃ x asked outcome, latencies[place]? = some x ∧ began ≤ asked ∧
      Measured t heard seen region deadline asked place endpoint outcome ∧
      latencyOf outcome = some x := by
  induction pass with
  | none => cases found
  | next before later measured accepted ih =>
    -- The newest latency stands at the end, so the place is an earlier one or the last.
    have length := before.length_eq
    rename_i endpoints latencies last asked newest outcome latency
    by_cases earlier : place < endpoints.length
    · rw [List.getElem?_append_left earlier] at found
      obtain ⟨x, asked, outcome, held, rest⟩ := ih found
      refine ⟨x, asked, outcome, ?_, rest⟩
      rw [List.getElem?_append_left (length ▸ earlier)]
      exact held
    · have bound := (List.getElem?_eq_some_iff.mp found).1
      have final : place = endpoints.length := by
        rw [List.length_append, List.length_singleton] at bound
        omega
      rw [final, List.getElem?_concat_length, Option.some.injEq] at found
      rw [final, ← length, List.getElem?_concat_length, ← found]
      exact ⟨latency, asked, outcome, rfl, Nat.le_trans before.began_le later, measured, accepted⟩

theorem Measurements.isLatency : ∀ x ∈ latencies, IsLatency x := by
  induction pass with
  | none => nofun
  | next before later measured accepted ih =>
    intro x member
    rcases List.mem_append.mp member with old | new
    · exact ih x old
    · rw [List.mem_singleton.mp new]
      rcases latencyOf_eq_some accepted with same | ⟨-, usable⟩
      · exact same ▸ isLatency_unreachableLatency
      · exact usable

end Pass

end Refresh

namespace Engine

open Refresh

section Views

variable {engine : Engine} {view : List (String × Binary64)}

/-- What a view shows is kept for some region. -/
theorem kept_of_latencyToPop {popId : String} (shown : engine.latencyToPop? popId = some view)
    {entry : String × Binary64} (member : entry ∈ view) :
    ∃ latency ∈ engine.store.state.regionLatency, entry.2 ∈ latency := by
  obtain ⟨place, located, made⟩ := Option.bind_eq_some_iff.mp shown
  rw [← Option.some.inj made] at member
  obtain ⟨⟨region, latency⟩, paired, found⟩ := List.mem_filterMap.mp (mem_of_mem_sortByKey member)
  obtain ⟨x, here, rfl⟩ := Option.map_eq_some_iff.mp found
  exact ⟨latency, (List.of_mem_zip paired).2, List.mem_of_getElem? here⟩

theorem kept_of_latencyToRegion {regionId : String}
    (shown : engine.latencyToRegion? regionId = some view) {entry : String × Binary64}
    (member : entry ∈ view) : ∃ latency ∈ engine.store.state.regionLatency, entry.2 ∈ latency := by
  obtain ⟨index, located, rest⟩ := Option.bind_eq_some_iff.mp shown
  obtain ⟨latency, vector, made⟩ := Option.bind_eq_some_iff.mp rest
  rw [← Option.some.inj made] at member
  obtain ⟨⟨pop, x⟩, paired, rfl⟩ := List.mem_map.mp (mem_of_mem_sortByKey member)
  exact ⟨latency, List.mem_of_getElem? vector, (List.of_mem_zip paired).2⟩

end Views

/-- A page for finite latencies shows numbers, if it is not a refusal. -/
theorem latencyPage_of_finite {latencies : Option (List (String × Binary64))} (refusal : String)
    (finite : ∀ view, latencies = some view → ∀ entry ∈ view, entry.2.isFinite = true) :
    (∃ code text, Dashboard.latencyPage latencies refusal = .message code text) ∨
    ∃ entries : List (String × Binary64), (∀ entry ∈ entries, entry.2.isFinite = true) ∧
      Dashboard.latencyPage latencies refusal =
        .document (.object (entries.map fun (id, x) => (id, .number (.float x)))) := by
  cases latencies with
  | none => exact .inl ⟨400, refusal, rfl⟩
  | some view =>
    have numbers := finite view rfl
    refine .inr ⟨view, numbers, ?_⟩
    have same : (view.map fun (id, x) => (id, Json.Value.double x)) =
        view.map fun (id, x) => (id, .number (.float x)) := by
      refine List.map_congr_left fun entry member => ?_
      have number := numbers entry member
      simp only [Json.Value.double, number, if_true]
    rw [Dashboard.latencyPage, Dashboard.latencyDocument, same]

section Kept

variable {engine : Engine}
  (numbers : ∀ latency ∈ engine.store.state.regionLatency, ∀ x ∈ latency, IsLatency x)
include numbers

/-- When all latencies that are kept are finite, a page for latencies shows numbers or refuses. -/
theorem answer_of_numbers (files : Option FileTree) (method : String) {target : String}
    {uri : Net.Uri} (parsed : Net.Uri.parse target = .ok uri)
    (path : (Dashboard.Target.ofUri uri).path ∈ ["/latency_to_pop", "/latency_to_region"]) :
    (∃ code text, Dashboard.answer engine files method target = .message code text) ∨
    ∃ entries : List (String × Binary64), (∀ entry ∈ entries, entry.2.isFinite = true) ∧
      Dashboard.answer engine files method target =
        .document (.object (entries.map fun (id, x) => (id, .number (.float x)))) := by
  have finite {view : List (String × Binary64)}
      (kept : ∀ entry ∈ view, ∃ latency ∈ engine.store.state.regionLatency, entry.2 ∈ latency) :
      ∀ entry ∈ view, entry.2.isFinite = true := by
    intro entry member
    obtain ⟨latency, stored, inside⟩ := kept entry member
    exact (numbers latency stored _ inside).1
  rw [Dashboard.answer, parsed]
  by_cases reads : method = "GET" ∨ method = "HEAD"
  · simp only [reads, if_true, Dashboard.page]
    simp only [List.mem_cons, List.not_mem_nil, or_false] at path
    rcases path with same | same
    · rw [same]
      exact latencyPage_of_finite _ fun view shown =>
        finite fun entry member => kept_of_latencyToPop shown member
    · rw [same]
      exact latencyPage_of_finite _ fun view shown =>
        finite fun entry member => kept_of_latencyToRegion shown member
  · simp only [reads, if_false]
    exact .inl ⟨405, "GET only", rfl⟩

theorem not_isNaN_of_candidate {region : Option Nat} {candidate : Candidate}
    (member : candidate ∈ candidates engine.store.state region) {x : Binary64}
    (measured : x ∈ candidate.latency) : x.isNaN = false := by
  obtain ⟨status, -, same⟩ := mem_candidates_iff.mp member
  rw [same] at measured
  obtain ⟨index, -, found⟩ := Option.bind_eq_some_iff.mp measured
  obtain ⟨latency, vector, here⟩ := Option.bind_eq_some_iff.mp found
  exact (numbers latency (List.mem_of_getElem? vector) x (List.mem_of_getElem? here)).not_isNaN

end Kept

/-- What the latencies of an engine are at an instant of its history, and what is made of them. -/
structure UsableLatencies (t : Responder) (config : Config) (heard : List Arrival)
    (history seen : List Deed) (engine : Engine) : Prop where
  /-- All of them are finite and not negative. -/
  numbers : ∀ latency ∈ engine.store.state.regionLatency, ∀ x ∈ latency, IsLatency x
  /-- Those of a region that has committed nothing are the first ones. -/
  untouched : ∀ region < config.regions.length,
    (∀ deed ∈ seen, ∀ latencies, deed.entry ≠ .committed (.latency region latencies)) →
    engine.store.regionLatency? region =
      some (List.replicate config.pops.length initialLatency)
  /-- Those of any other region are those of its latest commit. Each stands for a failed measurement
  or is what the prober of the region said, in the pass that was committed, of the endpoint of the
  PoP. -/
  latest : ∀ done deed later region latencies, seen = done ++ deed :: later →
    deed.entry = .committed (.latency region latencies) →
    (∀ other ∈ later, ∀ others, other.entry ≠ .committed (.latency region others)) →
    ∃ began, LatencyBatch t (heardBy heard deed.actor)
        (deedsBy deed.actor (doneBy deed.moment history)) (planOf config) region began latencies ∧
      ∀ place pop, config.pops[place]? = some pop →
        ∃ x, engine.store.state.latencyAt region place = some x ∧
          (x = unreachableLatency ∨ ∃ asked, began ≤ asked ∧
            Measured t (heardBy heard deed.actor) (deedsBy deed.actor (doneBy deed.moment history))
              region (began + config.refresh.latencyTimeout) asked place pop.latencyEndpointUrl
              (.success x))
  /-- A page of the dashboard for latencies shows numbers, if it is not a refusal. -/
  shown : ∀ files method target uri, Net.Uri.parse target = .ok uri →
    (Dashboard.Target.ofUri uri).path ∈ ["/latency_to_pop", "/latency_to_region"] →
    (∃ code text, Dashboard.answer engine files method target = .message code text) ∨
    ∃ entries : List (String × Binary64), (∀ entry ∈ entries, entry.2.isFinite = true) ∧
      Dashboard.answer engine files method target =
        .document (.object (entries.map fun (id, x) => (id, .number (.float x))))
  /-- A query compares only numbers. -/
  compared : ∀ region, ∀ candidate ∈ candidates engine.store.state region,
    ∀ x ∈ candidate.latency, x.isNaN = false

variable {config : Config} {engine : Engine}

/-- An engine begins with the first latency everywhere. -/
theorem BuiltFrom.regionLatency (built : BuiltFrom config engine) {region : Nat}
    (known : region < config.regions.length) :
    engine.store.regionLatency? region =
      some (List.replicate config.pops.length initialLatency) := by
  rw [built.store, Store.regionLatency?, Store.initial, List.getElem?_replicate, if_pos known]

section History

variable {t : Responder} {heard : List Arrival} {history seen : List Deed} {store : Store}
  (built : BuiltFrom config engine) (logged : Logged t engine.plan engine.store heard history store)
  (part : seen <+: history)
include built logged part

/-- The vector of a region is the first one, or that of a commit that has been made. -/
theorem regionLatency_stateAfter (region : Nat) :
    (stateAfter engine.store seen).regionLatency? region = engine.store.regionLatency? region ∨
      ∃ deed ∈ seen, ∃ latencies, deed.entry = .committed (.latency region latencies) ∧
        (∃ began, LatencyBatch t (heardBy heard deed.actor) (deedsBy deed.actor history) engine.plan
          region began latencies) ∧
        (stateAfter engine.store seen).regionLatency? region = some latencies := by
  have shaped := (built.fits []).shaped
  rcases shaped.regionLatency_replay (commits (seen.map Deed.entry)) region with
    same | ⟨latencies, made, -, its⟩
  · exact .inl same
  · obtain ⟨deed, member, committed⟩ := List.mem_map.mp (mem_commits.mp made)
    obtain ⟨-, batch⟩ := logged.whole deed (part.subset member) _ committed
    exact .inr ⟨deed, member, latencies, committed, batch, its⟩

theorem isLatency_stateAfter :
    ∀ latency ∈ (stateAfter engine.store seen).state.regionLatency, ∀ x ∈ latency,
      IsLatency x := by
  intro latency member x inside
  obtain ⟨region, vector⟩ := List.mem_iff_getElem?.mp member
  rcases regionLatency_stateAfter built logged part region with
    same | ⟨deed, -, latencies, -, ⟨began, last, pass⟩, its⟩
  · have shaped := (built.shaped_replay (commits (seen.map Deed.entry))).regions
    have known : region < config.regions.length := by
      rw [← shaped]
      exact (List.getElem?_eq_some_iff.mp vector).1
    rw [built.regionLatency known] at same
    cases vector.symm.trans same
    rw [List.eq_of_mem_replicate inside]
    exact isLatency_initialLatency
  · cases vector.symm.trans its
    exact pass.isLatency x inside

end History

end Engine

end Steering
