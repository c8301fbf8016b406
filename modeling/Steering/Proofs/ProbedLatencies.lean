import Steering.Proofs.BodyFraming
import Steering.Proofs.FailedMeasurement
import Steering.Proofs.RoundingOrder
import Steering.Proofs.UsableTransports
/-! The latencies that probers report: which bodies give one, that it can always be kept, and that it is
committed as it has been reported. -/

namespace Steering

open Refresh (Outcome Reply)

/-- A value that a call ends with has been read from a response. -/
theorem Refresh.Outcome.exists_of_success {ε α : Type} {http : Http.Failure → ε}
    {read : Http.Response → Except ε α} {exchange : Except Http.Failure Http.Response} {value : α}
    (ends : ofExchange http read exchange = .success value) :
    ∃ response, read response = .ok value := by
  cases exchange with
  | error fault => cases ends
  | ok response =>
    cases result : read response with
    | error reason => simp only [ofExchange, result, reduceCtorEq] at ends
    | ok other =>
      simp only [ofExchange, result, success.injEq] at ends
      exact ⟨response, ends ▸ result⟩

namespace ProbeResult

/-! ## The time between two milestones -/

/-- The nanoseconds from the start to the first byte, however many they are. -/
def elapsed (r : ProbeResult) : Int :=
  r.firstByte.toInt - r.start.toInt

/-- Whether the first byte did not come before the start, nor later than 64 bits can tell. -/
def IsConsistent (r : ProbeResult) : Prop :=
  0 ≤ r.elapsed ∧ r.elapsed ≤ 0x7FFFFFFFFFFFFFFF

/-- A difference is told if it is the true one, whichever way it would be too large otherwise. -/
theorem difference?_eq_some_iff (a b d : Int64) :
    difference? a b = some d ↔ d.toInt = a.toInt - b.toInt := by
  have wraps := Int64.toInt_sub a b
  have leastA := a.le_toInt
  have mostA := a.toInt_lt
  have leastB := b.le_toInt
  have mostB := b.toInt_lt
  have leastD := d.le_toInt
  have mostD := d.toInt_lt
  -- What wraps around is off by 2 ^ 64, and then it has the wrong sign.
  rw [difference?, Option.ite_none_right_eq_some, Option.some.injEq, ← Int64.toInt_inj]
  simp only [Int64.lt_iff_toInt_lt, Int64.toInt_zero, decide_eq_decide, wraps, Int.bmod_def]
  omega

variable {r : ProbeResult}

theorem latency_of_isConsistent (consistent : r.IsConsistent) :
    r.latency = .ok ((Binary64.ofInt r.elapsed).div (.ofNat 1000000)) := by
  obtain ⟨least, most⟩ := consistent
  have value : (Int64.ofInt r.elapsed).toInt = r.elapsed :=
    Int64.toInt_ofInt_of_le (by omega) (by omega)
  have told : difference? r.firstByte r.start = some (.ofInt r.elapsed) :=
    (difference?_eq_some_iff _ _ _).mpr value
  have natural : ¬ Int64.ofInt r.elapsed < 0 := by
    rw [Int64.lt_iff_toInt_lt, value]
    exact Int.not_lt.mpr least
  rw [latency, told]
  dsimp only
  rw [if_neg natural, value]

theorem latency_of_not_isConsistent (inconsistent : ¬ r.IsConsistent) :
    r.latency = .error (.inconsistentTimings r.start r.firstByte) := by
  rw [latency]
  cases told : difference? r.firstByte r.start with
  | none => rfl
  | some d =>
    have value : d.toInt = r.elapsed := (difference?_eq_some_iff _ _ _).mp told
    have most := d.toInt_lt
    have negative : d < 0 := by
      rw [Int64.lt_iff_toInt_lt]
      exact Int.not_le.mp fun least => inconsistent ⟨value ▸ least, by omega⟩
    exact if_pos negative

/-! ## What a body gives -/

/-- Whether a number can be kept as a latency and is not minus zero. -/
def IsKept (x : Binary64) : Prop :=
  Refresh.IsLatency x ∧ x.signed = false

theorem isKept_milliseconds {n : Int} (least : 0 ≤ n) (most : n ≤ 0x7FFFFFFFFFFFFFFF) :
    IsKept ((Binary64.ofInt n).div (.ofNat 1000000)) := by
  obtain ⟨n, rfl⟩ := Int.eq_ofNat_of_zero_le least
  have natural : Binary64.ofInt n = .ofNat n := by
    rw [Binary64.ofInt, Int.natAbs_natCast, decide_eq_false (Int.not_lt.mpr least), Binary64.ofNat]
  have finite : ((Binary64.ofNat n).div (.ofNat 1000000)).isFinite = true := by
    have greatest : ((Binary64.ofNat 0x7FFFFFFFFFFFFFFF).div (.ofNat 1000000)).isFinite = true := by
      decide +kernel
    exact Binary64.isFinite_of_le
      (Binary64.div_mono (Binary64.ofNat_mono (by omega)) (by decide +kernel)) greatest
  have unsigned : ((Binary64.ofNat n).div (.ofNat 1000000)).signed = false := by
    rw [Binary64.div, Binary64.signed_ofRatio, Binary64.ofNat, Binary64.ofNat,
      Binary64.signed_ofRatio, Binary64.signed_ofRatio, bne_self_eq_false]
  have number : ((Binary64.ofNat n).div (.ofNat 1000000)).isNaN = false :=
    decide_eq_false (Nat.not_lt.mpr (Nat.le_of_lt (of_decide_eq_true finite)))
  rw [natural]
  refine ⟨⟨finite, ?_⟩, unsigned⟩
  rw [Binary64.isNonneg, number, unsigned]
  rfl

theorem isKept_of_latency {x : Binary64} (told : r.latency = .ok x) : IsKept x := by
  by_cases consistent : r.IsConsistent
  · rw [latency_of_isConsistent consistent, Except.ok.injEq] at told
    exact told ▸ isKept_milliseconds consistent.1 consistent.2
  · rw [latency_of_not_isConsistent consistent] at told
    cases told

/-- Whatever the response, a latency that is read from it can be kept. -/
theorem isKept_of_response {limit : Nat} {response : Http.Response} {x : Binary64}
    (told : latencyOfResponse limit response = .ok x) : IsKept x := by
  rw [latencyOfResponse] at told
  split at told
  · rw [latencyOfBody] at told
    split at told
    · exact isKept_of_latency told
    · cases told
  · cases told

/-- What a measurement comes to, given the body in which the prober has reported. -/
structure Settles (body : List UInt8) (outcome : Outcome MeasureFailure Binary64) : Prop where
  success : ∀ x, outcome = .success x ↔ ∃ r, decode body = .ok r ∧ r.IsConsistent ∧
    x = (Binary64.ofInt r.elapsed).div (.ofNat 1000000)
  inconsistent : ∀ start firstByte,
    outcome = .failure (.inconsistentTimings start firstByte) ↔
      ∃ r, decode body = .ok r ∧ ¬ r.IsConsistent ∧ r.start = start ∧ r.firstByte = firstByte
  malformed : (∃ detail, outcome = .failure (.malformed detail)) ↔ ∀ r, decode body ≠ .ok r
  kept : ∀ x, outcome = .success x → IsKept x

variable {limit : Nat} {response : Http.Response}

/-- A report that comes whole is settled by its body. -/
theorem settles_response (range : 200 ≤ response.code ∧ response.code ≤ 299)
    (fits : response.arrived.length ≤ limit) (complete : response.complete = true) :
    Settles response.arrived (.ofExchange .http (latencyOfResponse limit) (.ok response)) := by
  have accepted : response.accept limit = .ok response.arrived :=
    ((response.classified_accept limit).accepted _).mpr ⟨range, fits, complete, rfl⟩
  rw [Outcome.ofExchange, latencyOfResponse, accepted]
  dsimp only
  rw [latencyOfBody]
  cases decoded : decode response.arrived with
  | error fault => constructor <;> simp [decoded]
  | ok r =>
    dsimp only
    by_cases consistent : r.IsConsistent
    · have kept := isKept_of_latency (latency_of_isConsistent consistent)
      rw [latency_of_isConsistent consistent]
      constructor <;> simp [decoded, consistent, kept, eq_comm]
    · rw [latency_of_not_isConsistent consistent]
      constructor <;> simp [decoded, consistent]

end ProbeResult

namespace Engine

open Refresh ProbeResult

/-- What the measurements of an engine with its own probers come to, if it starts so and some events
happen. -/
structure ProbedLatencies (engine : Engine) (carrier : Http.Carrier) (t : Transports) (start : Course)
    (events : List (Nat × Event)) : Prop where
  /-- A report that comes whole within a limit settles what is made of it. -/
  reported : ∀ limit response, 200 ≤ response.code ∧ response.code ≤ 299 →
    response.arrived.length ≤ limit → response.complete = true →
      Settles response.arrived (.ofExchange .http (latencyOfResponse limit) (.ok response))
  /-- So does one that the prober of a region sends for a measurement. -/
  settled : ∀ asked region endpoint prober route response,
    engine.probers[region]? = some prober → (prober.request endpoint).route = .ok route →
    (carrier asked (prober.request endpoint)).2 = .ok response →
    200 ≤ response.code ∧ response.code ≤ 299 →
    response.arrived.length ≤ Http.defaultBodyLimit → response.complete = true →
      Settles response.arrived (t.measure asked region endpoint).outcome
  /-- No value that a measurement ends with is ever turned down. -/
  valid : ∀ elapsed event actor phase region place x,
    ((start.run t engine.plan events).wait elapsed).LooksAt t engine.plan event actor phase →
    phase.EndsCall t engine.plan ((start.run t engine.plan events).clock + elapsed)
      (.measurement region place (.success x)) →
    IsKept x ∧ latencyOf (.success x) = some x
  /-- It is committed as it is. -/
  committed : ∀ done actor region place x moment latencies later,
    start.EndedBefore t engine.plan events done actor (.measurement region place (.success x)) →
    (start.run t engine.plan events).history =
      done ++ ⟨actor, moment, .committed (.latency region latencies)⟩ :: later →
    IsKept x ∧ latencies[place]? = some x

section Transports

variable {engine : Engine} {statusPort : Nat} (carrier : Http.Carrier)

theorem settles_measure {asked region : Nat} {endpoint : String} {prober : Prober}
    {route : Net.Uri × String} {response : Http.Response}
    (found : engine.probers[region]? = some prober)
    (made : (prober.request endpoint).route = .ok route)
    (came : (carrier asked (prober.request endpoint)).2 = .ok response)
    (range : 200 ≤ response.code ∧ response.code ≤ 299)
    (fits : response.arrived.length ≤ Http.defaultBodyLimit) (complete : response.complete = true) :
    Settles response.arrived
      ((engine.ownTransports statusPort carrier).measure asked region endpoint).outcome := by
  have exchange : (carrier.exchange asked (prober.request endpoint)).2 = .ok response := by
    rw [Http.Carrier.exchange, made]
    dsimp only
    rw [came]
    rfl
  simp only [ownTransports, found, Reply.ofExchange, exchange]
  exact settles_response range fits complete

/-- Whatever comes back, a value that a measurement ends with can be kept. -/
theorem isKept_measure (asked region : Nat) (endpoint : String) {x : Binary64}
    (measured : ((engine.ownTransports statusPort carrier).measure asked region endpoint).outcome =
      .success x) : IsKept x := by
  simp only [ownTransports] at measured
  split at measured
  · obtain ⟨response, told⟩ := Outcome.exists_of_success measured
    exact isKept_of_response told
  · cases measured

section Run

variable {heard : List Arrival} {engine : Engine} {statusPort : Nat} {carrier : Http.Carrier}
  (expected : ∀ arrival ∈ heard, engine.Expects statusPort arrival)
include expected

theorem isKept_of_origin {region place : Nat} {outcome : Outcome MeasureFailure Binary64}
    (origin : (CallEnd.measurement region place outcome).Origin
      (engine.ownTransports statusPort carrier) engine.plan heard) {x : Binary64}
    (measured : outcome = .success x) : IsKept x := by
  obtain ⟨-, other, asked, endpoint, same | ⟨-, late⟩⟩ := reply_of_origin carrier expected origin
  · exact isKept_measure other asked region endpoint (same.symm.trans measured)
  · cases late.symm.trans measured

end Run

end Transports

section Course

variable {engine : Engine} {statusPort : Nat} {carrier : Http.Carrier} {first : Store} {start : Course}
  (fits : engine.plan.Fits first)
  (sound : start.Sound (engine.ownTransports statusPort carrier) engine.plan first)
  (silent : start.heard = [])
include fits sound silent

/-- A value that a measurement ends with after some events can be kept. -/
theorem isKept_of_looks {events : List (Nat × Event)}
    (expected : ∀ elapsed arrival, (elapsed, .arrive arrival) ∈ events →
      engine.Expects statusPort arrival)
    {elapsed : Nat} {event : Event} {actor : Actor} {phase : Phase} {region place : Nat} {x : Binary64}
    (looks : ((start.run (engine.ownTransports statusPort carrier) engine.plan events).wait
      elapsed).LooksAt (engine.ownTransports statusPort carrier) engine.plan event actor phase)
    (ends : phase.EndsCall (engine.ownTransports statusPort carrier) engine.plan
      ((start.run (engine.ownTransports statusPort carrier) engine.plan events).clock + elapsed)
      (.measurement region place (.success x))) : IsKept x := by
  obtain ⟨seen, ready⟩ := looks.ready (Course.sound_run fits sound events)
  refine isKept_of_origin (fun arrival told => ?_) (ready.origin ends) rfl
  rcases Course.heard_run told with before | ⟨elapsed, among⟩
  · rw [silent] at before
    cases before
  · exact expected elapsed arrival among

end Course

section Built

variable {config : Config} {names : Net.NameService} {engine : Engine}
  (built : build config true names = .ok engine)
  (carrier : Http.Carrier) (earlier : List Commit) (channel : Shutdown.Channel)
include built

/-- What the probers report is settled by their reports, never turned down and committed as it is. -/
theorem probed_latencies (events : List (Nat × Event))
    (expected : ∀ elapsed arrival, (elapsed, .arrive arrival) ∈ events →
      engine.Expects config.refresh.statusPort.toNat arrival) :
    ProbedLatencies engine carrier
      (engine.ownTransports config.refresh.statusPort.toNat carrier)
      (Course.start (engine.store.replay earlier) channel) events := by
  have fits := (builtFrom_of_build built).fits earlier
  have starts : (Course.start (engine.store.replay earlier) channel).Sound
      (engine.ownTransports config.refresh.statusPort.toNat carrier) engine.plan
      (engine.store.replay earlier) := Course.sound_start _ channel
  constructor
  · intro limit response range few complete
    exact settles_response range few complete
  · intro asked region endpoint prober route response found made came range few complete
    exact settles_measure carrier found made came range few complete
  · intro elapsed event actor phase region place x looks ends
    have kept := isKept_of_looks fits starts rfl expected looks ends
    exact ⟨kept, latencyOf_of_isLatency kept.1⟩
  · intro done actor region place x moment latencies later ended history
    have kept : IsKept x := by
      obtain ⟨split, looks, ends, -, -⟩ := ended
      refine isKept_of_looks fits starts rfl (fun elapsed arrival among => ?_) looks ends
      exact expected elapsed arrival (split ▸ List.mem_append_left _ among)
    refine ⟨kept, ?_⟩
    cases ended.in_next_commit fits starts history rfl with
    | latency its found =>
      rw [latencyOf_of_isLatency kept.1] at its
      cases its
      exact found

end Built

/-- The commit of a refresh by hand of two PoPs that are both a millisecond away. -/
def bothReached : Deed :=
  ⟨.byHand 0, 0, .committed (.latency 0 [.ofNat 1, .ofNat 1])⟩

/-- Both measurements of two PoPs give the millisecond that is reported, and it is committed. -/
theorem probed_latencies_twoPops : ∃ engine, build twoPops true = .ok engine ∧
    let t := engine.ownTransports twoPops.refresh.statusPort.toNat answering
    let start := Course.start (engine.store.replay []) .initial
    (start.run t engine.plan [(0, .beginLatency)]).history = bothMeasured ++ bothReached :: [] ∧
    start.EndedBefore t engine.plan [(0, .beginLatency)] bothMeasured (.byHand 0)
      (.measurement 0 1 (.success (.ofNat 1))) ∧
    IsKept (.ofNat 1) ∧
    Settles (Text.encode "\x7b\"start\":0,\"first_byte\":1000000\x7d")
      (t.measure 0 0 "http://192.0.2.2/latencyz").outcome := by
  obtain ⟨engine, built⟩ := build_twoPops
  refine ⟨engine, built, ?_⟩
  have latencies := probed_latencies built answering [] .initial [(0, .beginLatency)] (by
    intro elapsed arrival member
    cases List.mem_singleton.mp member)
  obtain ⟨prober, uri, authority, found, -, -, -, -, route⟩ := @prober_of_build _ _ _ built 0 _ rfl
  have made : (prober.request "http://192.0.2.2/latencyz").route = .ok (uri, authority) :=
    (route _).trans (if_pos (by decide +kernel))
  have settled := latencies.settled 0 0 _ _ _ _ found made rfl (by decide) (by decide +kernel) rfl
  rw [Http.Response.arrived, List.flatten_singleton] at settled
  have policy := (builtFrom_of_build built).lowestLatency rfl
  obtain ⟨-, -, ranking, -, rfl⟩ := build_eq_ok built
  cases policy
  intro t start
  have history : (start.run t (planOf twoPops) [(0, .beginLatency)]).history =
      bothMeasured ++ bothReached :: [] := by
    decide +kernel
  have ended : start.EndedBefore t (planOf twoPops) [(0, .beginLatency)] bothMeasured (.byHand 0)
      (.measurement 0 1 (.success (.ofNat 1))) := by
    refine @Course.EndedBefore.intro _ _ _ _ _ _ _ [] [] 0 _ _ bothMeasured rfl .beginsLatency
      ⟨_, rfl, .begins (.later ⟨?_, ?_⟩ (.here ?_ ?_))⟩ rfl ?_
    · decide +kernel
    · decide +kernel
    · decide +kernel
    · decide +kernel
    · simp [bothMeasured]
  exact ⟨history, ended, (latencies.committed _ _ _ _ _ _ _ _ ended history).1, settled⟩

end Engine

end Steering
