import Steering.Engine.Transports
import Steering.Proofs.AcceptedEntries
import Steering.Proofs.CallOrigins
import Steering.Proofs.WellFormedRequests
/-! The own transports of an engine that has been built with them: whether a request can be made never
depends on a PoP or a region, but only on whether the secret may stand in a header. -/

namespace Steering

namespace Http

/-- A body is never the reason why a request could not be made. -/
theorem collect_ne_request (limit : Nat) (complete : Bool) (room : Nat) (frames : List (List UInt8))
    (detail : String) : collect limit complete room frames ≠ .error (.request detail) := by
  induction frames generalizing room with
  | nil =>
    rw [collect]
    split <;> exact nofun
  | cons frame frames ih =>
    rw [collect]
    split
    · exact nofun
    · cases later : collect limit complete (room - frame.length) frames with
      | ok body => exact nofun
      | error failure =>
        intro same
        cases same
        exact ih (room - frame.length) later

theorem Response.accept_ne_request (limit : Nat) (response : Response) (detail : String) :
    response.accept limit ≠ .error (.request detail) := by
  rw [accept]
  split
  · exact collect_ne_request limit response.complete limit response.frames detail
  · exact nofun

variable {request : Request}

theorem Carrier.exchange_of_error {failure : Failure} (refused : request.route = .error failure)
    (carrier : Carrier) (now : Nat) : carrier.exchange now request = (some 0, .error failure) := by
  rw [exchange, refused]

/-- A request that can be made is carried, and what fails then is not its making. -/
theorem Carrier.exchange_ne_request {route : Net.Uri × String} (made : request.route = .ok route)
    (carrier : Carrier) (now : Nat) (detail : String) :
    (carrier.exchange now request).2 ≠ .error (.request detail) := by
  rw [exchange, made]
  obtain ⟨delay, result⟩ := carrier now request
  cases result <;> exact nofun

end Http

theorem PopStatus.ofResponse_ne_request (limit : Nat) (response : Http.Response)
    (detail : String) : ofResponse limit response ≠ .error (.http (.request detail)) := by
  rw [ofResponse]
  cases accepted : response.accept limit with
  | ok body =>
    change ofBody body ≠ _
    rw [ofBody]
    split <;> exact nofun
  | error failure =>
    intro same
    cases same
    exact response.accept_ne_request limit detail accepted

theorem ProbeResult.latencyOfResponse_ne_request (limit : Nat) (response : Http.Response)
    (detail : String) : latencyOfResponse limit response ≠ .error (.http (.request detail)) := by
  rw [latencyOfResponse]
  cases accepted : response.accept limit with
  | ok body =>
    change latencyOfBody body ≠ _
    rw [latencyOfBody]
    split
    · rw [latency]
      split
      · split <;> exact nofun
      · exact nofun
    · exact nofun
  | error failure =>
    intro same
    cases same
    exact response.accept_ne_request limit detail accepted

namespace Refresh

/-- A call fails for a reason only if its exchange does or the response is read so. -/
theorem Outcome.ofExchange_ne_failure {ε α : Type} {http : Http.Failure → ε}
    {read : Http.Response → Except ε α} {exchange : Except Http.Failure Http.Response} {reason : ε}
    (carried : ∀ fault, exchange = .error fault → http fault ≠ reason)
    (unread : ∀ response, read response ≠ .error reason) :
    ofExchange http read exchange ≠ .failure reason := by
  intro failed
  cases exchange with
  | error fault => exact carried fault rfl (Outcome.failure.inj failed)
  | ok response =>
    cases result : read response with
    | ok value => simp only [ofExchange, result, reduceCtorEq] at failed
    | error other =>
      simp only [ofExchange, result, Outcome.failure.injEq] at failed
      exact unread response (failed ▸ result)

/-- A call comes to what it is replied, or it is given up. What is replied at once always counts. -/
theorem Reply.outcome_call {ε α : Type} (reply : Reply ε α) (late : ε) (now deadline : Nat) :
    (reply.call late now deadline).outcome = reply.outcome ∨
      reply.delay ≠ some 0 ∧ (reply.call late now deadline).outcome = .failure late := by
  unfold Reply.call
  cases reply.delay with
  | none => exact .inr ⟨nofun, rfl⟩
  | some delay =>
    dsimp only
    split
    · exact .inl rfl
    · rename_i late
      refine .inr ⟨?_, rfl⟩
      intro same
      exact late (.inl (Option.some.inj same))

end Refresh

namespace Engine

open Refresh

/-- How a measurement can end with some secret: if it may stand in a header, never because its request
could not be made, and otherwise always so. -/
def EndsBySecret (secret : String) (outcome : Outcome MeasureFailure Binary64) : Prop :=
  if Http.isHeaderValue secret then ∀ detail, outcome ≠ .failure (.http (.request detail))
  else outcome = .failure (.http (.request "failed to parse header value"))

/-- The replies that can arrive for calls of the own transports of an engine, whatever carries their
requests. -/
inductive Expects (engine : Engine) (statusPort : Nat) : Arrival → Prop
  | fetched (carrier : Http.Carrier) (asked deadline place : Nat) (address : Net.Ipv4) :
      Expects engine statusPort (.fetched deadline place
        ((engine.ownTransports statusPort carrier).fetch asked address).outcome)
  | measured (carrier : Http.Carrier) (asked deadline region place : Nat) (endpoint : String) :
      Expects engine statusPort (.measured deadline region place
        ((engine.ownTransports statusPort carrier).measure asked region endpoint).outcome)

/-- What requests the own transports of an engine make, and what this comes to after some events. -/
structure UsableTransports (config : Config) (engine : Engine) (t : Transports) (course : Course) :
    Prop where
  /-- The status of every PoP is asked for at its address. -/
  status : ∀ address : Net.Ipv4,
    let authority := address.text ++ ":" ++ toString config.refresh.statusPort.toNat
    (PopStatus.request address config.refresh.statusPort.toNat).route =
      .ok (⟨some "http", some authority, "/statusz"⟩, authority)
  /-- The prober of every region can be reached, and any measurement can be asked of it exactly if the
  secret may stand in a header. -/
  measurement : ∀ (place : Nat) (region : Region), config.regions[place]? = some region →
    ∃ (prober : Prober) (uri : Net.Uri) (authority : String),
      engine.probers[place]? = some prober ∧
      prober = ⟨region.proberUrl, config.proberSecret⟩ ∧
      Net.Uri.parse region.proberUrl = .ok uri ∧ uri.isHttp = true ∧
      uri.authority = some authority ∧
      ∀ endpoint, (prober.request endpoint).route =
        if Http.isHeaderValue config.proberSecret then .ok (uri, authority)
        else .error (.request "failed to parse header value")
  /-- No fetch that ends has failed because its request could not be made. -/
  fetched : ∀ elapsed event actor phase place outcome,
    (course.wait elapsed).LooksAt t engine.plan event actor phase →
    phase.EndsCall t engine.plan (course.clock + elapsed) (.fetch place outcome) →
    ∀ detail, outcome ≠ .failure (.http (.request detail))
  /-- Whether a measurement that ends has depends on the secret alone. -/
  measured : ∀ elapsed event actor phase region place outcome,
    (course.wait elapsed).LooksAt t engine.plan event actor phase →
    phase.EndsCall t engine.plan (course.clock + elapsed) (.measurement region place outcome) →
    EndsBySecret config.proberSecret outcome
  /-- With a secret that may not stand in a header, only failed measurements are committed. -/
  committed : Http.isHeaderValue config.proberSecret = false → ∀ deed ∈ course.history,
    ∀ region latencies, deed.entry = .committed (.latency region latencies) →
      latencies = List.replicate config.pops.length unreachableLatency

section Transports

variable {engine : Engine} {config : Config} (carrier : Http.Carrier)

/-- A fetch never fails because its request could not be made. -/
theorem ownTransports_fetch {statusPort : Nat} (bound : statusPort < 65536) (asked : Nat)
    (address : Net.Ipv4) (detail : String) :
    ((engine.ownTransports statusPort carrier).fetch asked address).outcome ≠
      .failure (.http (.request detail)) := by
  simp only [ownTransports, Reply.ofExchange]
  refine Outcome.ofExchange_ne_failure ?_ fun response =>
    PopStatus.ofResponse_ne_request _ response detail
  intro fault failed same
  cases same
  exact carrier.exchange_ne_request (PopStatus.route_request address bound) asked detail failed

end Transports

section Built

variable {config : Config} {names : Net.NameService} {engine : Engine}
  (built : build config true names = .ok engine)
include built

/-- Every region has a prober that can be reached. -/
theorem prober_of_build {place : Nat} {region : Region}
    (found : config.regions[place]? = some region) :
    ∃ (prober : Prober) (uri : Net.Uri) (authority : String),
      engine.probers[place]? = some prober ∧
      prober = ⟨region.proberUrl, config.proberSecret⟩ ∧
      Net.Uri.parse region.proberUrl = .ok uri ∧ uri.isHttp = true ∧
      uri.authority = some authority ∧
      ∀ endpoint, (prober.request endpoint).route =
        if Http.isHeaderValue config.proberSecret then .ok (uri, authority)
        else .error (.request "failed to parse header value") := by
  obtain ⟨accepted, reachable, ranking, -, rfl⟩ := build_eq_ok built
  have member := List.mem_of_getElem? found
  have absolute := Config.isAbsolute_proberUrl ⟨_, accepted⟩ member
  have plain := reachable rfl region member
  unfold Net.Uri.isAbsolute at absolute
  unfold isPlainHttp at plain
  cases parsed : Net.Uri.parse region.proberUrl with
  | error fault =>
    rw [parsed] at plain
    cases plain
  | ok uri =>
    rw [parsed] at absolute plain
    obtain ⟨authority, its⟩ := Option.isSome_iff_exists.mp (Bool.and_eq_true_iff.mp absolute).2
    refine ⟨⟨region.proberUrl, config.proberSecret⟩, uri, authority, ?_, rfl, rfl, plain, its, ?_⟩
    · rw [List.getElem?_map, found, Option.map_some]
    · exact Prober.route_request parsed plain its

variable (carrier : Http.Carrier)

/-- A measurement ends as the secret lets it, and at once if its request could not be made. -/
theorem ownTransports_measure (statusPort asked region : Nat) (endpoint : String)
    (known : region < engine.plan.regionCount) :
    let reply := (engine.ownTransports statusPort carrier).measure asked region endpoint
    EndsBySecret config.proberSecret reply.outcome ∧
      (Http.isHeaderValue config.proberSecret = false → reply.delay = some 0) := by
  have inside : region < config.regions.length := (builtFrom_of_build built).regionCount ▸ known
  obtain ⟨prober, uri, authority, its, -, -, -, -, route⟩ :=
    prober_of_build built (List.getElem?_eq_getElem inside)
  simp only [ownTransports, its, Reply.ofExchange, EndsBySecret]
  cases sendable : Http.isHeaderValue config.proberSecret with
  | true =>
    have made : (prober.request endpoint).route = .ok (uri, authority) := by
      rw [route, sendable, if_pos rfl]
    refine ⟨?_, nofun⟩
    intro detail
    refine Outcome.ofExchange_ne_failure ?_ fun response =>
      ProbeResult.latencyOfResponse_ne_request _ response detail
    intro fault failed same
    cases same
    exact carrier.exchange_ne_request made asked detail failed
  | false =>
    have refused : (prober.request endpoint).route =
        .error (.request "failed to parse header value") := by
      rw [route, sendable, if_neg Bool.false_ne_true]
    rw [carrier.exchange_of_error refused asked]
    exact ⟨rfl, fun _ => rfl⟩

section Run

variable {heard : List Arrival} {statusPort : Nat}
  (expected : ∀ arrival ∈ heard, engine.Expects statusPort arrival)
include expected

omit built in
theorem ne_request_of_origin (bound : statusPort < 65536) {place : Nat}
    {outcome : Outcome FetchFailure PopStatus}
    (origin : (CallEnd.fetch place outcome).Origin (engine.ownTransports statusPort carrier)
      engine.plan heard) (detail : String) : outcome ≠ .failure (.http (.request detail)) := by
  cases origin with
  | fetch =>
    rename_i asked deadline address
    rcases Reply.outcome_call ((engine.ownTransports statusPort carrier).fetch asked address)
      .deadlineExceeded asked deadline with same | ⟨-, late⟩
    · exact fun unsent =>
        ownTransports_fetch carrier bound asked address detail (same.symm.trans unsent)
    · exact fun unsent => nomatch late.symm.trans unsent
  | fetchTold told =>
    cases expected _ told with
    | fetched other asked deadline place address =>
      exact ownTransports_fetch other bound asked address detail

omit built in
/-- A measurement that has ended came out as a prober replied, or it has been waited for in vain. -/
theorem reply_of_origin {region place : Nat} {outcome : Outcome MeasureFailure Binary64}
    (origin : (CallEnd.measurement region place outcome).Origin
      (engine.ownTransports statusPort carrier) engine.plan heard) :
    region < engine.plan.regionCount ∧ ∃ other asked endpoint,
      let reply := (engine.ownTransports statusPort other).measure asked region endpoint
      outcome = reply.outcome ∨
        reply.delay ≠ some 0 ∧ outcome = .failure .deadlineExceeded := by
  cases origin with
  | measurement known =>
    rename_i asked deadline endpoint
    exact ⟨known, carrier, asked, endpoint, Reply.outcome_call _ _ _ _⟩
  | measurementTold known told =>
    cases expected _ told with
    | measured other asked deadline region place endpoint =>
      exact ⟨known, other, asked, endpoint, .inl rfl⟩

theorem endsBySecret_of_origin {region place : Nat} {outcome : Outcome MeasureFailure Binary64}
    (origin : (CallEnd.measurement region place outcome).Origin
      (engine.ownTransports statusPort carrier) engine.plan heard) :
    EndsBySecret config.proberSecret outcome := by
  obtain ⟨known, other, asked, endpoint, replied⟩ := reply_of_origin carrier expected origin
  obtain ⟨ends, atOnce⟩ := ownTransports_measure built other statusPort asked region endpoint known
  rcases replied with same | ⟨waits, late⟩
  · rw [same]
    exact ends
  · -- Only a call that has been waited for is given up, so this one has been sent.
    have sendable : Http.isHeaderValue config.proberSecret = true :=
      Bool.eq_true_of_not_eq_false fun unsendable => waits (atOnce unsendable)
    rw [late, EndsBySecret, if_pos sendable]
    exact fun detail => nofun

/-- With a secret that may not stand in a header, every latency of a pass stands for a failed
measurement. -/
theorem eq_unreachable_of_measurements {seen : List (Nat × Entry)} {region began deadline last : Nat}
    {endpoints : List String} {latencies : List Binary64} (known : region < engine.plan.regionCount)
    (unsendable : Http.isHeaderValue config.proberSecret = false)
    (pass : Measurements (engine.ownTransports statusPort carrier) heard seen region began deadline
      endpoints latencies last) : ∀ x ∈ latencies, x = unreachableLatency := by
  induction pass with
  | none => exact nofun
  | next before later measured accepted ih =>
    intro x member
    rcases List.mem_append.mp member with old | new
    · exact ih x old
    · have ends := endsBySecret_of_origin built carrier expected (measured.origin known)
      rw [EndsBySecret, unsendable, if_neg Bool.false_ne_true] at ends
      rw [ends] at accepted
      rw [List.mem_singleton.mp new]
      exact (Option.some.inj accepted).symm

end Run

/-- With its own transports an engine asks for every status, and for every measurement if its secret
may stand in a header, whatever carries the requests and however the refreshes are interleaved. -/
theorem usable_transports (channel : Shutdown.Channel) (events : List (Nat × Event))
    (expected : ∀ elapsed arrival, (elapsed, .arrive arrival) ∈ events →
      engine.Expects config.refresh.statusPort.toNat arrival) :
    let t := engine.ownTransports config.refresh.statusPort.toNat carrier
    UsableTransports config engine t
      ((Course.start engine.store channel).run t engine.plan events) := by
  intro t
  have parts := builtFrom_of_build built
  have bound : config.refresh.statusPort.toNat < 65536 := config.refresh.statusPort.toNat_lt
  have sound : ((Course.start engine.store channel).run t engine.plan events).Sound t engine.plan
      engine.store := Course.sound_run (parts.fits []) (Course.sound_start _ channel) events
  have heard : ∀ arrival ∈ ((Course.start engine.store channel).run t engine.plan events).heard,
      engine.Expects config.refresh.statusPort.toNat arrival := by
    intro arrival member
    rcases Course.heard_run member with none | ⟨elapsed, among⟩
    · cases none
    · exact expected elapsed arrival among
  generalize (Course.start engine.store channel).run t engine.plan events = course at sound heard
  have origin {elapsed : Nat} {event : Event} {actor : Actor} {phase : Phase} {ended : CallEnd}
      (looks : (course.wait elapsed).LooksAt t engine.plan event actor phase)
      (ends : phase.EndsCall t engine.plan (course.clock + elapsed) ended) :
      ended.Origin t engine.plan course.heard := by
    obtain ⟨seen, ready⟩ := looks.ready sound
    exact ready.origin ends
  constructor
  · intro address
    exact PopStatus.route_request address bound
  · intro place region found
    exact prober_of_build built found
  · intro elapsed event actor phase place outcome looks ends
    exact ne_request_of_origin carrier heard bound (origin looks ends)
  · intro elapsed event actor phase region place outcome looks ends
    exact endsBySecret_of_origin built carrier heard (origin looks ends)
  · intro unsendable deed member region latencies committed
    obtain ⟨known, began, last, pass⟩ := sound.logged.whole deed member _ committed
    have own : ∀ arrival ∈ heardBy course.heard deed.actor,
        engine.Expects config.refresh.statusPort.toNat arrival := fun arrival told =>
      heard arrival (heardBy_subset_self course.heard deed.actor told)
    rw [List.eq_replicate_iff]
    exact ⟨pass.length_eq.trans parts.endpoints_length,
      eq_unreachable_of_measurements built carrier own known unsendable pass⟩

end Built

/-- Whatever is asked is answered at once, with a measurement of one millisecond. -/
def answering : Http.Carrier := fun _ _ =>
  (some 0, .ok ⟨200, [Text.encode "\x7b\"start\":0,\"first_byte\":1000000\x7d"], true⟩)

theorem usable_transports_twoPops : ∃ engine, build twoPops true = .ok engine ∧
    let t := engine.ownTransports twoPops.refresh.statusPort.toNat answering
    let course := (Course.start engine.store .initial).run t engine.plan [(0, .beginLatency)]
    Http.isHeaderValue twoPops.proberSecret = true ∧
    course.loop.store.regionLatency? 0 = some [.ofNat 1, .ofNat 1] ∧
    UsableTransports twoPops engine t course := by
  obtain ⟨engine, built⟩ := build_twoPops
  refine ⟨engine, built, by decide +kernel, ?_, ?_⟩
  · have policy := (builtFrom_of_build built).lowestLatency rfl
    obtain ⟨-, -, ranking, -, rfl⟩ := build_eq_ok built
    cases policy
    decide +kernel
  · refine usable_transports built answering .initial [(0, .beginLatency)] ?_
    intro elapsed arrival member
    cases List.mem_singleton.mp member

/-- The configuration of two PoPs with a line break in the secret. -/
def brokenSecret : Config := { twoPops with proberSecret := "s3\ncret" }

/-- A secret with a line break is accepted, but no measurement can be asked for with it. -/
theorem usable_transports_brokenSecret : ∃ engine, build brokenSecret true = .ok engine ∧
    let t := engine.ownTransports brokenSecret.refresh.statusPort.toNat answering
    let start := Course.start engine.store .initial
    (∀ prober ∈ engine.probers, ∀ pop ∈ engine.pops,
      (prober.request pop.latencyEndpointUrl).route =
        .error (.request "failed to parse header value")) ∧
    (∀ place ∈ [0, 1], (start.wait 0).LooksAt t engine.plan .beginLatency (.byHand 0)
        (.beginLatency engine.plan 0) ∧
      (Phase.beginLatency engine.plan 0).EndsCall t engine.plan 0
        (.measurement 0 place (.failure (.http (.request "failed to parse header value"))))) ∧
    (start.run t engine.plan [(0, .beginLatency)]).loop.store.regionLatency? 0 =
      some [unreachableLatency, unreachableLatency] := by
  obtain ⟨engine, built⟩ := @exists_build brokenSecret true .offline (by decide +kernel)
  refine ⟨engine, built, ?_⟩
  have policy := (builtFrom_of_build built).lowestLatency rfl
  obtain ⟨-, -, ranking, -, rfl⟩ := build_eq_ok built
  cases policy
  refine ⟨by decide +kernel, ?_, by decide +kernel⟩
  intro place member
  refine ⟨.beginsLatency, ⟨.fresh, rfl, .begins ?_⟩⟩
  simp only [List.mem_cons, List.not_mem_nil, or_false] at member
  rcases member with rfl | rfl
  · exact .here (by decide +kernel) (by decide +kernel)
  · exact .later ⟨by decide +kernel, by decide +kernel⟩
      (.here (by decide +kernel) (by decide +kernel))

end Engine

end Steering
