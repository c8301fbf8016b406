import Steering.Proofs.Delivery
import Steering.Proofs.RankedPlaces
/-! What a failed fetch comes to: a record with the wording of its reason, which keeps the PoP out of
every answer unless this wording is empty. -/

namespace Steering

theorem append_ne_empty {text rest : String} (filled : text ≠ "") : text ++ rest ≠ "" := by
  intro empty
  exact filled (String.append_eq_empty_iff.mp empty).1

theorem Http.Failure.message_ne_empty (failure : Failure) : failure.message ≠ "" := by
  cases failure with
  | request detail => exact append_ne_empty (by decide)
  | send detail => exact append_ne_empty (by decide)
  | status code => exact append_ne_empty (by decide)
  | body detail => exact append_ne_empty (by decide)
  | tooLarge limit => exact append_ne_empty (append_ne_empty (by decide))

/-- Only a reason that is an empty text has an empty wording. -/
theorem FetchFailure.message_eq_empty_iff {reason : FetchFailure} :
    reason.message = "" ↔ reason = .other "" := by
  cases reason with
  | http failure => exact iff_of_false failure.message_ne_empty nofun
  | malformed detail => exact iff_of_false (append_ne_empty (by decide)) nofun
  | deadlineExceeded => exact iff_of_false (by decide) nofun
  | other text => exact ⟨congrArg FetchFailure.other, FetchFailure.other.inj⟩

namespace Refresh

/-- Everything is refused at once, fetches for a reason. -/
def Responder.refusing (reason : FetchFailure) : Responder where
  fetch _ _ _ := ⟨some 0, .failure reason⟩
  measure _ _ _ _ := ⟨some 0, .failure .deadlineExceeded⟩

end Refresh

namespace Engine

/-- A PoP is out of rotation: its record names an error, and no answer is made of it. -/
structure OutOfRotation (engine : Engine) (place : Nat) : Prop where
  unhealthy : ∀ status ∈ engine.store.state.popStatus[place]?,
    status.error ≠ "" ∧ status.isHealthy = false
  unranked : ∀ region, place ∉ engine.places region
  query : ∀ client, ∀ address ∈ engine.query client,
    ∃ other, other ≠ place ∧ engine.pops[other]?.map (·.ip4) = some address
  defaultRanking : ∀ address ∈ engine.defaultRanking,
    ∃ other, other ≠ place ∧ engine.pops[other]?.map (·.ip4) = some address

variable {engine : Engine} {place : Nat}

/-- A PoP whose record names an error is out of rotation. -/
theorem outOfRotation_of_error {status : PopStatus}
    (record : engine.store.state.popStatus[place]? = some status) (named : status.error ≠ "") :
    engine.OutOfRotation place := by
  have unhealthy : engine.store.state.isHealthyAt place = false := by
    simp [Snapshot.isHealthyAt, record, named]
  have unranked (region : Option Nat) : place ∉ engine.places region := by
    rw [mem_places_iff, unhealthy]
    exact Bool.false_ne_true
  have others {region : Option Nat} {address : Net.Ipv4}
      (member : address ∈ (engine.places region).filterMap fun place =>
        engine.pops[place]?.map (·.ip4)) :
      ∃ other, other ≠ place ∧ engine.pops[other]?.map (·.ip4) = some address := by
    obtain ⟨other, ranked, its⟩ := List.mem_filterMap.mp member
    refine ⟨other, ?_, its⟩
    rintro rfl
    exact unranked region ranked
  refine ⟨?_, unranked, ?_, ?_⟩
  · intro other its
    cases record.symm.trans its
    exact ⟨named, by simp [PopStatus.isHealthy, named]⟩
  · intro client address member
    rw [query_eq_places] at member
    exact others member
  · intro address member
    rw [defaultRanking_eq_places] at member
    exact others member

open Refresh

/-- Whatever the reason of a failed fetch, after the commit of its phase the record holds the wording of
the reason and nothing else, until other records are committed. The PoP is out of rotation unless the
reason is an empty text, and then it is in every ranking. -/
theorem failed_fetch {config : Config} {ownProbers : Bool} {names : Net.NameService}
    {engine : Engine} (built : build config ownProbers names = .ok engine)
    (earlier : List Commit) (t : Responder)
    (channel : Shutdown.Channel) (events : List (Nat × Event)) {done later seen : List Deed}
    {actor : Actor} {moment place : Nat} {statuses : List PopStatus} {reason : FetchFailure}
    (failed : (Course.start (engine.store.replay earlier) channel).EndedBefore t engine.plan events
      done actor (.fetch place (.failure reason)))
    (history : ((Course.start (engine.store.replay earlier) channel).run t engine.plan events).history =
      done ++ ⟨actor, moment, .committed (.status statuses)⟩ :: later)
    (still : ∀ deed ∈ seen, ∀ others, deed.entry ≠ .committed (.status others)) :
    let store := stateAfter (engine.store.replay earlier)
      (done ++ ⟨actor, moment, .committed (.status statuses)⟩ :: seen)
    let current : Engine := { engine with store }
    store.state.popStatus[place]? = some ⟨"", .zero, .zero, reason.message⟩ ∧
    (reason ≠ .other "" → current.OutOfRotation place) ∧
    (reason = .other "" → ∀ region, place ∈ current.places region) := by
  intro store current
  have fits := (builtFrom_of_build built).fits earlier
  have starts : (Course.start (engine.store.replay earlier) channel).Sound t engine.plan
      (engine.store.replay earlier) := Course.sound_start _ channel
  have record : store.state.popStatus[place]? = some ⟨"", .zero, .zero, reason.message⟩ := by
    have logged := (Course.sound_run fits starts events).logged
    have since := logged.popStatus_since fits history rfl still
    have delivered := failed.in_next_commit fits starts history rfl
    rw [since]
    cases delivered with
    | record its found =>
      cases its
      exact found
  refine ⟨record, ?_, ?_⟩
  · intro named
    exact outOfRotation_of_error record (mt FetchFailure.message_eq_empty_iff.mp named)
  · rintro rfl region
    have empty : (FetchFailure.other "").message = "" := rfl
    have healthy : store.state.isHealthyAt place = true := by
      simp [Snapshot.isHealthyAt, record, empty]
    exact mem_places_iff.mpr healthy

/-- Both fetches of a refresh by hand of two PoPs. -/
def bothAsked : List Deed :=
  [⟨.byHand 0, 0, .fetched (.ofOctets 192 0 2 1)⟩, ⟨.byHand 0, 0, .fetched (.ofOctets 192 0 2 2)⟩]

/-- The commit of that refresh when both fetches have failed. -/
def bothFailed (reason : FetchFailure) : Deed :=
  ⟨.byHand 0, 0, .committed (.status [.failed reason.message, .failed reason.message])⟩

theorem history_refusing {engine : Engine} (parts : BuiltFrom twoPops engine)
    (reason : FetchFailure) :
    ((Course.start (engine.store.replay []) .initial).run (.refusing reason) engine.plan
      [(0, .beginStatus)]).history = bothAsked ++ bothFailed reason :: [] := by
  rw [parts.plan, parts.store]
  rfl

theorem endedBefore_refusing {engine : Engine} (parts : BuiltFrom twoPops engine)
    (reason : FetchFailure) :
    (Course.start (engine.store.replay []) .initial).EndedBefore (.refusing reason) engine.plan
      [(0, .beginStatus)] bothAsked (.byHand 0) (.fetch 0 (.failure reason)) := by
  rw [parts.plan, parts.store]
  refine @Course.EndedBefore.intro _ _ _ _ _ _ _ [] [] 0 _ _ bothAsked rfl .beginsStatus
    ⟨_, _, _, rfl, rfl, Nat.le_refl _, rfl⟩ rfl ?_
  simp [bothAsked]

theorem failed_fetch_twoPops : ∃ engine, build twoPops true = .ok engine ∧
    let store := stateAfter (engine.store.replay []) (bothAsked ++ bothFailed .deadlineExceeded :: [])
    store.state.popStatus[0]? = some ⟨"", .zero, .zero, "deadline exceeded"⟩ ∧
    { engine with store }.OutOfRotation 0 := by
  obtain ⟨engine, built⟩ := build_twoPops
  have parts := builtFrom_of_build built
  obtain ⟨record, named, -⟩ := failed_fetch built [] (.refusing .deadlineExceeded) .initial
    [(0, .beginStatus)] (endedBefore_refusing parts _) (history_refusing parts _)
    (List.forall_mem_nil _)
  exact ⟨engine, built, record, named nofun⟩

/-- A fetch that fails without a wording leaves its PoP in rotation. -/
theorem failed_fetch_unnamed : ∃ engine, build twoPops true = .ok engine ∧
    (Course.start (engine.store.replay []) .initial).EndedBefore (.refusing (.other "")) engine.plan
      [(0, .beginStatus)] bothAsked (.byHand 0) (.fetch 0 (.failure (.other ""))) ∧
    ((Course.start (engine.store.replay []) .initial).run (.refusing (.other "")) engine.plan
      [(0, .beginStatus)]).history = bothAsked ++ bothFailed (.other "") :: [] ∧
    let store := stateAfter (engine.store.replay []) (bothAsked ++ bothFailed (.other "") :: [])
    store.state.isHealthyAt 0 = true ∧
    ∀ client, .ofOctets 192 0 2 1 ∈ { engine with store }.query client := by
  obtain ⟨engine, built⟩ := build_twoPops
  have parts := builtFrom_of_build built
  refine ⟨engine, built, endedBefore_refusing parts _, history_refusing parts _, ?_⟩
  intro store
  have healthy : store.state.isHealthyAt 0 = true := by
    simp only [store, parts.store]
    decide
  refine ⟨healthy, fun client => ?_⟩
  rw [query_eq_places]
  refine List.mem_filterMap.mpr ⟨0, mem_places_iff.mpr healthy, ?_⟩
  simp only [parts.pops]
  rfl

end Engine

end Steering
