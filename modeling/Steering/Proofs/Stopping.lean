import Steering.Proofs.CourseRun
import Steering.Proofs.CrashLook
import Steering.Proofs.PlayedCourse
/-! How a loop stops: at the first look that finds the signal or comes to a call that crashes, and after
it the loop does nothing more. -/

namespace Steering

namespace Refresh.Course

variable {t : Responder} {plan : Plan} {course : Course}

variable (t plan) in
/-- Whether events make the loop look, while it still runs, at a course of some kind. -/
def Meets (course : Course) (events : List (Nat × Event)) (kind : Course → Prop) : Prop :=
  ∃ before elapsed rest, events = before ++ (elapsed, .poll) :: rest ∧
    (course.run t plan before).loop.ending = none ∧
    kind { course.run t plan before with clock := (course.run t plan before).clock + elapsed }

variable (t plan) in
/-- How a look ends the loop. -/
inductive Ends (course : Course) : Ending → Prop
  | requested (sent : course.channel.value = true) : Ends course (.shutdown .requested)
  | lost (unsent : course.channel.value = false) (gone : course.channel.senderAlive = false) :
      Ends course (.shutdown .lost)
  | crashed (unsent : course.channel.value = false) (there : course.channel.senderAlive = true)
      (crashes : course.loop.stage.Crashes t plan course.clock) : Ends course .crashed

theorem not_meets_nil {kind : Course → Prop} : ¬ course.Meets t plan [] kind := by
  rintro ⟨before, elapsed, rest, split, -⟩
  exact absurd split (by simp)

theorem meets_cons {elapsed : Nat} {event : Event} {rest : List (Nat × Event)}
    {kind : Course → Prop} :
    course.Meets t plan ((elapsed, event) :: rest) kind ↔
      (event = .poll ∧ course.loop.ending = none ∧
        kind { course with clock := course.clock + elapsed }) ∨
      (course.step t plan (elapsed, event)).Meets t plan rest kind := by
  constructor
  · rintro ⟨before, later, after, split, going, met⟩
    cases before with
    | nil =>
      cases split
      exact .inl ⟨rfl, going, met⟩
    | cons first before =>
      cases split
      exact .inr ⟨before, later, after, rfl, going, met⟩
  · rintro (⟨rfl, going, met⟩ | ⟨before, later, after, rfl, going, met⟩)
    · exact ⟨[], elapsed, rest, rfl, going, met⟩
    · exact ⟨(elapsed, event) :: before, later, after, rfl, going, met⟩

theorem Meets.mono {events : List (Nat × Event)} {kind other : Course → Prop}
    (implies : ∀ seen, kind seen → other seen) (meets : course.Meets t plan events kind) :
    course.Meets t plan events other := by
  obtain ⟨before, elapsed, rest, split, going, met⟩ := meets
  exact ⟨before, elapsed, rest, split, going, implies _ met⟩

theorem Meets.congr {events : List (Nat × Event)} {kind other : Course → Prop}
    (same : ∀ seen, kind seen ↔ other seen) :
    course.Meets t plan events kind ↔ course.Meets t plan events other :=
  ⟨mono fun seen => (same seen).mp, mono fun seen => (same seen).mpr⟩

/-- A look ends the loop in the way that is described, or not at all. -/
theorem poll_ending (going : course.loop.ending = none) :
    (∃ ending, (course.poll t plan).loop.ending = some (course.clock, ending) ∧
        course.Ends t plan ending) ∨
      ((course.poll t plan).loop.ending = none ∧ ∀ ending, ¬ course.Ends t plan ending) := by
  rw [poll_of_going going]
  cases signal : course.channel.outcome? with
  | some outcome =>
    left
    refine ⟨.shutdown outcome, rfl, ?_⟩
    cases outcome with
    | requested => exact .requested (Shutdown.Channel.outcome?_eq_requested_iff.mp signal)
    | lost =>
      obtain ⟨unsent, gone⟩ := Shutdown.Channel.outcome?_eq_lost_iff.mp signal
      exact .lost unsent gone
  | none =>
    obtain ⟨unsent, there⟩ := Shutdown.Channel.outcome?_eq_none_iff.mp signal
    rcases Loop.proceed_crashes_iff going with ⟨dies, crashes⟩ | ⟨goes, survives⟩
    · exact .inl ⟨.crashed, dies, .crashed unsent there crashes⟩
    · refine .inr ⟨goes, ?_⟩
      intro ending ends
      cases ends with
      | requested sent => exact Bool.noConfusion (unsent.symm.trans sent)
      | lost _ gone => exact Bool.noConfusion (there.symm.trans gone)
      | crashed _ _ crashes => exact survives crashes

theorem Ends.unique {ending other : Ending} (ends : course.Ends t plan ending)
    (also : course.Ends t plan other) : ending = other := by
  cases ends with
  | requested sent =>
    cases also with
    | requested _ => rfl
    | lost unsent _ => exact Bool.noConfusion (unsent.symm.trans sent)
    | crashed unsent _ _ => exact Bool.noConfusion (unsent.symm.trans sent)
  | lost unsent gone =>
    cases also with
    | requested sent => exact Bool.noConfusion (unsent.symm.trans sent)
    | lost _ _ => rfl
    | crashed _ there _ => exact Bool.noConfusion (there.symm.trans gone)
  | crashed unsent there crashes =>
    cases also with
    | requested sent => exact Bool.noConfusion (unsent.symm.trans sent)
    | lost _ gone => exact Bool.noConfusion (there.symm.trans gone)
    | crashed _ _ _ => rfl

theorem not_meets_of_ended (ended : course.loop.ending.isSome = true)
    {events : List (Nat × Event)} {kind : Course → Prop} :
    ¬ course.Meets t plan events kind := by
  rintro ⟨before, elapsed, rest, -, going, -⟩
  rw [(run_of_ended ended before).1] at going
  rw [going] at ended
  cases ended

/-- Events end a loop that runs exactly if they make it look at a course that ends it, and it ends in
the way of the first of these looks. -/
theorem run_ending_iff (going : course.loop.ending = none) {events : List (Nat × Event)}
    {ending : Ending} :
    (∃ moment, (course.run t plan events).loop.ending = some (moment, ending)) ↔
      course.Meets t plan events fun seen => seen.Ends t plan ending := by
  induction events generalizing course with
  | nil =>
    refine iff_of_false ?_ not_meets_nil
    rintro ⟨moment, ended⟩
    rw [run_nil, going] at ended
    cases ended
  | cons event rest ih =>
    obtain ⟨elapsed, event⟩ := event
    rw [meets_cons, run_cons]
    by_cases looked : event = .poll
    · subst looked
      let seen := { course with clock := course.clock + elapsed }
      -- A look that ends the loop decides, for the rest changes nothing of it.
      rcases @poll_ending t plan seen going with ⟨first, ended, ends⟩ | ⟨goes, survives⟩
      · have stopped : (course.step t plan (elapsed, .poll)).loop.ending.isSome = true := by
          rw [show (course.step t plan (elapsed, .poll)).loop.ending = _ from ended]
          rfl
        have kept : ((course.step t plan (elapsed, .poll)).run t plan rest).loop.ending =
            some (seen.clock, first) := (run_of_ended stopped rest).1.trans ended
        constructor
        · rintro ⟨moment, found⟩
          cases kept.symm.trans found
          exact .inl ⟨rfl, going, ends⟩
        · rintro (⟨-, -, also⟩ | later)
          · cases ends.unique also
            exact ⟨seen.clock, kept⟩
          · exact absurd later (not_meets_of_ended stopped)
      · have next : (course.step t plan (elapsed, .poll)).loop.ending = none := goes
        rw [ih next]
        refine ⟨.inr, ?_⟩
        rintro (⟨-, -, ends⟩ | later)
        · exact absurd ends (survives ending)
        · exact later
    · have next : (course.step t plan (elapsed, event)).loop.ending = none :=
        (step_of_ne_poll looked elapsed).1.trans going
      rw [ih next]
      refine ⟨.inr, ?_⟩
      rintro (⟨same, -, -⟩ | later)
      · exact absurd same looked
      · exact later

theorem ends_requested_iff :
    course.Ends t plan (.shutdown .requested) ↔ course.channel.value = true := by
  refine ⟨?_, .requested⟩
  intro ends
  cases ends with
  | requested sent => exact sent

theorem ends_lost_iff : course.Ends t plan (.shutdown .lost) ↔
    course.channel.value = false ∧ course.channel.senderAlive = false := by
  refine ⟨?_, And.rec .lost⟩
  intro ends
  cases ends with
  | lost unsent gone => exact ⟨unsent, gone⟩

theorem ends_crashed_iff : course.Ends t plan .crashed ↔
    course.channel.value = false ∧ course.channel.senderAlive = true ∧
      course.loop.stage.Crashes t plan course.clock := by
  constructor
  · intro ends
    cases ends with
    | crashed unsent there crashes => exact ⟨unsent, there, crashes⟩
  · rintro ⟨unsent, there, crashes⟩
    exact .crashed unsent there crashes

theorem exists_ends_iff :
    (∃ ending, course.Ends t plan ending) ↔
      course.channel.value = true ∨ course.channel.senderAlive = false ∨
        course.loop.stage.Crashes t plan course.clock := by
  constructor
  · rintro ⟨ending, ends⟩
    cases ends with
    | requested sent => exact .inl sent
    | lost unsent gone => exact .inr (.inl gone)
    | crashed unsent there crashes => exact .inr (.inr crashes)
  · intro why
    cases value : course.channel.value with
    | true => exact ⟨_, .requested value⟩
    | false =>
      cases there : course.channel.senderAlive with
      | false => exact ⟨_, .lost value there⟩
      | true =>
        rcases why with sent | gone | crashes
        · exact Bool.noConfusion (value.symm.trans sent)
        · exact Bool.noConfusion (there.symm.trans gone)
        · exact ⟨_, .crashed value there crashes⟩

theorem run_going_iff (going : course.loop.ending = none) {events : List (Nat × Event)} :
    (course.run t plan events).loop.ending = none ↔
      ¬ course.Meets t plan events fun seen => ∃ ending, seen.Ends t plan ending := by
  constructor
  · rintro goes ⟨before, elapsed, rest, split, still, ending, ends⟩
    obtain ⟨moment, ended⟩ :=
      (run_ending_iff going).mpr ⟨before, elapsed, rest, split, still, ends⟩
    cases goes.symm.trans ended
  · intro never
    cases ended : (course.run t plan events).loop.ending with
    | none => rfl
    | some last =>
      have meets := (run_ending_iff going).mp ⟨last.1, ended⟩
      exact absurd (meets.mono fun seen ends => ⟨last.2, ends⟩) never

/-- A look that finds the signal is the last thing that a loop does, whatever it was doing. -/
theorem silent_after_signal {before rest : List (Nat × Event)} {elapsed : Nat}
    (found : (course.run t plan before).channel.value = true ∨
      (course.run t plan before).channel.senderAlive = false) :
    (course.run t plan (before ++ (elapsed, .poll) :: rest)).loop.journal =
        (course.run t plan before).loop.journal ∧
      (course.run t plan (before ++ (elapsed, .poll) :: rest)).loop.ending.isSome = true ∧
      ((∀ event ∈ rest, event.2.isByHand = false) →
        (course.run t plan (before ++ (elapsed, .poll) :: rest)).loop.store =
          (course.run t plan before).loop.store) := by
  rw [run_append, run_cons]
  generalize course.run t plan before = seen at found
  have looked : (seen.step t plan (elapsed, .poll)).loop.ending.isSome = true ∧
      (seen.step t plan (elapsed, .poll)).loop.journal = seen.loop.journal ∧
      (seen.step t plan (elapsed, .poll)).loop.store = seen.loop.store := by
    let now := { seen with clock := seen.clock + elapsed }
    have loop : (seen.step t plan (elapsed, .poll)).loop = (now.poll t plan).loop := rfl
    rw [loop]
    cases ended : seen.loop.ending with
    | some ending =>
      have stopped : now.loop.ending.isSome = true := by
        rw [show now.loop.ending = some ending from ended]
        rfl
      rw [poll_of_ended stopped]
      exact ⟨stopped, rfl, rfl⟩
    | none =>
      have signal : now.channel.outcome?.isSome = true := by
        cases nothing : now.channel.outcome? with
        | some outcome => rfl
        | none =>
          obtain ⟨unsent, there⟩ := Shutdown.Channel.outcome?_eq_none_iff.mp nothing
          rcases found with sent | gone
          · exact Bool.noConfusion (unsent.symm.trans sent)
          · exact Bool.noConfusion (there.symm.trans gone)
      obtain ⟨outcome, found⟩ := Option.isSome_iff_exists.mp signal
      rw [poll_of_going (show now.loop.ending = none from ended), found]
      exact ⟨rfl, rfl, rfl⟩
  obtain ⟨ended, journal, store⟩ := looked
  obtain ⟨ending, journalThen, storeThen⟩ := run_of_ended ended rest
  refine ⟨journalThen.trans journal, ending ▸ ended, ?_⟩
  intro alone
  exact (storeThen alone).trans store

end Refresh.Course

namespace Engine

open Refresh

/-- Whether events make the loop of an engine look, while it still runs, at a course of some kind. -/
def Meets (engine : Engine) (t : Responder) (channel : Shutdown.Channel)
    (events : List (Nat × Event)) (kind : Course → Prop) : Prop :=
  (Course.start engine.store channel).Meets t engine.plan events kind

/-- Why an address cannot be listened on: it stands for no endpoint, or the system refuses all that it
stands for, and then the reason for the last of them counts. -/
inductive CannotListen (listener : Listener) (names : Net.NameService) (address : String) :
    String → Prop
  | unresolved {detail : String} (fails : Net.Endpoint.resolve names address = .error detail) :
    CannotListen listener names address detail
  | nowhere (resolved : Net.Endpoint.resolve names address = .ok []) :
    CannotListen listener names address "could not resolve to any address"
  | refused {endpoints : List Net.Endpoint} {last : Net.Endpoint} {detail : String}
      (resolved : Net.Endpoint.resolve names address = .ok (endpoints ++ [last]))
      (others : ∀ endpoint ∈ endpoints, ∃ reason, listener endpoint = .error reason)
      (refuses : listener last = .error detail) : CannotListen listener names address detail

/-- How an engine starts and stops. The flag of joining says whether the task of the dashboard has
stopped, if there is one. -/
structure Stopping (engine : Engine) (t : Responder) (listener : Listener)
    (names : Net.NameService) (channel : Shutdown.Channel) : Prop where
  /-- It does not start exactly if it is to listen and cannot. -/
  binds : ∀ failure, engine.start t listener channel names = .error failure ↔
    ∃ dashboard detail, engine.observability = some dashboard ∧
      CannotListen listener names dashboard.bindAddress detail ∧
      failure = .bind dashboard.bindAddress detail
  /-- When it starts, its loop has been looked at once. -/
  starts : ∀ running, engine.start t listener channel names = .ok running →
    running.loop = (engine.course t channel [(0, .poll)]).loop ∧
      running.channel = (engine.course t channel [(0, .poll)]).channel
  /-- What is played while it runs is a course of it, so the rest speaks of this as well. -/
  plays : ∀ running, engine.start t listener channel names = .ok running → ∀ schedule,
    schedule.Pairwise (fun earlier later => earlier.1 ≤ later.1) →
    ∃ events, (∀ event ∈ events, event.2.isByHand = false) ∧
      (engine.course t channel events).loop = (engine.play t schedule running).loop ∧
      (engine.course t channel events).channel = (engine.play t schedule running).channel
  /-- A loop that has been asked to stop before it starts does nothing at all. -/
  before : channel.value = true → ∀ elapsed rest,
    (engine.course t channel ((elapsed, .poll) :: rest)).loop.journal = [] ∧
      ((∀ event ∈ rest, event.2.isByHand = false) →
        (engine.course t channel ((elapsed, .poll) :: rest)).loop.store = engine.store)
  /-- From the first look that finds the signal on, the loop does nothing more. -/
  silent : ∀ before elapsed rest,
    (engine.course t channel before).channel.value = true ∨
      (engine.course t channel before).channel.senderAlive = false →
    (engine.course t channel (before ++ (elapsed, .poll) :: rest)).loop.journal =
        (engine.course t channel before).loop.journal ∧
      ((∀ event ∈ rest, event.2.isByHand = false) →
        (engine.course t channel (before ++ (elapsed, .poll) :: rest)).loop.store =
          (engine.course t channel before).loop.store)
  /-- Joining it succeeds exactly if the loop was looked at while the flag was set. -/
  requested : ∀ events served,
    join? (engine.course t channel events).loop served = some (.ok ()) ↔
      served = true ∧ engine.Meets t channel events fun seen => seen.channel.value = true
  /-- It fails for a lost signal exactly if the loop was looked at while the sender was gone and the
  flag was not set. -/
  lost : ∀ events served,
    join? (engine.course t channel events).loop served = some (.error .shutdownLost) ↔
      engine.Meets t channel events fun seen =>
        seen.channel.value = false ∧ seen.channel.senderAlive = false
  /-- It fails for a crash exactly if the loop came to a call that crashes before either. -/
  crashed : ∀ events served,
    join? (engine.course t channel events).loop served = some (.error .crashed) ↔
      engine.Meets t channel events fun seen =>
        seen.channel.value = false ∧ seen.channel.senderAlive = true ∧
          seen.loop.stage.Crashes t engine.plan seen.clock
  /-- Otherwise the loop goes on. -/
  goesOn : ∀ events, (engine.course t channel events).loop.ending = none ↔
    ¬ engine.Meets t channel events fun seen =>
      seen.channel.value = true ∨ seen.channel.senderAlive = false ∨
        seen.loop.stage.Crashes t engine.plan seen.clock

theorem listenOn_concat_iff {listener : Listener} {reason detail : String}
    {endpoints : List Net.Endpoint} {last : Net.Endpoint} :
    listenOn listener reason (endpoints ++ [last]) = .error detail ↔
      (∀ endpoint ∈ endpoints, ∃ reason, listener endpoint = .error reason) ∧
        listener last = .error detail := by
  induction endpoints generalizing reason with
  | nil => cases answer : listener last <;> simp [listenOn, answer]
  | cons first rest ih =>
    rw [List.forall_mem_cons]
    cases answer : listener first with
    | ok address => simp [listenOn, answer]
    | error other => simp [listenOn, answer, ih]

theorem cannotListen_iff {listener : Listener} {names : Net.NameService} {address detail : String} :
    CannotListen listener names address detail ↔
      (Net.Endpoint.resolve names address).bind
        (listenOn listener "could not resolve to any address") = .error detail := by
  constructor
  · intro cannot
    cases cannot with
    | unresolved fails => rw [fails, Except.bind]
    | nowhere resolved => rw [resolved, Except.bind, listenOn]
    | refused resolved others refuses =>
      rw [resolved, Except.bind]
      exact listenOn_concat_iff.mpr ⟨others, refuses⟩
  · intro fails
    cases resolved : Net.Endpoint.resolve names address with
    | error reason =>
      rw [resolved] at fails
      cases fails
      exact .unresolved resolved
    | ok endpoints =>
      rw [resolved, Except.bind] at fails
      rcases List.eq_nil_or_concat endpoints with rfl | ⟨others, last, rfl⟩
      · cases fails
        exact .nowhere resolved
      · rw [List.concat_eq_append] at resolved fails
        obtain ⟨refused, refuses⟩ := listenOn_concat_iff.mp fails
        exact .refused resolved refused refuses

/-- An engine does not start exactly if it is to listen and cannot. -/
theorem start_eq_error_iff {engine : Engine} {t : Responder} {listener : Listener}
    {names : Net.NameService} {channel : Shutdown.Channel} {failure : EngineFailure} :
    engine.start t listener channel names = .error failure ↔
      ∃ dashboard detail, engine.observability = some dashboard ∧
        CannotListen listener names dashboard.bindAddress detail ∧
        failure = .bind dashboard.bindAddress detail := by
  have same : engine.start t listener channel names = .error failure ↔
      engine.listen listener names = .error failure := by
    cases listening : engine.listen listener names with
    | error other => simp [start, listening, bind, Except.bind]
    | ok dashboard => simp [start, listening, bind, Except.bind, pure, Except.pure]
  rw [same]
  unfold listen
  cases engine.observability with
  | none => simp
  | some dashboard =>
    simp only [Option.some.injEq, exists_and_left, exists_eq_left', cannotListen_iff]
    cases (Net.Endpoint.resolve names dashboard.bindAddress).bind
        (listenOn listener "could not resolve to any address") with
    | error detail => simp [eq_comm]
    | ok address => simp

theorem result_injective {ending other : Ending} (same : ending.result = other.result) :
    ending = other := by
  rcases ending with (_ | _) | _ <;> rcases other with (_ | _) | _ <;>
    first
    | rfl
    | simp [Ending.result] at same

theorem join?_of_ended {loop : Loop} {moment : Nat} {ending : Ending} (served : Bool)
    (ended : loop.ending = some (moment, ending)) :
    join? loop served =
      if ending = .shutdown .requested → served = true then some ending.result else none := by
  rcases ending with (_ | _) | _ <;> cases served <;> simp [join?, ended, Ending.result]

/-- Joining gives how the loop ended. -/
theorem join?_eq_some_iff {loop : Loop} {served : Bool} {ending : Ending} :
    join? loop served = some ending.result ↔
      (ending = .shutdown .requested → served = true) ∧
        ∃ moment, loop.ending = some (moment, ending) := by
  constructor
  · intro joined
    cases ended : loop.ending with
    | none => simp [join?, ended] at joined
    | some last =>
      obtain ⟨moment, how⟩ := last
      rw [join?_of_ended served ended] at joined
      split at joined
      · rename_i waits
        have same := result_injective (Option.some.inj joined)
        subst same
        exact ⟨waits, moment, rfl⟩
      · cases joined
  · rintro ⟨waits, moment, ended⟩
    rw [join?_of_ended served ended, if_pos waits]

end Engine

end Steering
