import Steering.Proofs.Construction
import Steering.Proofs.CourseStep
/-! What holds along every run of a course: its invariant, how its history grows, and that a loop that
has ended does nothing more. -/

namespace Steering.Refresh.Course

variable {t : Responder} {plan : Plan} {first : Store} {course next : Course}

theorem sound_start (store : Store) (channel : Shutdown.Channel) :
    (start store channel).Sound t plan store where
  logged := ⟨rfl, nofun, nofun⟩
  journal := rfl
  cyclic := ⟨[], [], nofun, .sleeping, rfl⟩
  stage _ := trivial
  manual _ _ going := nomatch going
  committed _ _ _ found := nomatch found
  known := nofun

theorem poll_loop (t : Responder) (plan : Plan) (course : Course) :
    (course.poll t plan).loop =
      (course.loop.poll t plan course.clock 0 course.channel).1 := rfl

theorem poll_of_ended (ended : course.loop.ending.isSome = true) :
    (course.poll t plan).loop = course.loop := by
  rw [poll_loop, Loop.poll, if_pos ended]

theorem poll_of_going (going : course.loop.ending = none) :
    (course.poll t plan).loop =
      match course.channel.outcome? with
      | some outcome => course.loop.finish course.clock (.shutdown outcome)
      | none => course.loop.proceed t plan course.clock := by
  rw [poll_loop, Loop.poll, going]
  simp only [Option.isSome_none, Bool.false_eq_true, if_false, Shutdown.Channel.wait_eq]
  cases course.channel.outcome? <;> rfl

/-- Only a look makes the loop do anything. -/
theorem step_of_ne_poll {event : Event} (other : event ≠ .poll) (elapsed : Nat) :
    (course.step t plan (elapsed, event)).loop.ending = course.loop.ending ∧
      (course.step t plan (elapsed, event)).loop.journal = course.loop.journal ∧
      (event.isByHand = false →
        (course.step t plan (elapsed, event)).loop.store = course.loop.store) := by
  cases event with
  | poll => exact absurd rfl other
  | arrive arrival =>
    simp only [step, happen, Loop.arrive]
    split <;> exact ⟨rfl, rfl, fun _ => rfl⟩
  | send value => exact ⟨rfl, rfl, fun _ => rfl⟩
  | dropSender => exact ⟨rfl, rfl, fun _ => rfl⟩
  | cloneReceiver receiver => exact ⟨rfl, rfl, fun _ => rfl⟩
  | await receiver => exact ⟨rfl, rfl, fun _ => rfl⟩
  | beginStatus => exact ⟨rfl, rfl, (Bool.noConfusion ·)⟩
  | beginLatency => exact ⟨rfl, rfl, (Bool.noConfusion ·)⟩
  | look place =>
    simp only [step, happen]
    split <;> exact ⟨rfl, rfl, (Bool.noConfusion ·)⟩
  | giveUp place => exact ⟨rfl, rfl, (Bool.noConfusion ·)⟩

/-- After the loop has ended, nothing that happens makes it do anything. -/
theorem step_of_ended (ended : course.loop.ending.isSome = true) (event : Nat × Event) :
    (course.step t plan event).loop.ending = course.loop.ending ∧
      (course.step t plan event).loop.journal = course.loop.journal ∧
      (event.2.isByHand = false →
        (course.step t plan event).loop.store = course.loop.store) := by
  obtain ⟨elapsed, event⟩ := event
  by_cases looked : event = .poll
  · subst looked
    have same : (course.step t plan (elapsed, .poll)).loop = course.loop :=
      @poll_of_ended t plan { course with clock := course.clock + elapsed } ended
    rw [same]
    exact ⟨rfl, rfl, fun _ => rfl⟩
  · exact step_of_ne_poll looked elapsed

theorem run_of_ended (ended : course.loop.ending.isSome = true) (events : List (Nat × Event)) :
    (course.run t plan events).loop.ending = course.loop.ending ∧
      (course.run t plan events).loop.journal = course.loop.journal ∧
      ((∀ event ∈ events, event.2.isByHand = false) →
        (course.run t plan events).loop.store = course.loop.store) := by
  induction events generalizing course with
  | nil => exact ⟨rfl, rfl, fun _ => rfl⟩
  | cons event rest ih =>
    obtain ⟨ending, journal, store⟩ := @step_of_ended t plan course ended event
    obtain ⟨endingThen, journalThen, storeThen⟩ := ih (ending ▸ ended)
    refine ⟨endingThen.trans ending, journalThen.trans journal, ?_⟩
    intro alone
    exact (storeThen fun other among => alone other (List.mem_cons_of_mem _ among)).trans
      (store (alone event (List.mem_cons_self ..)))

/-- What a step adds to the history, and whose deeds these are. -/
theorem Stepped.history {flag : Bool} (stepped : course.Stepped t plan flag next) :
    ∃ news, next.history = course.history ++ news ∧
      (flag = false → ∀ deed ∈ news, deed.actor = .loop) := by
  cases stepped with
  | loop passed hears grown =>
    refine ⟨_, rfl, ?_⟩
    intro _ deed member
    obtain ⟨entry, made, rfl⟩ := List.mem_map.mp member
    rfl
  | byHand passed accounted look was becomes others grows => exact ⟨_, rfl, nofun⟩
  | idle passed subsides length => exact ⟨[], by simp, by simp⟩

section Run

variable (fits : plan.Fits first)
include fits

/-- The invariant holds along every run. -/
theorem sound_run (sound : course.Sound t plan first) (events : List (Nat × Event)) :
    (course.run t plan events).Sound t plan first := by
  induction events generalizing course with
  | nil => exact sound
  | cons event rest ih =>
    obtain ⟨elapsed, event⟩ := event
    exact ih ((stepped fits sound elapsed event).sound sound)

/-- A history only grows, and without a refresh by hand it grows by deeds of the loop. -/
theorem history_run (sound : course.Sound t plan first) (events : List (Nat × Event)) :
    ∃ news, (course.run t plan events).history = course.history ++ news ∧
      ((∀ event ∈ events, event.2.isByHand = false) → ∀ deed ∈ news, deed.actor = .loop) := by
  induction events generalizing course with
  | nil => exact ⟨[], by simp, by simp⟩
  | cons event rest ih =>
    obtain ⟨elapsed, event⟩ := event
    have stepped := stepped fits sound elapsed event
    obtain ⟨here, grows, own⟩ := stepped.history
    obtain ⟨later, others, alone⟩ := ih (stepped.sound sound)
    refine ⟨here ++ later, ?_, ?_⟩
    · rw [← List.append_assoc, ← grows]
      exact others
    · intro byItself deed member
      rcases List.mem_append.mp member with old | new
      · exact own (byItself _ (List.mem_cons_self ..)) deed old
      · exact alone (fun other among => byItself other (List.mem_cons_of_mem _ among)) deed new

end Run

/-- The deeds of the loop alone are its journal. -/
theorem entries_of_alone {history : List Deed} (alone : ∀ deed ∈ history, deed.actor = .loop) :
    history.map Deed.entry = (deedsBy .loop history).map Prod.snd := by
  have all : history.filter (·.actor = .loop) = history := by
    apply List.filter_eq_self.mpr
    intro deed member
    exact decide_eq_true (alone deed member)
  rw [deedsBy, all, List.map_map]
  rfl

/-- If nothing is refreshed by hand, the journal of the loop is all that happens. -/
theorem entries_run (fits : plan.Fits first) (channel : Shutdown.Channel)
    {events : List (Nat × Event)} (alone : ∀ event ∈ events, event.2.isByHand = false) :
    ((start first channel).run t plan events).history.map Deed.entry =
      ((start first channel).run t plan events).loop.journal.map Prod.snd := by
  have starts : (start first channel).Sound t plan first := sound_start first channel
  obtain ⟨news, grows, own⟩ := history_run fits starts events
  rw [← (sound_run fits starts events).journal]
  apply entries_of_alone
  rw [grows]
  exact own alone

end Steering.Refresh.Course

namespace Steering.Engine.BuiltFrom

/-- Whatever has been committed, the plan of an engine fits its state. -/
theorem fits {config : Config} {engine : Engine} (built : BuiltFrom config engine)
    (commits : List Commit) : engine.plan.Fits (engine.store.replay commits) where
  endpoints := built.endpoints_length.trans built.addresses_length.symm
  shaped := by
    rw [built.addresses_length, built.regionCount]
    exact built.shaped_replay commits

open Refresh

variable {config : Config} {engine : Engine} (built : BuiltFrom config engine) (t : Responder)
  (channel : Shutdown.Channel) (events : List (Nat × Event))
include built

/-- The invariant holds along every run of an engine. -/
theorem sound_run : ((Course.start engine.store channel).run t engine.plan events).Sound t engine.plan
    engine.store :=
  Course.sound_run (built.fits []) (Course.sound_start _ channel) events

/-- No run changes the shape of the state. -/
theorem shaped_run : ((Course.start engine.store channel).run t engine.plan events).loop.store.Shaped
    config.pops.length config.regions.length := by
  rw [(built.sound_run t channel events).logged.state]
  exact built.shaped_replay _

end Steering.Engine.BuiltFrom
