import Steering.Engine.Run
import Steering.Proofs.Construction
import Steering.Proofs.NextDue
import Steering.Refresh.Course
/-! What is executed is a course: a schedule that is played while an engine runs, and a refresh by hand
that is followed to its end. -/

namespace Steering

namespace Refresh.Course

variable (t : Responder) (plan : Plan)

/-- Events of the loop and of the signal that bring both to where they are at a moment. -/
structure LeadsTo (course : Course) (moment : Nat) (loop : Loop) (channel : Shutdown.Channel)
    (events : List (Nat × Event)) : Prop where
  alone : ∀ event ∈ events, event.2.isByHand = false
  loop : (course.run t plan events).loop = loop
  channel : (course.run t plan events).channel = channel
  ahead : (course.run t plan events).loop.Ahead (course.run t plan events).clock
  inTime : (course.run t plan events).clock ≤ moment

variable {t plan} {course : Course} {moment : Nat}

theorem LeadsTo.append {before after : List (Nat × Event)} {between loop : Loop}
    {channel signal : Shutdown.Channel}
    (first : course.LeadsTo t plan moment between signal before) {later : Nat}
    (second : (course.run t plan before).LeadsTo t plan later loop channel after) :
    course.LeadsTo t plan later loop channel (before ++ after) where
  alone event member := by
    rcases List.mem_append.mp member with old | new
    · exact first.alone event old
    · exact second.alone event new
  loop := by rw [run_append, second.loop]
  channel := by rw [run_append, second.channel]
  ahead := by
    rw [run_append]
    exact second.ahead
  inTime := by
    rw [run_append]
    exact second.inTime

theorem leadsTo_nil (ahead : course.loop.Ahead course.clock) (inTime : course.clock ≤ moment) :
    course.LeadsTo t plan moment course.loop course.channel [] :=
  ⟨nofun, rfl, rfl, ahead, inTime⟩

/-- A look at a moment that has come. -/
theorem leadsTo_poll (inTime : course.clock ≤ moment) :
    course.LeadsTo t plan moment (course.loop.poll t plan moment 0 course.channel).1
      (course.loop.poll t plan moment 0 course.channel).2 [(moment - course.clock, .poll)] := by
  have clock : course.clock + (moment - course.clock) = moment := Nat.add_sub_of_le inTime
  refine ⟨by simp [Event.isByHand], ?_, ?_, ?_, ?_⟩
  · simp only [run_singleton, step, happen, poll, clock]
  · simp only [run_singleton, step, happen, poll, clock]
  · simp only [run_singleton, step, happen, poll, clock]
    exact Loop.Ahead.mono (Loop.ahead_poll 0 course.channel) (Nat.le_add_right _ _)
  · simp only [run_singleton, step, happen, poll, clock, Nat.le_refl]

/-- A look after something has happened to the signal at a moment that has come. -/
theorem leadsTo_signal (inTime : course.clock ≤ moment) {event : Event} {channel : Shutdown.Channel}
    (alone : event.isByHand = false)
    (changes : { course with clock := moment }.happen t plan event =
      { course with clock := moment, channel }) :
    course.LeadsTo t plan moment (course.loop.poll t plan moment 0 channel).1
      (course.loop.poll t plan moment 0 channel).2
      [(moment - course.clock, event), (0, .poll)] := by
  have clock : course.clock + (moment - course.clock) = moment := Nat.add_sub_of_le inTime
  have changed : course.step t plan (moment - course.clock, event) =
      { course with clock := moment, channel } := by
    rw [step, clock, changes]
  -- The look comes at the moment of the event, so no time passes between them.
  have looked := @leadsTo_poll t plan { course with clock := moment, channel } moment (Nat.le_refl _)
  have same : course.run t plan [(moment - course.clock, event), (0, .poll)] =
      Course.run t plan { course with clock := moment, channel } [(moment - moment, .poll)] := by
    rw [run_cons, changed, Nat.sub_self]
  refine ⟨?_, ?_, ?_, ?_, ?_⟩
  · simp only [List.forall_mem_cons]
    exact ⟨alone, rfl, nofun⟩
  · rw [same]
    exact looked.loop
  · rw [same]
    exact looked.channel
  · rw [same]
    exact looked.ahead
  · rw [same]
    exact looked.inTime

/-- Letting time pass is a course in which the loop is looked at. -/
theorem leadsTo_runUntil (fuel : Nat) (ahead : course.loop.Ahead course.clock)
    (inTime : course.clock ≤ moment) :
    ∃ events, course.LeadsTo t plan moment
      (Loop.runUntil t plan 0 moment fuel (course.loop, course.channel)).1
      (Loop.runUntil t plan 0 moment fuel (course.loop, course.channel)).2 events := by
  induction fuel generalizing course with
  | zero => exact ⟨[], leadsTo_nil ahead inTime⟩
  | succ fuel ih =>
    rw [Loop.runUntil]
    cases waits : course.loop.nextDue? with
    | none => exact ⟨[], leadsTo_nil ahead inTime⟩
    | some due =>
      by_cases before : due < moment
      · simp only [before, if_true]
        have looked := @leadsTo_poll t plan course due (ahead due waits)
        obtain ⟨events, leads⟩ := ih looked.ahead (Nat.le_trans looked.inTime (Nat.le_of_lt before))
        rw [looked.loop, looked.channel] at leads
        exact ⟨_, looked.append leads⟩
      · simp only [before, if_false]
        exact ⟨[], leadsTo_nil ahead inTime⟩

/-- What was done so far, and when. -/
def journal (course : Course) : List (Nat × Entry) :=
  course.history.map fun deed => (deed.moment, deed.entry)

/-- Following a phase begins with a look at it, and ends with it or goes on from there. -/
theorem follow_look (t : Responder) (plan : Plan) (course : Course) (fuel : Nat) {place : Nat}
    (present : place < course.manuals.length) (phase : Phase) :
    ∃ after, course.look t plan place phase = after ∧ after.clock = course.clock ∧
      after.manuals.length = course.manuals.length ∧
      ((∃ crashed, phase.followFrom t plan (fuel + 1) course.clock course.journal course.loop.store =
          ⟨course.clock, after.loop.store, after.journal, crashed⟩) ∨
        ∃ left due, after.manuals[place]? = some (.going left) ∧ course.clock ≤ due ∧
          phase.followFrom t plan (fuel + 1) course.clock course.journal course.loop.store =
            left.followFrom t plan fuel due after.journal after.loop.store) := by
  cases polled : phase.poll t plan course.clock course.loop.store with
  | mk entries rest =>
  obtain ⟨store, progress⟩ := rest
  have grown : course.journal ++ entries.map (course.clock, ·) =
      (course.look t plan place phase).journal := by
    simp [look, polled, journal, Function.comp_def]
  have stored : store = (course.look t plan place phase).loop.store := by simp [look, polled]
  refine ⟨_, rfl, ?_, ?_, ?_⟩
  · simp [look, polled]
  · simp [look, polled]
  · simp only [Phase.followFrom, polled, grown]
    rw [stored]
    cases progress with
    | finished => exact .inl ⟨_, rfl⟩
    | crashed left => exact .inl ⟨_, rfl⟩
    | waiting left =>
      cases waits : left.dues.min? with
      | none =>
        simp only [waits]
        exact .inl ⟨_, rfl⟩
      | some due =>
        simp only [waits]
        refine .inr ⟨left, due, ?_, ?_, rfl⟩
        · simp [look, polled, present, Manual.ofProgress]
        · exact Nat.le_of_lt (Phase.lt_due_poll polled due (List.min?_mem waits))

/-- Following a refresh by hand is a course in which it is looked at. -/
theorem run_follow (t : Responder) (plan : Plan) (course : Course) (fuel : Nat) {place : Nat}
    (present : place < course.manuals.length) (phase : Phase) :
    ∃ events, (∀ event ∈ events, event.2.isByHand = true) ∧
      ((course.look t plan place phase).run t plan events).loop.store =
        (phase.followFrom t plan (fuel + 1) course.clock course.journal course.loop.store).store ∧
      ((course.look t plan place phase).run t plan events).journal =
        (phase.followFrom t plan (fuel + 1) course.clock course.journal
          course.loop.store).journal := by
  obtain ⟨after, looked, clock, length, ⟨crashed, stops⟩ | ⟨left, due, going, later, goes⟩⟩ :=
    follow_look t plan course fuel present phase
  · rw [looked, stops]
    exact ⟨[], nofun, rfl, rfl⟩
  · rw [looked, goes]
    cases fuel with
    | zero => exact ⟨[], nofun, rfl, rfl⟩
    | succ fuel =>
      let event : Nat × Event := (due - after.clock, .look place)
      have moment : after.clock + (due - after.clock) = due := by omega
      have next : after.step t plan event = Course.look t plan place left { after with clock := due } := by
        simp only [event, step, happen, going, moment]
      obtain ⟨events, byHand, store, journal⟩ :=
        run_follow t plan { after with clock := due } fuel (length ▸ present) left
      refine ⟨event :: events, ?_, ?_, ?_⟩
      · simp only [List.forall_mem_cons]
        exact ⟨rfl, byHand⟩
      · rw [run_cons, next]
        exact store
      · rw [run_cons, next]
        exact journal

end Refresh.Course

namespace Engine

open Refresh

variable {engine : Engine} {t : Responder}

/-- The course of an engine after events. -/
def course (engine : Engine) (t : Responder) (channel : Shutdown.Channel)
    (events : List (Nat × Event)) : Course :=
  (Course.start engine.store channel).run t engine.plan events

theorem leadsTo_passUntil {course : Course} {running : Running} {moment : Nat}
    (loop : course.loop = running.loop) (channel : course.channel = running.channel)
    (ahead : course.loop.Ahead course.clock) (inTime : course.clock ≤ moment) :
    ∃ events, course.LeadsTo t engine.plan moment (engine.passUntil t moment running).loop
      (engine.passUntil t moment running).channel events := by
  have leads := @Course.leadsTo_runUntil t engine.plan course moment (moment + 1) ahead inTime
  rw [loop, channel] at leads
  exact leads

/-- What happens at a moment that has come is a course as well. -/
theorem leadsTo_happen {course : Course} {running : Running} {moment : Nat}
    (loop : course.loop = running.loop) (channel : course.channel = running.channel)
    (ahead : course.loop.Ahead course.clock) (inTime : course.clock ≤ moment)
    (happening : Happening) :
    ∃ events, course.LeadsTo t engine.plan moment (engine.happen t moment running happening).loop
      (engine.happen t moment running happening).channel events := by
  cases happening with
  | look =>
    have leads := @Course.leadsTo_nil t engine.plan course moment ahead inTime
    rw [loop, channel] at leads
    exact ⟨[], leads⟩
  | send value =>
    have leads := @Course.leadsTo_signal t engine.plan course moment inTime (.send value) _ rfl rfl
    rw [loop, channel] at leads
    exact ⟨_, leads⟩
  | dropSender =>
    have leads := @Course.leadsTo_signal t engine.plan course moment inTime .dropSender _ rfl rfl
    rw [loop, channel] at leads
    exact ⟨_, leads⟩

theorem mem_seen_happen {running : Running} {moment : Nat} {happening : Happening} {store : Store}
    (member : store ∈ (engine.happen t moment running happening).seen) :
    store ∈ running.seen ∨ store = running.loop.store := by
  cases happening with
  | look =>
    rcases List.mem_append.mp member with old | new
    · exact .inl old
    · exact .inr (List.mem_singleton.mp new)
  | send value => exact .inl member
  | dropSender => exact .inl member

/-- Playing a schedule on from a course goes on with the course, and every state that is seen is one
that the course goes through. -/
theorem course_play {course : Course} {running : Running} {schedule : List (Nat × Happening)}
    (loop : course.loop = running.loop) (channel : course.channel = running.channel)
    (ahead : course.loop.Ahead course.clock)
    (inTime : ∀ entry ∈ schedule, course.clock ≤ entry.1)
    (sorted : schedule.Pairwise fun earlier later => earlier.1 ≤ later.1) :
    ∃ events, (∀ event ∈ events, event.2.isByHand = false) ∧
      (course.run t engine.plan events).loop = (engine.play t schedule running).loop ∧
      (course.run t engine.plan events).channel = (engine.play t schedule running).channel ∧
      ∀ store ∈ (engine.play t schedule running).seen, store ∈ running.seen ∨
        ∃ part, part <+: events ∧ (course.run t engine.plan part).loop.store = store := by
  induction schedule generalizing course running with
  | nil => exact ⟨[], nofun, loop, channel, fun store member => .inl member⟩
  | cons entry rest ih =>
    obtain ⟨moment, happening⟩ := entry
    simp only [List.forall_mem_cons] at inTime
    obtain ⟨first, rest_sorted⟩ := List.pairwise_cons.mp sorted
    obtain ⟨passing, passes⟩ := @leadsTo_passUntil engine t course running moment loop channel ahead
      inTime.1
    obtain ⟨making, makes⟩ := @leadsTo_happen engine t (course.run t engine.plan passing)
      (engine.passUntil t moment running) moment passes.loop passes.channel passes.ahead
      passes.inTime happening
    have both := passes.append makes
    obtain ⟨events, alone, loopThen, channelThen, seen⟩ := ih both.loop both.channel both.ahead
      (fun later member => Nat.le_trans both.inTime (first later member)) rest_sorted
    rw [← Course.run_append] at loopThen channelThen
    refine ⟨passing ++ making ++ events, ?_, loopThen, channelThen, ?_⟩
    · intro event member
      rcases List.mem_append.mp member with old | new
      · exact both.alone event old
      · exact alone event new
    · intro store member
      rcases seen store member with old | ⟨part, upTo, its⟩
      · rcases mem_seen_happen old with before | rfl
        · exact .inl before
        · refine .inr ⟨passing, ?_, congrArg Loop.store passes.loop⟩
          rw [List.append_assoc]
          exact List.prefix_append _ _
      · refine .inr ⟨passing ++ making ++ part, ?_, ?_⟩
        · exact List.prefix_append_right_inj _ |>.mpr upTo
        · rw [Course.run_append]
          exact its

/-- An engine that starts has looked at its loop once. -/
theorem running_of_start {listener : Listener} {names : Net.NameService}
    {channel : Shutdown.Channel} {running : Running}
    (started : engine.start t listener channel names = .ok running) :
    running.loop = (engine.course t channel [(0, .poll)]).loop ∧
      running.channel = (engine.course t channel [(0, .poll)]).channel ∧ running.seen = [] := by
  cases listening : engine.listen listener names with
  | error failure => simp [start, listening, bind, Except.bind] at started
  | ok dashboard =>
    simp only [start, listening, bind, Except.bind, pure, Except.pure, Except.ok.injEq] at started
    subst started
    exact ⟨rfl, rfl, rfl⟩

/-- Whatever is played while an engine runs is a course of it. -/
theorem course_of_play {listener : Listener} {names : Net.NameService}
    {channel : Shutdown.Channel} {running : Running}
    (started : engine.start t listener channel names = .ok running)
    {schedule : List (Nat × Happening)}
    (sorted : schedule.Pairwise fun earlier later => earlier.1 ≤ later.1) :
    ∃ events, (∀ event ∈ events, event.2.isByHand = false) ∧
      (engine.course t channel events).loop = (engine.play t schedule running).loop ∧
      (engine.course t channel events).channel = (engine.play t schedule running).channel ∧
      ∀ store ∈ (engine.play t schedule running).seen,
        ∃ part, part <+: events ∧ (engine.course t channel part).loop.store = store := by
  have begins := @Course.leadsTo_poll t engine.plan (Course.start engine.store channel) 0
    (Nat.le_refl _)
  obtain ⟨loop, signal, nothing⟩ := running_of_start started
  obtain ⟨events, alone, loopThen, signalThen, seen⟩ := course_play (t := t) loop.symm signal.symm
    begins.ahead (fun entry _ => Nat.le_trans begins.inTime (Nat.zero_le _)) sorted
  refine ⟨(0, .poll) :: events, ?_, loopThen, signalThen, ?_⟩
  · simp only [List.forall_mem_cons]
    exact ⟨rfl, alone⟩
  · intro store member
    rcases seen store member with before | ⟨part, upTo, its⟩
    · rw [nothing] at before
      cases before
    · exact ⟨(0, .poll) :: part, List.cons_prefix_cons.mpr ⟨rfl, upTo⟩, its⟩

/-- A refresh by hand that is followed to its end is a course in which nothing else happens. -/
theorem course_of_refresh (engine : Engine) (t : Responder) (channel : Shutdown.Channel) (now : Nat)
    {phase : Phase} {begins : Event}
    (kind : begins = .beginStatus ∧ phase = .beginStatus engine.plan now ∨
      begins = .beginLatency ∧ phase = .beginLatency engine.plan now) :
    ∃ events, (∀ event ∈ events, event.2.isByHand = true) ∧
      (engine.course t channel ((now, begins) :: events)).loop.store =
        (engine.refresh t now phase).engine.store ∧
      (engine.course t channel ((now, begins) :: events)).journal =
        (phase.follow t engine.plan now engine.store).journal := by
  let asked : Course := ⟨now, .start 0 engine.store, channel, [.going phase], [], []⟩
  have first : (Course.start engine.store channel).step t engine.plan (now, begins) =
      asked.look t engine.plan 0 phase := by
    have clock : 0 + now = now := Nat.zero_add now
    rcases kind with ⟨rfl, rfl⟩ | ⟨rfl, rfl⟩ <;>
      simp only [Course.step, Course.happen, Course.begin, Course.start, clock] <;> rfl
  obtain ⟨events, byHand, store, journal⟩ := Course.run_follow t engine.plan asked
    (engine.plan.addresses.length + engine.plan.regionCount * engine.plan.endpoints.length)
    Nat.zero_lt_one phase
  refine ⟨events, byHand, ?_, ?_⟩
  · rw [course, Course.run_cons, first]
    exact store
  · rw [course, Course.run_cons, first]
    exact journal

end Engine

end Steering
