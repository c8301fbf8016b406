import Steering.Proofs.CommitLog
import Steering.Proofs.CrashLook
import Steering.Proofs.CycleClock
import Steering.Proofs.PlayedCourse
/-! How stale a state can be that the loop keeps fresh: whatever is answered to it, short of a
crash, it completes a cycle within every period, and commits the records at least that often. -/

namespace Steering.Refresh

/-- No call crashes that ends. -/
structure Responder.Calm (t : Responder) : Prop where
  fetch : ∀ now place address, (t.fetch now place address).delay ≠ none →
    (t.fetch now place address).outcome ≠ .crash
  measure : ∀ now region place endpoint, (t.measure now region place endpoint).delay ≠ none →
    (t.measure now region place endpoint).outcome ≠ .crash

theorem Reply.outcome_call_ne_crash {ε α : Type} {reply : Reply ε α}
    (calm : reply.delay ≠ none → reply.outcome ≠ .crash) (late : ε) (now deadline : Nat) :
    (reply.call late now deadline).outcome ≠ .crash := by
  unfold Reply.call
  split
  · rename_i delay waits
    split
    · exact calm (by rw [waits]; nofun)
    · nofun
  · nofun

variable {t : Responder} {plan : Plan} {seen : List (Nat × Entry)} {now clock : Nat}

/-! ## Calls that do not crash -/

section Calm

variable (calm : t.Calm)
include calm

theorem not_measureCrashes {deadline region place : Nat} (endpoints : List String) :
    ¬ MeasureCrashes t now deadline region place endpoints := by
  intro crashes
  induction crashes with
  | here crashes => exact Reply.outcome_call_ne_crash (calm.measure _ _ _ _) _ _ _ crashes.2
  | later ends crashes ih => exact ih

theorem Pass.not_crashes {began deadline region : Nat} {endpoints : List String} {pass : Pass}
    (stands : pass = .fresh ∨ pass.Sound t [] seen endpoints began deadline now region) :
    ¬ pass.Crashes t now deadline region endpoints := by
  rintro (crashes | crashes | ⟨ends, crashes⟩)
  · exact not_measureCrashes calm _ crashes
  · rcases stands with same | sound
    · cases same
    · cases sound with
      | waiting split before later past current bounded =>
        rcases current.answered with own | told
        · exact Reply.outcome_call_ne_crash (calm.measure _ _ _ _) _ _ _ (own ▸ crashes.2)
        · cases told
  · exact not_measureCrashes calm _ crashes

theorem not_slotsCrash {began deadline : Nat} {slots : List (Net.Ipv4 × Slot)}
    (stands : ∀ x ∈ slots.zipIdx, x.1.2 = .fresh ∨
      x.1.2.Sound t [] seen began deadline now x.2 x.1.1) : ¬ SlotsCrash t now deadline 0 slots := by
  rintro ⟨x, member, call, its, crashes⟩
  have here := stands x member
  obtain ⟨⟨address, slot⟩, place⟩ := x
  cases slot with
  | fresh =>
    cases its
    exact Reply.outcome_call_ne_crash (calm.fetch _ _ _) _ _ _ crashes.2
  | done status => cases its
  | waiting made =>
    cases its
    rcases here with same | sound
    · cases same
    · cases sound with
      | waiting fetched bounded =>
        rcases fetched.answered with own | told
        · exact Reply.outcome_call_ne_crash (calm.fetch _ _ _) _ _ _ (own ▸ crashes.2)
        · cases told

theorem Phase.not_crashes {phase : Phase} (ready : phase.Ready t [] seen plan now) :
    ¬ phase.Crashes t plan now := by
  rintro (crash | ⟨member, crashes⟩)
  · cases ready with
    | beginsStatus =>
      refine @not_slotsCrash t [] now calm now _ _ (fun x member => .inl ?_) crash
      have found := List.mem_of_getElem? (List.mem_zipIdx_iff_getElem?.mp member)
      obtain ⟨address, -, same⟩ := List.mem_map.mp found
      rw [← same]
    | goesOn sound =>
      cases sound with
      | status addresses sound =>
        exact not_slotsCrash calm (fun x member => .inr (sound x member)) crash
  · cases ready with
    | beginsLatency =>
      have found := List.mem_of_getElem? (List.mem_zipIdx_iff_getElem?.mp member)
      have fresh := List.eq_of_mem_replicate found
      exact @Pass.not_crashes t [] now calm now _ _ _ _ (.inl fresh) crashes
    | goesOn sound =>
      cases sound with
      | latency length sound => exact Pass.not_crashes calm (.inr (sound _ member)) crashes

theorem Stage.not_crashes {stage : Stage} (sound : stage.Sound t [] seen plan now) :
    ¬ stage.Crashes t plan now := by
  have begins {phase : Phase} (ready : phase.Ready t [] [] plan now) := Phase.not_crashes calm ready
  intro crashes
  cases crashes with
  | here crashes => exact Phase.not_crashes calm (.goesOn sound) crashes
  | next ended crashes => exact begins .beginsLatency crashes
  | wakes passed crashes =>
    cases crashes with
    | here crashes => exact begins .beginsStatus crashes
    | next ended crashes => exact begins .beginsLatency crashes

end Calm

/-! ## A loop that is looked at in time -/

/-- If the loop has been stopped, this was within the time of its stage. -/
def Loop.StoppedInTime (loop : Loop) : Prop :=
  ∀ moment outcome, loop.ending = some (moment, .shutdown outcome) → moment ≤ loop.stage.deadline

theorem Loop.stoppedInTime_of_going {loop : Loop} (going : loop.ending = none) :
    loop.StoppedInTime := by
  intro moment outcome stopped
  cases going.symm.trans stopped

theorem Loop.stoppedInTime_finish {loop : Loop} (inTime : now ≤ loop.stage.deadline)
    (ending : Ending) : (loop.finish now ending).StoppedInTime := by
  intro moment outcome stopped
  cases stopped
  exact inTime

variable (t plan now) in
/-- A loop that has been looked at whenever it waited for something. -/
structure Loop.Steady (loop : Loop) : Prop where
  fits : plan.Fits loop.store
  alive : loop.Alive
  sound : loop.stage.Sound t [] loop.journal plan now
  clocked : loop.Clocked plan now
  prompt : loop.Prompt
  stopped : loop.StoppedInTime

section Steady

variable {loop : Loop}

theorem Loop.Steady.mono (steady : loop.Steady t plan clock) (passed : clock ≤ now) :
    loop.Steady t plan now :=
  { steady with
    sound := steady.sound.mono (List.Subset.refl _) (List.Subset.refl _) passed
    clocked := ⟨steady.clocked.spaced, fun alive => (steady.clocked.timed alive).mono passed⟩ }

theorem Loop.steady_start {store : Store} (fits : plan.Fits store) :
    (Loop.start 0 store).Steady t plan 0 where
  fits := fits
  alive := alive_of_going rfl
  sound := trivial
  clocked := ⟨.nil, fun _ => .sleeping ⟨Nat.zero_le _, nofun⟩⟩
  prompt := prompt_of_sleeping rfl
  stopped := stoppedInTime_of_going rfl

variable (calm : t.Calm)
include calm

/-- A look before which nothing else is due keeps a loop steady. -/
theorem Loop.Steady.poll (steady : loop.Steady t plan clock) (passed : clock ≤ now)
    (ahead : loop.Ahead now) (receiver : Nat) (channel : Shutdown.Channel) :
    (loop.poll t plan now receiver channel).1.Steady t plan now := by
  have later := steady.mono passed
  cases ended : loop.ending with
  | some last =>
    have same : (loop.poll t plan now receiver channel).1 = loop := by
      simp only [Loop.poll, ended, Option.isSome_some, if_true]
    rwa [same]
  | none =>
    have inTime := steady.prompt.inTime ended ahead
    cases signal : channel.outcome? with
    | some outcome =>
      have same : (loop.poll t plan now receiver channel).1 =
          loop.finish now (.shutdown outcome) := by
        simp only [Loop.poll, ended, Option.isSome_none, Bool.false_eq_true, if_false,
          channel.wait_eq, signal]
      rw [same]
      exact ⟨later.fits, alive_finish_shutdown outcome, later.sound, ⟨later.clocked.spaced,
        fun _ => later.clocked.timed (alive_of_going ended)⟩, prompt_of_ended rfl,
        stoppedInTime_finish inTime _⟩
    | none =>
      have same : (loop.poll t plan now receiver channel).1 = loop.proceed t plan now := by
        simp only [Loop.poll, ended, Option.isSome_none, Bool.false_eq_true, if_false,
          channel.wait_eq, signal]
      have goes : (loop.proceed t plan now).ending = none := by
        rcases @Loop.proceed_crashes_iff t plan now loop ended with ⟨-, crashes⟩ | ⟨goes, -⟩
        · exact absurd crashes (Stage.not_crashes calm later.sound)
        · exact goes
      obtain ⟨entries, grown⟩ := Loop.proceed_grown later.fits ended later.sound
      rw [same]
      refine ⟨?_, alive_of_going goes, grown.sound goes,
        clocked_proceed later.fits steady.clocked ended passed inTime later.sound,
        prompt_proceed later.fits ended later.sound, stoppedInTime_of_going goes⟩
      rw [grown.accounted.replay]
      exact later.fits.replay _

theorem Loop.Steady.runUntil {receiver limit : Nat} (fuel : Nat) {channel : Shutdown.Channel}
    (steady : loop.Steady t plan clock) (ahead : loop.Ahead clock) (inTime : clock ≤ limit) :
    (Loop.runUntil t plan receiver limit fuel (loop, channel)).1.Steady t plan limit := by
  induction fuel generalizing loop channel clock with
  | zero => exact steady.mono inTime
  | succ fuel ih =>
    rw [Loop.runUntil]
    cases waits : loop.nextDue? with
    | none => exact steady.mono inTime
    | some due =>
      by_cases before : due < limit
      · simp only [before, if_true]
        have here : loop.Ahead due := fun other its => by
          cases waits.symm.trans its
          exact Nat.le_refl due
        have looked := steady.poll calm (ahead due waits) here receiver channel
        exact ih looked (Loop.Ahead.mono (Loop.ahead_poll receiver channel) (Nat.le_add_right _ _))
          (Nat.le_of_lt before)
      · simp only [before, if_false]
        exact steady.mono inTime

omit calm in
/-- A loop that is looked at in time has completed as many cycles as periods have passed. -/
theorem Loop.Steady.completed {cycles : Nat} (steady : loop.Steady t plan now)
    (pause : 0 < plan.interval) (ahead : loop.Ahead now)
    (unstopped : ∀ moment outcome, loop.ending = some (moment, .shutdown outcome) → now ≤ moment)
    (counted : 3 * (statusMoments loop.journal).length + loop.stage.turn ≤ 3 * cycles + 3) :
    now / plan.period ≤ cycles := by
  have inTime : now ≤ loop.stage.deadline := by
    cases ended : loop.ending with
    | none => exact steady.prompt.inTime ended ahead
    | some last =>
      obtain ⟨moment, ending⟩ := last
      cases ending with
      | crashed => exact absurd ended (steady.alive moment)
      | shutdown outcome =>
        exact Nat.le_trans (unstopped moment outcome ended) (steady.stopped moment outcome ended)
  rcases (steady.clocked.timed steady.alive).deadline_le pause with
    ⟨bound, turn⟩ | ⟨bound, turn⟩ | ⟨bound, turn⟩
  · have few := Nat.div_le_of_le_mul (Nat.mul_comm _ _ ▸ Nat.le_trans inTime bound)
    omega
  · have few := Nat.div_lt_of_lt_mul (Nat.mul_comm _ _ ▸ Nat.lt_of_le_of_lt inTime bound)
    omega
  · have few := Nat.div_lt_of_lt_mul (Nat.mul_comm _ _ ▸ Nat.lt_of_le_of_lt inTime bound)
    omega

end Steady

end Steering.Refresh

namespace Steering.Engine

open Refresh

/-! ## An engine that runs -/

section Run

variable {engine : Engine} {t : Responder} {running : Running} {clock moment : Nat}
  (pause : 0 < engine.plan.interval) (calm : t.Calm)
include pause calm

theorem steady_passUntil (steady : running.loop.Steady t engine.plan clock)
    (ahead : running.loop.Ahead clock) (inTime : clock ≤ moment) :
    (engine.passUntil t moment running).loop.Steady t engine.plan moment ∧
      (engine.passUntil t moment running).loop.Ahead moment := by
  have enough : moment ≤ 0 + (moment + 1) := by omega
  refine ⟨?_, Loop.ahead_runUntil pause enough fun _ _ => Nat.zero_le _⟩
  exact @Loop.Steady.runUntil t engine.plan clock running.loop calm 0 moment (moment + 1)
    running.channel steady ahead inTime

omit pause in
theorem steady_happen (steady : running.loop.Steady t engine.plan moment)
    (ahead : running.loop.Ahead moment) (happening : Happening) :
    (engine.happen t moment running happening).loop.Steady t engine.plan moment ∧
      (engine.happen t moment running happening).loop.Ahead moment := by
  have looked (channel : Shutdown.Channel) :
      (running.loop.poll t engine.plan moment 0 channel).1.Steady t engine.plan moment ∧
        (running.loop.poll t engine.plan moment 0 channel).1.Ahead moment :=
    ⟨steady.poll calm (Nat.le_refl _) ahead 0 channel,
      Loop.Ahead.mono (Loop.ahead_poll 0 channel) (Nat.le_add_right _ _)⟩
  cases happening with
  | look => exact ⟨steady, ahead⟩
  | send value => exact looked _
  | dropSender => exact looked _

/-- Whatever happens to a loop that is looked at in time, it goes on to be. -/
theorem steady_play {schedule : List (Nat × Happening)}
    (steady : running.loop.Steady t engine.plan clock) (ahead : running.loop.Ahead clock)
    (inTime : clock ≤ moment) (later : ∀ entry ∈ schedule, clock ≤ entry.1 ∧ entry.1 ≤ moment)
    (sorted : schedule.Pairwise fun earlier later => earlier.1 ≤ later.1) :
    (engine.passUntil t moment (engine.play t schedule running)).loop.Steady t engine.plan moment ∧
      (engine.passUntil t moment (engine.play t schedule running)).loop.Ahead moment := by
  induction schedule generalizing running clock with
  | nil => exact steady_passUntil pause calm steady ahead inTime
  | cons entry rest ih =>
    obtain ⟨first, restSorted⟩ := List.pairwise_cons.mp sorted
    obtain ⟨⟨after, before⟩, others⟩ := List.forall_mem_cons.mp later
    obtain ⟨waited, due⟩ := steady_passUntil pause calm steady ahead after
    obtain ⟨happened, next⟩ := steady_happen calm waited due entry.2
    exact ih happened next before
      (fun other member => ⟨first other member, (others other member).2⟩) restSorted

section Started

variable {listener : Listener} {names : Net.NameService} {channel : Shutdown.Channel}
  {schedule : List (Nat × Happening)}
  (started : engine.start t listener channel names = .ok running)
  (sorted : schedule.Pairwise fun earlier later => earlier.1 ≤ later.1)
  (inTime : ∀ entry ∈ schedule, entry.1 ≤ moment)
include started sorted inTime

/-- From the start of an engine on its loop is looked at in time. -/
theorem steady_of_start (fits : engine.plan.Fits engine.store) :
    (engine.passUntil t moment (engine.play t schedule running)).loop.Steady t engine.plan moment ∧
      (engine.passUntil t moment (engine.play t schedule running)).loop.Ahead moment := by
  obtain ⟨loop, -, -⟩ := running_of_start started
  have ahead : (Loop.start 0 engine.store).Ahead 0 := fun _ _ => Nat.zero_le _
  have begins : running.loop.Steady t engine.plan 0 := by
    rw [loop]
    exact (Loop.steady_start fits).poll calm (Nat.le_refl 0) ahead 0 channel
  exact steady_play pause calm begins (fun _ _ => Nat.zero_le _) (Nat.zero_le moment)
    (fun entry member => ⟨Nat.zero_le _, inTime entry member⟩) sorted

omit pause calm in
/-- What the loop has come to after a while is what it comes to in a course of events. -/
theorem course_of_passUntil : ∃ events, (∀ event ∈ events, event.2.isByHand = false) ∧
    (engine.course t channel events).loop =
      (engine.passUntil t moment (engine.play t schedule running)).loop := by
  -- Looking at the state at the end makes the time until then a part of the schedule.
  have whole : (schedule ++ [(moment, Happening.look)]).Pairwise
      fun earlier later => earlier.1 ≤ later.1 := by
    refine List.pairwise_append.mpr ⟨sorted, List.pairwise_singleton _ _, ?_⟩
    intro entry member last same
    cases List.mem_singleton.mp same
    exact inTime entry member
  obtain ⟨events, alone, course, -, -⟩ := course_of_play started whole
  refine ⟨events, alone, course.trans ?_⟩
  simp only [play, List.foldl_append, List.foldl_cons, List.foldl_nil, happen]

end Started

end Run

/-- As long as nobody stops an engine, its loop completes a cycle in every period, which is the
time that both phases may take and the pause after them, and commits the records once in every
period, but not before the pause is over. -/
theorem bounded_staleness {config : Config} {ownProbers : Bool} {names : Net.NameService}
    {engine : Engine} (built : build config ownProbers names = .ok engine)
    (earlier : List Commit) {t : Responder}
    (calm : t.Calm) {listener : Listener} {namesThen : Net.NameService}
    {channel : Shutdown.Channel} {running : Running}
    (started : start { engine with store := engine.store.replay earlier } t listener channel
      namesThen = .ok running)
    {schedule : List (Nat × Happening)}
    (sorted : schedule.Pairwise fun earlier later => earlier.1 ≤ later.1) {moment : Nat}
    (inTime : ∀ entry ∈ schedule, entry.1 ≤ moment)
    (unstopped : ∀ stopped outcome,
      (passUntil { engine with store := engine.store.replay earlier } t moment
        (play { engine with store := engine.store.replay earlier } t schedule
          running)).loop.ending =
          some (stopped, .shutdown outcome) → moment ≤ stopped) :
    let first := engine.store.replay earlier
    let served : Engine := { engine with store := first }
    let final := (served.passUntil t moment (served.play t schedule running)).loop
    let entries := final.journal.map Prod.snd
    let interval := config.refresh.interval
    let period := config.refresh.statusTimeout + config.refresh.latencyTimeout + interval
    let full := moment / period * (1 + config.regions.length)
    (∃ orders : List (List Nat), moment / period ≤ orders.length ∧
      (∀ order ∈ orders, order.Perm (List.range config.regions.length)) ∧
      orders.flatMap cycle <+: targets entries) ∧
    (full ≤ (commits entries).length ∧
      final.store.version = first.version + .ofNat (commits entries).length ∧
      (first.version.toNat + (commits entries).length < UInt32.size →
        first.version.toNat + full ≤ final.store.version.toNat)) ∧
    (statusMoments final.journal).IsChain fun before after =>
      before + interval ≤ after ∧ after ≤ before + period := by
  intro first served final entries interval period full
  have parts := builtFrom_of_build built
  have plan : served.plan = planOf config := parts.plan
  have pause : 0 < served.plan.interval := parts.interval_pos
  have fits : served.plan.Fits first := parts.fits earlier
  have regions : served.plan.regionCount = config.regions.length := parts.regionCount
  obtain ⟨steady, ahead⟩ := steady_of_start pause calm started sorted inTime fits
  obtain ⟨events, alone, same⟩ := course_of_passUntil started sorted inTime
  have counted : (served.course t channel events).loop.store.version = first.version +
      .ofNat (commits ((served.course t channel events).loop.journal.map Prod.snd)).length :=
    Course.version_of_alone fits channel alone
  have sound : (served.course t channel events).Sound t served.plan first :=
    Course.sound_run fits (Course.sound_start first channel) events
  obtain ⟨orders, perms, done, far⟩ := sound.cyclic.completed
  rw [same] at counted done far
  rw [← length_statusMoments] at far
  have many := steady.completed pause ahead unstopped far
  rw [plan] at many
  have count : full ≤ (commits entries).length := by
    have length := done.length_le
    rw [length_cycles perms, targets, List.length_map, regions] at length
    exact Nat.le_trans (Nat.mul_le_mul_right _ many) length
  refine ⟨⟨orders, many, regions ▸ perms, done⟩, ⟨count, counted, fun below => ?_⟩, ?_⟩
  · rw [counted, UInt32.toNat_add, UInt32.toNat_ofNat', Nat.add_mod_mod, Nat.mod_eq_of_lt below]
    exact Nat.add_le_add_left count _
  · have spaced := steady.clocked.spaced
    rw [plan] at spaced
    exact spaced

/-- Nobody ever answers, somebody looks at the state, and the signal is sent without asking for an
end. -/
theorem bounded_staleness_silent : ∃ engine running, build twoPops true = .ok engine ∧
    engine.start .silent (fun _ => .error "") .initial = .ok running ∧
    let final := (engine.passUntil .silent 150000
      (engine.play .silent [(1000, .look), (20000, .send false)] running)).loop
    4 ≤ (commits (final.journal.map Prod.snd)).length ∧
      (statusMoments final.journal).IsChain fun before after =>
        before + 30000 ≤ after ∧ after ≤ before + 70000 := by
  have runs : ((build twoPops true).toOption.any fun engine =>
      (engine.start .silent (fun _ => .error "") .initial).toOption.any fun running =>
        (engine.passUntil .silent 150000
          (engine.play .silent [(1000, .look), (20000, .send false)] running)).loop.ending.isNone) =
      true := by decide +kernel
  obtain ⟨engine, built⟩ := build_twoPops
  rw [built] at runs
  cases started : engine.start .silent (fun _ => .error "") .initial with
  | error failure =>
    simp [Except.toOption, started] at runs
  | ok running =>
    simp only [Except.toOption, started, Option.any_some, Option.isNone_iff_eq_none] at runs
    have calm : Responder.Calm .silent := ⟨fun _ _ _ ends => absurd rfl ends,
      fun _ _ _ _ ends => absurd rfl ends⟩
    have sorted : [(1000, Happening.look), (20000, .send false)].Pairwise
        fun earlier later => earlier.1 ≤ later.1 := by decide
    have inTime : ∀ entry ∈ [(1000, Happening.look), (20000, .send false)], entry.1 ≤ 150000 := by
      decide
    obtain ⟨-, ⟨many, -⟩, spaced⟩ := bounded_staleness built [] calm started sorted inTime
      fun stopped outcome ended => by
        have going := runs.symm.trans ended
        cases going
    exact ⟨engine, running, built, started, many, spaced⟩

end Steering.Engine
