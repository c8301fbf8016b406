import Steering.Proofs.LateLook
import Steering.Proofs.SignalWait
import Steering.Refresh.Loop
/-! The moments that a loop waits for. They lie ahead of the look after which it waits for them, so
looking at each of them in turn lets all the time pass that is to pass. -/

namespace Steering.Refresh

variable {t : Responder} {plan : Plan} {now : Nat} {store next : Store} {entries : List Entry}

/-- A phase waits for moments after the look that leaves it waiting. -/
theorem Phase.lt_due_poll {phase after : Phase}
    (result : phase.poll t plan now store = (entries, next, .waiting after)) :
    ∀ due ∈ after.dues, now < due := by
  intro due waits
  cases phase with
  | status deadline slots =>
    simp only [poll] at result
    split at result
    · cases result
    · rename_i fetches left polled
      split at result
      · cases result
        obtain ⟨x, member, its⟩ := List.mem_filterMap.mp waits
        obtain ⟨address, slot⟩ := x
        cases slot with
        | waiting call =>
          cases its
          exact lt_due_pollSlots polled _ member call rfl
        | fresh => cases its
        | done status => cases its
      · cases result
  | latency deadline passes =>
    cases polled : pollPasses t plan.endpoints now deadline 0 passes store with
    | mk made rest =>
    obtain ⟨last, left, alive⟩ := rest
    simp only [poll, polled, Prod.mk.injEq] at result
    obtain ⟨-, -, stands⟩ := result
    cases alive with
    | false => cases stands
    | true =>
      simp only [Bool.not_true, Bool.false_eq_true, if_false] at stands
      split at stands
      · cases stands
      · cases stands
        obtain ⟨pass, member, its⟩ := List.mem_filterMap.mp waits
        cases pass with
        | waiting latencies call remaining =>
          cases its
          exact lt_due_pollPasses polled _ member latencies call remaining rfl
        | fresh => cases its
        | finished latencies => cases its

/-- Whether a loop waits for nothing before a moment. -/
def Loop.Ahead (moment : Nat) (loop : Loop) : Prop :=
  ∀ due, loop.nextDue? = some due → moment ≤ due

namespace Loop

variable {loop : Loop}

theorem Ahead.mono {moment earlier : Nat} (ahead : loop.Ahead moment) (before : earlier ≤ moment) :
    loop.Ahead earlier :=
  fun due waits => Nat.le_trans before (ahead due waits)

theorem ahead_of_ended (ended : loop.ending.isSome = true) (moment : Nat) : loop.Ahead moment := by
  intro due waits
  rw [nextDue?, if_pos ended] at waits
  cases waits

theorem ahead_of_sleeping {wakeUp moment : Nat} (stage : loop.stage = .sleeping wakeUp)
    (before : moment ≤ wakeUp) : loop.Ahead moment := by
  intro due waits
  unfold nextDue? at waits
  split at waits
  · cases waits
  · rw [stage] at waits
    cases waits
    exact before

theorem ahead_of_working {phase : Phase} {moment : Nat} (stage : loop.stage = .working phase)
    (before : ∀ due ∈ phase.dues, moment ≤ due) : loop.Ahead moment := by
  intro due waits
  unfold nextDue? at waits
  split at waits
  · cases waits
  · rw [stage] at waits
    exact before due (List.min?_mem waits)

/-- A look at a phase leaves the loop ahead of the look, or where it goes on when the phase has
ended. -/
theorem ahead_work (phase : Phase) (next : Stage) :
    (loop.work t plan now phase next).Ahead (now + 1) ∨
      (loop.work t plan now phase next).stage = next := by
  cases polled : phase.poll t plan now loop.store with
  | mk entries rest =>
  obtain ⟨store, progress⟩ := rest
  simp only [work, polled]
  cases progress with
  | waiting after => exact .inl (ahead_of_working rfl (Phase.lt_due_poll polled))
  | finished => exact .inr rfl
  | crashed after => exact .inl (ahead_of_ended rfl _)

theorem ahead_workLatency {deadline : Nat} {passes : List Pass}
    (stage : loop.stage = .working (.latency deadline passes)) :
    (loop.workLatency t plan now).Ahead (now + min 1 plan.interval) := by
  simp only [workLatency, stage]
  rcases ahead_work (.latency deadline passes) (.sleeping (now + plan.interval)) with ahead | rests
  · exact ahead.mono (by omega)
  · exact ahead_of_sleeping rests (by omega)

theorem ahead_proceed_of_status {deadline : Nat} {slots : List (Net.Ipv4 × Slot)}
    (stage : loop.stage = .working (.status deadline slots)) :
    (loop.proceed t plan now).Ahead (now + min 1 plan.interval) := by
  have awake : loop.wake plan now = loop := by simp only [wake, stage]
  have asks : loop.workStatus t plan now =
      loop.work t plan now (.status deadline slots) (.working (.beginLatency plan now)) := by
    simp only [workStatus, stage]
  have looked := @ahead_work t plan now loop (.status deadline slots)
    (.working (.beginLatency plan now))
  have later : now + min 1 plan.interval ≤ now + 1 := by omega
  simp only [proceed, awake, asks]
  generalize loop.work t plan now (.status deadline slots) (.working (.beginLatency plan now)) =
    worked at looked
  split
  · rename_i ended
    exact ahead_of_ended ended _
  -- What is left after the look waits, and only a phase that has just begun is looked at again.
  · rcases looked with ahead | begins
    · cases measuring : worked.stage with
      | sleeping wakeUp => simpa only [workLatency, measuring] using ahead.mono later
      | working phase =>
        cases phase with
        | status last left => simpa only [workLatency, measuring] using ahead.mono later
        | latency last passes => exact ahead_workLatency measuring
    · exact ahead_workLatency begins

theorem ahead_proceed (going : loop.ending = none) :
    (loop.proceed t plan now).Ahead (now + min 1 plan.interval) := by
  cases stage : loop.stage with
  | sleeping wakeUp =>
    by_cases passed : wakeUp ≤ now
    · rw [proceed_of_awake stage passed]
      exact ahead_proceed_of_status rfl
    · rw [proceed_of_asleep stage passed going]
      exact ahead_of_sleeping stage (by omega)
  | working phase =>
    cases phase with
    | status deadline slots => exact ahead_proceed_of_status stage
    | latency deadline passes =>
      rw [proceed_of_latency stage going]
      exact ahead_workLatency stage

/-- After a look, the loop waits for no earlier moment, and for a later one if it pauses. -/
theorem ahead_poll (receiver : Nat) (channel : Shutdown.Channel) :
    (loop.poll t plan now receiver channel).1.Ahead (now + min 1 plan.interval) := by
  cases ended : loop.ending with
  | some last =>
    have stopped : loop.ending.isSome = true := by rw [ended]; rfl
    rw [poll, if_pos stopped]
    exact ahead_of_ended stopped _
  | none =>
    rw [poll, ended]
    simp only [Option.isSome_none, Bool.false_eq_true, if_false, Shutdown.Channel.wait_eq]
    cases channel.outcome? with
    | some outcome => exact ahead_of_ended rfl _
    | none => exact ahead_proceed ended

/-- Looking at the loop at every moment it waits for lets all time pass before a limit: there are
enough looks. -/
theorem ahead_runUntil (positive : 0 < plan.interval) {receiver limit moment fuel : Nat}
    {channel : Shutdown.Channel} (enough : limit ≤ moment + fuel) (ahead : loop.Ahead moment) :
    (runUntil t plan receiver limit fuel (loop, channel)).1.Ahead limit := by
  induction fuel generalizing moment loop channel with
  | zero => exact ahead.mono enough
  | succ fuel ih =>
    cases waits : loop.nextDue? with
    | none =>
      simp only [runUntil, waits]
      intro due later
      cases waits.symm.trans later
    | some due =>
      have here := ahead due waits
      by_cases before : due < limit
      · simp only [runUntil, waits, before, if_true]
        have later := @ahead_poll t plan due loop receiver channel
        rw [Nat.min_eq_left positive] at later
        exact ih (by omega) later
      · simp only [runUntil, waits, before, if_false]
        intro other later
        cases waits.symm.trans later
        exact Nat.le_of_not_lt before

end Loop

end Steering.Refresh
