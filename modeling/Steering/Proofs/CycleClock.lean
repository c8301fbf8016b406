import Mathlib.Data.List.Chain
import Steering.Proofs.Headway
import Steering.Proofs.NextDue
/-! The clock of the loop. Every stage is over when its time is, so the loop begins its cycles at
bounded moments, and the commits of records in its journal are neither too far apart nor too
close. -/

namespace Steering.Refresh

/-- How long a cycle takes at most. -/
def Plan.period (plan : Plan) : Nat :=
  plan.statusTimeout + plan.latencyTimeout + plan.interval

/-- The moments of the commits of records in a journal. -/
def statusMoments (journal : List (Nat × Entry)) : List Nat :=
  ((datedCommits journal).filter (·.2.target = none)).map (·.1)

@[simp] theorem statusMoments_append (before after : List (Nat × Entry)) :
    statusMoments (before ++ after) = statusMoments before ++ statusMoments after := by
  simp [statusMoments]

theorem statusMoments_at (now : Nat) (entries : List Entry) :
    statusMoments (entries.map (now, ·)) = List.replicate ((targets entries).count none) now := by
  rw [statusMoments, datedCommits_at, targets]
  induction commits entries with
  | nil => rfl
  | cons commit rest ih =>
    cases its : commit.target with
    | none => simpa [its, List.replicate_succ] using ih
    | some region => simpa [its] using ih

/-- There are as many of them as commits of records. -/
theorem length_statusMoments (journal : List (Nat × Entry)) :
    (statusMoments journal).length = (targets (journal.map Prod.snd)).count none := by
  rw [targets, ← map_snd_datedCommits, statusMoments, List.length_map]
  induction datedCommits journal with
  | nil => rfl
  | cons dated rest ih =>
    cases its : dated.2.target with
    | none => simpa [its] using ih
    | some region => simpa [its] using ih

variable (plan : Plan)

/-- Commits of records are an interval apart at least and a period at most. -/
def Spaced (moments : List Nat) : Prop :=
  moments.IsChain fun earlier later =>
    earlier + plan.interval ≤ later ∧ later ≤ earlier + plan.period

/-- When a cycle may begin after commits of records: after the pause that follows on the last one
and the latency phase after that. -/
structure MayBegin (moments : List Nat) (began : Nat) : Prop where
  bound : began ≤ moments.length * plan.period
  since : ∀ last, moments.getLast? = some last →
    last + plan.interval ≤ began ∧ began ≤ last + plan.latencyTimeout + plan.interval

/-- A stage on the clock, after the commits of records so far. -/
inductive Stage.Timed (now : Nat) : List Nat → Stage → Prop
  | sleeping {moments : List Nat} {wakeUp : Nat} (begins : MayBegin plan moments wakeUp) :
      Timed now moments (.sleeping wakeUp)
  | asking {moments : List Nat} {began : Nat} {slots : List (Net.Ipv4 × Slot)}
      (begins : MayBegin plan moments began) (past : began ≤ now) :
      Timed now moments (.working (.status (began + plan.statusTimeout) slots))
  | measuring {moments earlier : List Nat} {last : Nat} {passes : List Pass}
      (split : moments = earlier ++ [last])
      (bound : last ≤ earlier.length * plan.period + plan.statusTimeout) (past : last ≤ now) :
      Timed now moments (.working (.latency (last + plan.latencyTimeout) passes))

variable {plan} {now clock : Nat} {moments : List Nat} {stage : Stage}

theorem Stage.Timed.mono (timed : stage.Timed plan clock moments) (passed : clock ≤ now) :
    stage.Timed plan now moments := by
  cases timed with
  | sleeping begins => exact .sleeping begins
  | asking begins past => exact .asking begins (Nat.le_trans past passed)
  | measuring split bound past => exact .measuring split bound (Nat.le_trans past passed)

/-- The commit of records in a status phase keeps its distance from the one before. -/
theorem Spaced.append {began : Nat} (spaced : Spaced plan moments)
    (begins : MayBegin plan moments began) (past : began ≤ now)
    (inTime : now ≤ began + plan.statusTimeout) : Spaced plan (moments ++ [now]) := by
  refine List.isChain_append.mpr ⟨spaced, List.isChain_singleton now, ?_⟩
  intro last final other same
  cases Option.mem_some_iff.mp same
  have apart := begins.since last final
  rw [Plan.period]
  omega

/-- After its latency phase, a cycle may begin when the pause is over. -/
theorem mayBegin_after {last : Nat}
    (bound : last ≤ moments.length * plan.period + plan.statusTimeout) (past : last ≤ now)
    (inTime : now ≤ last + plan.latencyTimeout) :
    MayBegin plan (moments ++ [last]) (now + plan.interval) where
  bound := by
    rw [List.length_append, List.length_singleton, Nat.succ_mul, Plan.period] at *
    omega
  since other final := by
    rw [List.getLast?_concat] at final
    cases final
    omega

/-- The moment until which a stage lasts lies in the cycle that it belongs to. -/
theorem Stage.Timed.deadline_le (timed : stage.Timed plan now moments) (pause : 0 < plan.interval) :
    stage.deadline ≤ moments.length * plan.period ∧ stage.turn = 1 ∨
      stage.deadline < (moments.length + 1) * plan.period ∧ stage.turn = 2 ∨
      stage.deadline < moments.length * plan.period ∧ stage.turn = 0 := by
  cases timed with
  | sleeping begins => exact .inl ⟨begins.bound, rfl⟩
  | asking begins past =>
    refine .inr (.inl ⟨?_, rfl⟩)
    have bound := begins.bound
    rw [Nat.succ_mul, Stage.deadline]
    simp only [Plan.period] at bound ⊢
    omega
  | measuring split bound past =>
    refine .inr (.inr ⟨?_, rfl⟩)
    rw [split, List.length_append, List.length_singleton, Nat.succ_mul, Stage.deadline]
    simp only [Plan.period] at bound ⊢
    omega

/-! ## Looks at the loop -/

variable {t : Responder} {heard : List Arrival} {loop : Loop}

/-- Whether a loop has not crashed. -/
def Loop.Alive (loop : Loop) : Prop :=
  ∀ moment, loop.ending ≠ some (moment, .crashed)

theorem Loop.alive_of_going (going : loop.ending = none) : loop.Alive := by
  intro moment crashed
  rw [going] at crashed
  cases crashed

theorem Loop.alive_finish_shutdown (outcome : Shutdown.Outcome) :
    (loop.finish now (.shutdown outcome)).Alive := by
  intro moment crashed
  simp only [Loop.finish, Option.some.injEq, Prod.mk.injEq, reduceCtorEq, and_false] at crashed

theorem Loop.not_alive {moment : Nat} (crashed : loop.ending = some (moment, .crashed)) :
    ¬ loop.Alive :=
  fun alive => alive moment crashed

variable (plan now) in
/-- The clock of a loop: its commits of records keep their distance, and its stage is in time. -/
structure Loop.Clocked (loop : Loop) : Prop where
  spaced : Spaced plan (statusMoments loop.journal)
  timed : loop.Alive → loop.stage.Timed plan now (statusMoments loop.journal)

/-- A look that makes no commit of records, after which the stage is in time. -/
theorem Loop.Clocked.quiet {grown : Loop} {entries : List Entry} {made : List (Option Nat)}
    (clocked : loop.Clocked plan clock) (going : loop.ending = none)
    (journal : grown.journal = loop.journal ++ entries.map (now, ·)) (its : targets entries = made)
    (none : made.count none = 0)
    (timed : grown.Alive →
      loop.stage.Timed plan clock (statusMoments loop.journal) →
      grown.stage.Timed plan now (statusMoments loop.journal)) : grown.Clocked plan now := by
  have same : statusMoments grown.journal = statusMoments loop.journal := by
    rw [journal, statusMoments_append, statusMoments_at, its, none, List.replicate_zero,
      List.append_nil]
  refine ⟨same ▸ clocked.spaced, fun goes => ?_⟩
  rw [same]
  exact timed goes (clocked.timed (alive_of_going going))

section Look

variable (fits : plan.Fits loop.store) (clocked : loop.Clocked plan clock)
  (going : loop.ending = none) (passed : clock ≤ now) (inTime : now ≤ loop.stage.deadline)
include fits clocked going passed inTime

/-- Looking at a latency phase in time keeps the clock. -/
theorem Loop.clocked_workLatency {deadline : Nat} {passes : List Pass}
    (stage : loop.stage = .working (.latency deadline passes))
    (ready : (Phase.latency deadline passes).Ready t heard loop.journal plan now) :
    (loop.workLatency t plan now).Clocked plan now := by
  obtain ⟨entries, store, progress, -, look, worked⟩ := Loop.workLatency_look fits stage ready
  rw [stage] at inTime
  rw [worked]
  generalize made : targets entries = done at look
  cases look with
  | latencyWaits finishes length sound early =>
    refine clocked.quiet going rfl made (count_none_map_some _) fun _ timed => ?_
    rw [stage] at timed
    cases timed with
    | measuring split bound past => exact .measuring split bound (Nat.le_trans past passed)
  | latencyBreaks finishes length =>
    exact clocked.quiet going rfl made (count_none_map_some _) fun alive _ =>
      absurd alive (not_alive rfl)
  | latencyEnds finishes =>
    refine clocked.quiet going rfl made (count_none_map_some _) fun _ timed => ?_
    rw [stage] at timed
    cases timed with
    | measuring split bound past =>
      rw [split]
      exact .sleeping (mayBegin_after bound (Nat.le_trans past passed) inTime)

/-- Looking at a status phase in time keeps the clock. -/
theorem Loop.clocked_proceed_of_status {deadline : Nat} {slots : List (Net.Ipv4 × Slot)}
    (stage : loop.stage = .working (.status deadline slots))
    (ready : (Phase.status deadline slots).Ready t heard loop.journal plan now) :
    (loop.proceed t plan now).Clocked plan now := by
  obtain ⟨entries, store, progress, accounted, look, proceeds⟩ :=
    Loop.proceed_of_status fits stage going ready
  rw [stage] at inTime
  rw [proceeds]
  generalize made : targets entries = done at look
  cases look with
  | statusWaits sound early =>
    refine clocked.quiet going rfl made rfl fun _ timed => ?_
    rw [stage] at timed
    cases timed with
    | asking begins past => exact .asking begins (Nat.le_trans past passed)
  | statusBreaks =>
    exact clocked.quiet going rfl made rfl fun alive _ => absurd alive (not_alive rfl)
  | statusEnds =>
    -- The records are committed now, and the latency phase that begins now is looked at at once.
    let measuring := loop.worked now entries store (.working (.beginLatency plan now)) .finished
    have stamped : statusMoments measuring.journal = statusMoments loop.journal ++ [now] := by
      change statusMoments (loop.journal ++ entries.map (now, ·)) = _
      rw [statusMoments_append, statusMoments_at, made]
      rfl
    have fits' : plan.Fits measuring.store := by
      rw [show measuring.store = store from rfl, accounted.replay]
      exact fits.replay _
    have timed := clocked.timed (alive_of_going going)
    rw [stage] at timed
    have begins : measuring.Clocked plan now := by
      cases timed with
      | asking begins past =>
        refine ⟨stamped ▸ clocked.spaced.append begins (Nat.le_trans past passed) inTime,
          fun _ => ?_⟩
        refine .measuring stamped ?_ (Nat.le_refl now)
        exact Nat.le_trans inTime (Nat.add_le_add_right begins.bound _)
    have ready : (Phase.beginLatency plan now).Ready t heard measuring.journal plan now :=
      .beginsLatency
    rw [if_pos rfl]
    exact clocked_workLatency fits' begins going (Nat.le_refl now) (Nat.le_add_right now _) rfl
      ready

/-- Looking at a loop in time keeps its clock. -/
theorem Loop.clocked_proceed (sound : loop.stage.Sound t heard loop.journal plan now) :
    (loop.proceed t plan now).Clocked plan now := by
  cases stage : loop.stage with
  | sleeping wakeUp =>
    rw [stage] at inTime
    by_cases awake : wakeUp ≤ now
    · let woken := { loop with stage := .working (.beginStatus plan now) }
      have timed := clocked.timed (alive_of_going going)
      rw [stage] at timed
      have begins : woken.Clocked plan now := by
        refine ⟨clocked.spaced, fun _ => ?_⟩
        cases timed with
        | sleeping begins =>
          have same : wakeUp = now := Nat.le_antisymm awake inTime
          exact .asking (same ▸ begins) (Nat.le_refl now)
      have ready : (Phase.beginStatus plan now).Ready t heard woken.journal plan now :=
        .beginsStatus
      have kept : (woken.proceed t plan now).Clocked plan now :=
        clocked_proceed_of_status fits begins going (Nat.le_refl now) (Nat.le_add_right now _)
          rfl ready
      rw [proceed_of_awake stage awake]
      exact kept
    · rw [proceed_of_asleep stage awake going]
      exact ⟨clocked.spaced, fun goes => (clocked.timed goes).mono passed⟩
  | working phase =>
    rw [stage] at sound
    cases phase with
    | status deadline slots =>
      exact clocked_proceed_of_status fits clocked going passed inTime stage (.goesOn sound)
    | latency deadline passes =>
      rw [proceed_of_latency stage going]
      exact clocked_workLatency fits clocked going passed inTime stage (.goesOn sound)

end Look

/-! ## What the loop waits for -/

/-- A phase that is waited for after a look waits for something within its time. -/
theorem Phase.exists_due {store next : Store} {entries : List Entry} {phase after : Phase}
    {seen : List (Nat × Entry)} (fits : plan.Fits store) (ready : phase.Ready t heard seen plan now)
    (result : phase.poll t plan now store = (entries, next, .waiting after))
    (shown : ∀ entry ∈ entries, (now, entry) ∈ seen) :
    ∃ due ∈ after.dues, due ≤ (Stage.working after).deadline := by
  obtain ⟨-, look⟩ := Phase.look fits ready result shown
  generalize targets entries = made at look
  by_contra none
  simp only [not_exists, not_and] at none
  cases look with
  | @statusWaits deadline slots left sound early =>
    cases sound with
    | @status began _ addresses sound =>
      have done : ∀ x ∈ left, ∃ status, x.2 = .done status := by
        intro x member
        obtain ⟨place, found⟩ := List.mem_iff_getElem?.mp member
        have its := sound (x, place) (List.mem_zipIdx_iff_getElem?.mpr found)
        obtain ⟨address, slot⟩ := x
        cases its with
        | done fetched record => exact ⟨_, rfl⟩
        | @waiting call fetched bounded =>
          refine absurd ?_ (none call.due (List.mem_filterMap.mpr ⟨_, member, rfl⟩))
          exact Nat.le_trans bounded (Nat.max_le.mpr ⟨Nat.le_of_lt early, Nat.le_refl _⟩)
      obtain ⟨statuses, all⟩ := statuses?_of_done done
      simp only [poll] at result
      split at result
      · cases result
      · split at result
        · rename_i undone
          cases result
          cases undone.symm.trans all
        · cases result
  | @latencyWaits deadline passes left new finishes length sound early =>
    cases sound with
    | @latency began _ whole sound =>
      have done : left.all Pass.isFinished = true := by
        refine List.all_eq_true.mpr fun pass member => ?_
        obtain ⟨region, found⟩ := List.mem_iff_getElem?.mp member
        have its := sound (pass, region) (List.mem_zipIdx_iff_getElem?.mpr found)
        cases its with
        | finished whole => rfl
        | @waiting measured remaining endpoint latencies last asked call split before later past
            current bounded =>
          refine absurd ?_ (none call.due (List.mem_filterMap.mpr ⟨_, member, rfl⟩))
          exact Nat.le_trans bounded (Nat.max_le.mpr ⟨Nat.le_of_lt early, Nat.le_refl _⟩)
      cases polled :
        pollPasses t plan.endpoints now (began + plan.latencyTimeout) 0 passes store with
      | mk made rest =>
      obtain ⟨store, others, alive⟩ := rest
      simp only [poll, polled, Prod.mk.injEq] at result
      obtain ⟨-, -, stands⟩ := result
      split at stands
      · cases stands
      · split at stands
        · cases stands
        · rename_i undone
          cases stands
          exact undone done

/-- Whether a loop that goes on waits for something within the time of its stage. -/
def Loop.Prompt (loop : Loop) : Prop :=
  loop.ending = none → ∃ due, loop.nextDue? = some due ∧ due ≤ loop.stage.deadline

/-- A look at a moment before which nothing is due comes within the time of the stage. -/
theorem Loop.Prompt.inTime (prompt : loop.Prompt) (going : loop.ending = none)
    (ahead : loop.Ahead now) : now ≤ loop.stage.deadline := by
  obtain ⟨due, waits, bound⟩ := prompt going
  exact Nat.le_trans (ahead due waits) bound

theorem Loop.prompt_of_ended (ended : loop.ending.isSome = true) : loop.Prompt := by
  intro going
  rw [going] at ended
  cases ended

theorem Loop.prompt_of_sleeping {wakeUp : Nat} (stage : loop.stage = .sleeping wakeUp) :
    loop.Prompt := by
  intro going
  rw [nextDue?, going, stage]
  exact ⟨wakeUp, rfl, Nat.le_refl wakeUp⟩

theorem Loop.prompt_of_working {phase : Phase} (stage : loop.stage = .working phase)
    (waits : ∃ due ∈ phase.dues, due ≤ (Stage.working phase).deadline) : loop.Prompt := by
  intro going
  obtain ⟨due, its, bound⟩ := waits
  rw [nextDue?, going, stage]
  obtain ⟨least, first⟩ := Option.isSome_iff_exists.mp (List.isSome_min?_of_mem its)
  exact ⟨least, first, Nat.le_trans ((List.min?_eq_some_iff.mp first).2 due its) bound⟩

section Waits

variable (fits : plan.Fits loop.store)
include fits

/-- A look at a phase leaves the loop waiting within the time of the phase, or where it goes on when
the phase has ended. -/
theorem Loop.prompt_work {phase : Phase} (ready : phase.Ready t heard loop.journal plan now)
    (next : Stage) :
    (loop.work t plan now phase next).Prompt ∨ (loop.work t plan now phase next).stage = next := by
  cases polled : phase.poll t plan now loop.store with
  | mk entries rest =>
  obtain ⟨store, progress⟩ := rest
  simp only [work, polled]
  cases progress with
  | finished => exact .inr rfl
  | crashed after => exact .inl (prompt_of_ended rfl)
  | waiting after =>
    refine .inl (prompt_of_working rfl ?_)
    have shown : ∀ entry ∈ entries, (now, entry) ∈ loop.journal ++ entries.map (now, ·) :=
      fun entry member => List.mem_append_right _ (List.mem_map_of_mem member)
    exact Phase.exists_due fits (ready.mono (List.subset_append_left _ _)) polled shown

theorem Loop.prompt_workLatency {deadline : Nat} {passes : List Pass}
    (stage : loop.stage = .working (.latency deadline passes))
    (ready : (Phase.latency deadline passes).Ready t heard loop.journal plan now) :
    (loop.workLatency t plan now).Prompt := by
  simp only [workLatency, stage]
  rcases prompt_work fits ready (.sleeping (now + plan.interval)) with prompt | rests
  · exact prompt
  · exact prompt_of_sleeping rests

theorem Loop.prompt_proceed_of_status {deadline : Nat} {slots : List (Net.Ipv4 × Slot)}
    (stage : loop.stage = .working (.status deadline slots)) (going : loop.ending = none)
    (ready : (Phase.status deadline slots).Ready t heard loop.journal plan now) :
    (loop.proceed t plan now).Prompt := by
  cases polled : (Phase.status deadline slots).poll t plan now loop.store with
  | mk entries rest =>
  obtain ⟨store, progress⟩ := rest
  have shown : ∀ entry ∈ entries, (now, entry) ∈ loop.journal ++ entries.map (now, ·) :=
    fun entry member => List.mem_append_right _ (List.mem_map_of_mem member)
  have later := ready.mono (List.subset_append_left _ (entries.map (now, ·)))
  obtain ⟨accounted, look⟩ := Phase.look fits later polled shown
  generalize targets entries = made at look
  simp only [proceed, wake, workStatus, stage, work, polled]
  cases look with
  | statusWaits sound early =>
    simp only [going, Option.isSome_none, Bool.false_eq_true, if_false, workLatency]
    exact prompt_of_working rfl (Phase.exists_due fits later polled shown)
  | statusBreaks => exact prompt_of_ended rfl
  | statusEnds =>
    let measuring := loop.worked now entries store (.working (.beginLatency plan now)) .finished
    have ready : (Phase.beginLatency plan now).Ready t heard measuring.journal plan now :=
      .beginsLatency
    have fits' : plan.Fits measuring.store := by
      rw [show measuring.store = store from rfl, accounted.replay]
      exact fits.replay _
    simp only [going, Option.isSome_none, Bool.false_eq_true, if_false]
    exact prompt_workLatency fits' rfl ready

theorem Loop.prompt_proceed (going : loop.ending = none)
    (sound : loop.stage.Sound t heard loop.journal plan now) :
    (loop.proceed t plan now).Prompt := by
  cases stage : loop.stage with
  | sleeping wakeUp =>
    by_cases awake : wakeUp ≤ now
    · let woken := { loop with stage := .working (.beginStatus plan now) }
      have ready : (Phase.beginStatus plan now).Ready t heard woken.journal plan now :=
        .beginsStatus
      have prompt : (woken.proceed t plan now).Prompt :=
        prompt_proceed_of_status fits rfl going ready
      rw [proceed_of_awake stage awake]
      exact prompt
    · rw [proceed_of_asleep stage awake going]
      exact prompt_of_sleeping stage
  | working phase =>
    rw [stage] at sound
    cases phase with
    | status deadline slots => exact prompt_proceed_of_status fits stage going (.goesOn sound)
    | latency deadline passes =>
      rw [proceed_of_latency stage going]
      exact prompt_workLatency fits stage (.goesOn sound)

end Waits

end Steering.Refresh
