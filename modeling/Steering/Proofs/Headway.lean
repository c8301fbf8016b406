import Steering.Proofs.CourseRun
/-! The headway that the loop makes. A look that comes when the time of its stage is over takes it to a
later stage, so that the loop completes one cycle after another as long as it runs. -/

namespace Steering.Refresh

/-- When the time of a stage is over. -/
def Stage.deadline : Stage → Nat
  | working (.status deadline _) => deadline
  | working (.latency deadline _) => deadline
  | sleeping wakeUp => wakeUp

/-- How many stages follow on the last commit of records, counting this one. -/
def Stage.turn : Stage → Nat
  | working (.latency _ _) => 0
  | sleeping _ => 1
  | working (.status _ _) => 2

/-- How many stages the loop has come through: three for each commit of records, up to the stage at
which it is. -/
def Loop.position (loop : Loop) : Nat :=
  3 * (targets (loop.journal.map Prod.snd)).count none + loop.stage.turn

variable {t : Responder} {heard : List Arrival} {seen : List (Nat × Entry)} {plan : Plan}
  {now : Nat}

@[simp] theorem count_none_map_some (regions : List Nat) :
    (regions.map some).count none = 0 := by
  rw [List.count_eq_zero]
  simp

theorem Stage.turn_le_two (stage : Stage) : stage.turn ≤ 2 := by
  unfold turn
  split <;> omega

/-- A stage comes before those to which a look can take it. -/
theorem Stage.Advance.turn_le {stage next : Stage} {made : List (Option Nat)}
    (advance : stage.Advance plan made next) : stage.turn ≤ 3 * made.count none + next.turn := by
  have bounded := stage.turn_le_two
  cases advance with
  | rests => omega
  | asks early => exact Nat.le_trans bounded (Nat.le_add_left _ _)
  | measures early finishes length =>
    rw [List.count_cons_self]
    omega
  | cycles early finishes =>
    rw [List.count_cons_self]
    omega
  | goesOn finishes length => exact Nat.zero_le _
  | completes finishes => exact Nat.zero_le _

/-- It comes strictly before them if it is not a pause and the look does not leave the loop in it. -/
theorem Stage.Advance.turn_lt {stage next : Stage} {made : List (Option Nat)}
    (advance : stage.Advance plan made next) (working : stage.turn ≠ 1)
    (leaves : next.turn ≠ stage.turn) : stage.turn < 3 * made.count none + next.turn := by
  have bounded := stage.turn_le_two
  cases advance with
  | rests => exact absurd rfl leaves
  | asks early =>
    have before : stage.turn ≠ 0 := by
      intro measuring
      unfold turn at measuring
      split at measuring <;> simp_all [isMeasuring]
    exact absurd (show 2 = stage.turn by omega) leaves
  | measures early finishes length =>
    rw [List.count_cons_self]
    omega
  | cycles early finishes =>
    rw [List.count_cons_self]
    omega
  | goesOn finishes length => exact absurd rfl leaves
  | completes finishes => exact Nat.lt_of_lt_of_le Nat.zero_lt_one (Nat.le_add_left _ _)

section Look

variable {loop grown : Loop} {entries : List Entry}

theorem Loop.Grown.position_eq (looked : loop.Grown t heard plan now grown entries) :
    grown.position = 3 * (targets (loop.journal.map Prod.snd)).count none +
      (3 * (targets entries).count none + grown.stage.turn) := by
  rw [position, looked.journal, List.map_append, targets_append, map_snd_at, List.count_append]
  omega

theorem Loop.turn_workLatency {deadline : Nat} {passes : List Pass} (loop : Loop)
    (stage : loop.stage = .working (.latency deadline passes)) :
    (loop.workLatency t plan now).stage.turn ≠ 2 := by
  simp only [workLatency, stage, work, Phase.poll]
  split
  · rename_i waits
    split at waits
    · cases waits
    · split at waits <;> cases waits
      simp [Stage.turn]
  · simp [Stage.turn]
  · rename_i breaks
    split at breaks
    · cases breaks
      simp [finish, Stage.turn]
    · split at breaks <;> cases breaks

/-- A look never takes the loop back. -/
theorem Loop.Grown.position_le (looked : loop.Grown t heard plan now grown entries) :
    loop.position ≤ grown.position := by
  rw [looked.position_eq]
  exact Nat.add_le_add_left looked.advance.turn_le _

variable (fits : plan.Fits loop.store)
include fits

/-- When its time is over, a loop that measures has measured everything. -/
theorem Loop.turn_workLatency_late {deadline : Nat} {passes : List Pass}
    (stage : loop.stage = .working (.latency deadline passes))
    (ready : (Phase.latency deadline passes).Ready t heard loop.journal plan now)
    (late : deadline ≤ now) (goes : (loop.workLatency t plan now).ending = none) :
    (loop.workLatency t plan now).stage.turn = 1 := by
  obtain ⟨entries, store, progress, -, look, worked⟩ :=
    Loop.workLatency_look fits stage ready
  rw [worked] at goes ⊢
  generalize targets entries = made at look
  cases look with
  | latencyWaits finishes length sound inTime => omega
  | latencyBreaks finishes length => cases goes
  | latencyEnds finishes => rfl

/-- When its time is over, a loop that asks for records has them all. -/
theorem Loop.turn_proceed_late {deadline : Nat} {slots : List (Net.Ipv4 × Slot)}
    (stage : loop.stage = .working (.status deadline slots)) (going : loop.ending = none)
    (ready : (Phase.status deadline slots).Ready t heard loop.journal plan now)
    (late : deadline ≤ now) (goes : (loop.proceed t plan now).ending = none) :
    (loop.proceed t plan now).stage.turn ≠ 2 := by
  obtain ⟨entries, store, progress, -, look, proceeds⟩ :=
    Loop.proceed_of_status fits stage going ready
  rw [proceeds] at goes ⊢
  generalize targets entries = made at look
  cases look with
  | statusWaits sound inTime => omega
  | statusBreaks => cases goes
  | statusEnds =>
    rw [if_pos rfl]
    exact Loop.turn_workLatency _ (show _ = Stage.working (.beginLatency plan now) from rfl)

/-- A look that comes when the time of its stage is over takes the loop on. -/
theorem Loop.position_lt_proceed (going : loop.ending = none)
    (sound : loop.stage.Sound t heard loop.journal plan now) (late : loop.stage.deadline ≤ now)
    (goes : (loop.proceed t plan now).ending = none) :
    loop.position < (loop.proceed t plan now).position := by
  cases stage : loop.stage with
  | sleeping wakeUp =>
    rw [stage] at late
    let woken := { loop with stage := .working (.beginStatus plan now) }
    have ready : (Phase.beginStatus plan now).Ready t heard woken.journal plan now := .beginsStatus
    obtain ⟨entries, looked⟩ : ∃ entries,
        woken.Grown t heard plan now (woken.proceed t plan now) entries :=
      workStatus_grown fits rfl going ready
    -- Asking comes after the pause, whatever the look does beyond it.
    have ahead : loop.position < woken.position := by
      simp [position, woken, stage, Stage.turn, Phase.beginStatus]
    rw [proceed_of_awake stage late]
    exact Nat.lt_of_lt_of_le ahead looked.position_le
  | working phase =>
    have here := sound
    rw [stage] at late here
    obtain ⟨entries, looked⟩ := proceed_grown fits going sound
    rw [looked.position_eq]
    refine Nat.add_lt_add_left ?_ _
    cases phase with
    | status deadline slots =>
      have leaves := turn_proceed_late fits stage going (.goesOn here) late goes
      have asks : loop.stage.turn = 2 := by rw [stage]; rfl
      refine looked.advance.turn_lt ?_ ?_
      · omega
      · omega
    | latency deadline passes =>
      have rests := @proceed_of_latency t plan now loop deadline passes stage going
      have leaves := turn_workLatency_late fits stage (.goesOn here) late
        (rests ▸ goes)
      have measures : loop.stage.turn = 0 := by rw [stage]; rfl
      rw [← rests] at leaves
      refine looked.advance.turn_lt ?_ ?_
      · omega
      · omega

end Look

/-! ## Courses -/

/-- Commits are for whole cycles, of which there are as many as the loop has come through. -/
theorem Cyclic.completed {stage : Stage} {made : List (Option Nat)}
    (cyclic : Cyclic plan stage made) :
    ∃ orders : List (List Nat), (∀ order ∈ orders, order.Perm (List.range plan.regionCount)) ∧
      orders.flatMap cycle <+: made ∧
      3 * made.count none + stage.turn ≤ 3 * orders.length + 3 := by
  obtain ⟨orders, begun, whole, since, rfl⟩ := cyclic
  have records : (orders.flatMap cycle).count none = orders.length := by
    induction orders with
    | nil => rfl
    | cons order rest ih =>
      rw [List.flatMap_cons, List.count_append,
        ih fun other member => whole other (List.mem_cons_of_mem _ member)]
      simp [cycle, Nat.add_comm]
  refine ⟨orders, whole, List.prefix_append _ _, ?_⟩
  rw [List.count_append, records]
  cases since with
  | sleeping => simp [Stage.turn]
  | status => simp [Stage.turn]
  | latency finished length =>
    simp only [cycle, List.count_cons_self, count_none_map_some, Stage.turn]
    omega

namespace Course

variable {first : Store} {course : Course}

/-- Whether an event is a look at the loop that comes when the time of its stage is over. -/
def isLateLook (course : Course) : Nat × Event → Bool
  | (elapsed, .poll) => course.loop.stage.deadline ≤ course.clock + elapsed
  | _ => false

variable (t plan) in
/-- How many of the events are looks that come when the time of a stage is over. -/
def lateLooks : Course → List (Nat × Event) → Nat
  | _, [] => 0
  | course, event :: rest =>
    (course.isLateLook event).toNat + lateLooks (course.step t plan event) rest

section Run

variable (fits : plan.Fits first)
include fits

/-- As long as the loop runs, no step takes it back, and every late look takes it on. -/
theorem position_step (sound : course.Sound t plan first) (event : Nat × Event)
    (goes : (course.step t plan event).loop.ending = none) :
    course.loop.position + (course.isLateLook event).toNat ≤
      (course.step t plan event).loop.position := by
  obtain ⟨elapsed, event⟩ := event
  have stepped := stepped fits sound elapsed event
  cases late : course.isLateLook (elapsed, event) with
  | false =>
    generalize event.isByHand = flag at stepped
    generalize course.step t plan (elapsed, event) = next at stepped
    cases stepped with
    | loop passed hears grown => exact grown.position_le
    | byHand passed accounted look was becomes others grows => exact Nat.le_refl _
    | idle passed subsides length => exact Nat.le_refl _
  | true =>
    cases event with
    | poll =>
      let now := { course with clock := course.clock + elapsed }
      have going : now.loop.ending = none := by
        cases ended : course.loop.ending with
        | none => rfl
        | some last =>
          rw [(step_of_ended (by rw [ended]; rfl) _).1, ended] at goes
          cases goes
      have looked := @poll_of_going t plan now going
      rw [show (course.step t plan (elapsed, .poll)).loop = (now.poll t plan).loop from rfl,
        looked] at goes ⊢
      split at goes
      · cases goes
      · exact Loop.position_lt_proceed (sound.fits_store fits) going
          ((sound.stage going).mono (List.Subset.refl _) (List.Subset.refl _) (Nat.le_add_right _ _))
          (of_decide_eq_true late) goes
    | _ => cases late

theorem position_run (sound : course.Sound t plan first) (events : List (Nat × Event))
    (goes : (course.run t plan events).loop.ending = none) :
    course.loop.position + course.lateLooks t plan events ≤
      (course.run t plan events).loop.position := by
  induction events generalizing course with
  | nil => exact Nat.le_refl _
  | cons event rest ih =>
    obtain ⟨elapsed, event⟩ := event
    have here : (course.step t plan (elapsed, event)).loop.ending = none := by
      cases ended : (course.step t plan (elapsed, event)).loop.ending with
      | none => rfl
      | some last =>
        rw [run_cons, (run_of_ended (by rw [ended]; rfl) rest).1, ended] at goes
        cases goes
    have step := position_step fits sound (elapsed, event) here
    have later := ih ((stepped fits sound elapsed event).sound sound) goes
    rw [run_cons, lateLooks]
    omega

end Run

end Course

end Steering.Refresh
