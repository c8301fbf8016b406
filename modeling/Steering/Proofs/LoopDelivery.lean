import Steering.Proofs.ArrivalLook
import Steering.Proofs.CallEnd
/-! What becomes of the outcome of a call of the loop at a look at the loop, and when a reply arrives. -/

namespace Steering.Refresh

variable {t : Responder} {plan : Plan} {now : Nat}

/-! ## Looks at the loop -/

variable (t plan now) in
/-- The phases that a look at the loop comes to: the one that it is in or that begins now, and the
latency phase if the status phase has ended by now. -/
inductive Loop.LooksAt (loop : Loop) : Phase → Prop
  | here {phase : Phase} (stage : (loop.wake plan now).stage = .working phase) : LooksAt loop phase
  | next {deadline : Nat} {slots : List (Net.Ipv4 × Slot)}
      (stage : (loop.wake plan now).stage = .working (.status deadline slots))
      (ended : SlotsEnd t now deadline 0 slots) : LooksAt loop (.beginLatency plan now)

/-- The loop keeps what is made of the outcome of a call, unless it has ended. -/
def Loop.Keeps (loop : Loop) (ended : CallEnd) : Prop :=
  loop.ending = none → ∃ phase, loop.stage = .working phase ∧ phase.Keeps ended

variable {loop : Loop} {ended : CallEnd}

/-- A look at the loop that brings the outcome of a call as far as it can. -/
def Loop.Delivered (now : Nat) (loop next : Loop) (ended : CallEnd) : Prop :=
  ∃ entries, next.journal = loop.journal ++ entries.map (now, ·) ∧
    ended.Delivers entries (next.Keeps ended)

theorem Loop.work_eq {phase : Phase} {entries : List Entry} {store : Store} {progress : Progress}
    (polled : phase.poll t plan now loop.store = (entries, store, progress)) (next : Stage) :
    loop.work t plan now phase next = loop.worked now entries store next progress := by
  cases progress <;> simp only [work, polled] <;> rfl

theorem Loop.delivered_work {phase : Phase}
    (ends : phase.EndsCall t plan now ended ∨ phase.Keeps ended) (next : Stage) :
    loop.Delivered now (loop.work t plan now phase next) ended := by
  cases polled : phase.poll t plan now loop.store with
  | mk entries rest =>
  obtain ⟨store, progress⟩ := rest
  rw [work_eq polled]
  refine ⟨entries, by cases progress <;> rfl, (Phase.delivers_poll polled ends).imp ?_⟩
  rintro (⟨after, rfl, keeps⟩ | ⟨after, rfl⟩)
  · exact fun _ => ⟨after, rfl, keeps⟩
  · exact nofun

section Status

variable {deadline : Nat} {slots : List (Net.Ipv4 × Slot)} {entries : List Entry} {store : Store}
  {progress : Progress}
  (polled : (Phase.status deadline slots).poll t plan now loop.store = (entries, store, progress))
include polled

/-- A status phase that has to wait is still one. -/
theorem Phase.status_of_waiting {after : Phase} (waits : progress = .waiting after) :
    ∃ left, after = .status deadline left := by
  subst waits
  simp only [poll] at polled
  split at polled
  · cases polled
  · split at polled
    · cases polled
      exact ⟨_, rfl⟩
    · cases polled

/-- A status phase whose calls have all ended is finished. -/
theorem Phase.finished_of_slotsEnd (all : SlotsEnd t now deadline 0 slots) : progress = .finished := by
  rcases pollSlots_cases t now deadline 0 slots with ⟨-, x, member, call, its, crashes⟩ |
    ⟨after, left, -, complete⟩
  · exact absurd crashes.2 (all x member call its).2
  · obtain ⟨statuses, records⟩ := Option.isSome_iff_exists.mp (complete.mpr all)
    have parts : pollSlots t now deadline 0 slots =
        ((pollSlots t now deadline 0 slots).1, some after) := Prod.ext rfl left
    simp only [poll] at polled
    rw [parts] at polled
    simp only [records] at polled
    cases polled
    rfl

variable (stage : loop.stage = .working (.status deadline slots)) (going : loop.ending = none)
include stage going

/-- When the status phase has ended, the latency phase begins at the same look. -/
theorem Loop.proceed_of_poll :
    loop.proceed t plan now =
      let worked := loop.worked now entries store (.working (.beginLatency plan now)) progress
      if progress = .finished then
        worked.work t plan now (.beginLatency plan now) (.sleeping (now + plan.interval))
      else worked := by
  have awake : loop.wake plan now = loop := by simp only [wake, stage]
  have same : loop.workStatus t plan now =
      loop.worked now entries store (.working (.beginLatency plan now)) progress := by
    simp only [workStatus, stage, work_eq polled]
  simp only [proceed, awake, same]
  cases progress with
  | waiting after =>
    obtain ⟨left, rfl⟩ := Phase.status_of_waiting polled rfl
    simp [worked, going, workLatency]
  | finished => simp only [worked, going, workLatency, Phase.beginLatency, Option.isSome_none,
      Bool.false_eq_true, if_false, if_true]
  | crashed after => simp [worked]

end Status

section Look

variable {deadline : Nat} {slots : List (Net.Ipv4 × Slot)}
  (stage : loop.stage = .working (.status deadline slots)) (going : loop.ending = none)
include stage going

/-- What a status phase keeps for the records is delivered also when the latency phase begins at the
same look. -/
theorem Loop.delivered_of_status {place : Nat} {outcome : Outcome FetchFailure PopStatus}
    (ends : (Phase.status deadline slots).EndsCall t plan now (.fetch place outcome) ∨
      (Phase.status deadline slots).Keeps (.fetch place outcome)) :
    loop.Delivered now (loop.proceed t plan now) (.fetch place outcome) := by
  cases polled : (Phase.status deadline slots).poll t plan now loop.store with
  | mk entries rest =>
  obtain ⟨store, progress⟩ := rest
  have delivers := Phase.delivers_poll polled ends
  rw [proceed_of_poll polled stage going]
  cases progress with
  | waiting after =>
    refine ⟨entries, rfl, delivers.imp ?_⟩
    rintro (⟨phase, waits, keeps⟩ | ⟨phase, crashes⟩)
    · cases waits
      exact fun _ => ⟨after, rfl, keeps⟩
    · cases crashes
  | crashed after => exact ⟨entries, rfl, delivers.imp fun _ => nofun⟩
  | finished =>
    cases measured : (Phase.beginLatency plan now).poll t plan now store with
    | mk more last =>
    obtain ⟨final, left⟩ := last
    have regions := Phase.target_of_latency measured
    refine ⟨entries ++ more, ?_, (delivers.imp ?_).before regions⟩
    · rw [if_pos rfl, work_eq measured]
      cases left <;> simp [worked]
    · rintro (⟨phase, waits, keeps⟩ | ⟨phase, crashes⟩)
      · cases waits
      · cases crashes

/-- What the latency phase brings that begins when the status phase has ended is delivered. -/
theorem Loop.delivered_of_next {region place : Nat} {outcome : Outcome MeasureFailure Binary64}
    (all : SlotsEnd t now deadline 0 slots)
    (ends : (Phase.beginLatency plan now).EndsCall t plan now (.measurement region place outcome)) :
    loop.Delivered now (loop.proceed t plan now) (.measurement region place outcome) := by
  cases polled : (Phase.status deadline slots).poll t plan now loop.store with
  | mk entries rest =>
  obtain ⟨store, progress⟩ := rest
  have records : ∀ commit ∈ tried entries, commit.target ≠ some region := by
    intro commit member same
    rw [Phase.target_of_status polled commit member] at same
    cases same
  obtain rfl := Phase.finished_of_slotsEnd polled all
  let worked := loop.worked now entries store (.working (.beginLatency plan now)) .finished
  obtain ⟨more, journal, delivers⟩ : worked.Delivered now
      (worked.work t plan now (.beginLatency plan now) (.sleeping (now + plan.interval)))
      (.measurement region place outcome) := delivered_work (.inl ends) _
  rw [proceed_of_poll polled stage going, if_pos rfl]
  refine ⟨entries ++ more, ?_, delivers.after records⟩
  rw [journal]
  simp [worked, Loop.worked]

end Look

theorem Loop.delivered_of_working {phase : Phase} (stage : loop.stage = .working phase)
    (going : loop.ending = none) (ends : phase.EndsCall t plan now ended ∨ phase.Keeps ended) :
    loop.Delivered now (loop.proceed t plan now) ended := by
  cases phase with
  | status deadline slots =>
    cases ended with
    | fetch place outcome => exact delivered_of_status stage going ends
    | measurement region place outcome => rcases ends with ends | keeps <;> contradiction
  | latency deadline passes =>
    have same : loop.proceed t plan now =
        loop.work t plan now (.latency deadline passes) (.sleeping (now + plan.interval)) := by
      rw [proceed_of_latency stage going]
      simp only [workLatency, stage]
    rw [same]
    exact delivered_work ends _

theorem Loop.wake_keeps (plan : Plan) (now : Nat) (loop : Loop) :
    (loop.wake plan now).journal = loop.journal ∧ (loop.wake plan now).ending = loop.ending ∧
      (loop.wake plan now).proceed t plan now = loop.proceed t plan now := by
  cases stage : loop.stage with
  | working phase =>
    have same : loop.wake plan now = loop := by simp only [wake, stage]
    rw [same]
    exact ⟨rfl, rfl, rfl⟩
  | sleeping wakeUp =>
    by_cases passed : wakeUp ≤ now
    · rw [proceed_of_awake stage passed]
      simp only [wake, stage, if_pos passed]
      exact ⟨trivial, trivial, trivial⟩
    · have same : loop.wake plan now = loop := by simp only [wake, stage, if_neg passed]
      rw [same]
      exact ⟨rfl, rfl, rfl⟩

/-- A look at the loop brings the outcome of a call that it ends, or that the loop keeps, as far as it
can. -/
theorem Loop.delivered_proceed (going : loop.ending = none)
    (ends : (∃ phase, loop.LooksAt t plan now phase ∧ phase.EndsCall t plan now ended) ∨
      loop.Keeps ended) : loop.Delivered now (loop.proceed t plan now) ended := by
  rcases ends with ⟨phase, looks, ends⟩ | keeps
  · -- Waking up changes only the stage.
    obtain ⟨journal, ending, same⟩ := @wake_keeps t plan now loop
    rw [Delivered, ← journal, ← same]
    cases looks with
    | here stage => exact delivered_of_working stage (ending.trans going) (.inl ends)
    | next stage all =>
      cases ended with
      | fetch place outcome => contradiction
      | measurement region place outcome =>
        exact delivered_of_next stage (ending.trans going) all ends
  · obtain ⟨phase, stage, kept⟩ := keeps going
    exact delivered_of_working stage going (.inr kept)

/-! ## Arrivals -/

theorem SlotsKeep.arrive {slots : List (Net.Ipv4 × Slot)} {place : Nat}
    {outcome : Outcome FetchFailure PopStatus} (keeps : SlotsKeep slots place outcome) (asked : Nat)
    (reply : Outcome FetchFailure PopStatus) :
    SlotsKeep (slots.modify asked fun (address, slot) => (address, slot.arrive now reply)) place
      outcome := by
  obtain ⟨address, status, found, record⟩ := keeps
  refine ⟨address, status, ?_, record⟩
  rw [List.getElem?_modify, found]
  split <;> rfl

theorem PassesKeep.arrive {passes : List Pass} {region place : Nat}
    {outcome : Outcome MeasureFailure Binary64} (keeps : PassesKeep passes region place outcome)
    (other asked : Nat) (reply : Outcome MeasureFailure Binary64) :
    PassesKeep (passes.modify other (Pass.arrive now asked reply)) region place outcome := by
  obtain ⟨pass, found, unfinished, latency, accepted, its⟩ := keeps
  by_cases same : other = region
  · refine ⟨pass.arrive now asked reply, ?_, ?_, latency, accepted, ?_⟩
    · simp [found, same]
    · rw [Pass.isFinished_arrive]
      exact unfinished
    · cases pass <;> exact its
  · refine ⟨pass, ?_, unfinished, latency, accepted, its⟩
    simp [found, same]

/-- A reply changes nothing of a call that has ended. -/
theorem Phase.Keeps.arrive {phase : Phase} (keeps : phase.Keeps ended) (arrival : Arrival) :
    (phase.arrive now arrival).Keeps ended := by
  cases phase with
  | status deadline slots =>
    cases ended with
    | measurement region place outcome => contradiction
    | fetch place outcome =>
      cases arrival with
      | measured called other asked reply => exact keeps
      | fetched called asked reply =>
        simp only [Phase.arrive]
        split
        · exact SlotsKeep.arrive keeps asked reply
        · exact keeps
  | latency deadline passes =>
    cases ended with
    | fetch place outcome => contradiction
    | measurement region place outcome =>
      cases arrival with
      | fetched called asked reply => exact keeps
      | measured called other asked reply =>
        simp only [Phase.arrive]
        split
        · exact PassesKeep.arrive keeps other asked reply
        · exact keeps

theorem Loop.Keeps.arrive (keeps : loop.Keeps ended) (arrival : Arrival) :
    (loop.arrive now arrival).Keeps ended := by
  intro going
  cases stage : loop.stage with
  | sleeping wakeUp =>
    simp only [Loop.arrive, stage] at going ⊢
    obtain ⟨phase, working, -⟩ := keeps going
    cases stage.symm.trans working
  | working phase =>
    simp only [Loop.arrive, stage] at going ⊢
    obtain ⟨other, working, kept⟩ := keeps going
    cases stage.symm.trans working
    exact ⟨_, rfl, kept.arrive arrival⟩

end Steering.Refresh
