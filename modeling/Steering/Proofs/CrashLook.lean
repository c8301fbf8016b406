import Steering.Proofs.PhaseLook
import Steering.Refresh.Loop
/-! When a look at the loop makes it crash: exactly when it comes to a call that has ended by now with
the death of the task that made it. -/

namespace Steering.Refresh

variable {t : Responder} {plan : Plan} {now deadline region place : Nat}

/-- Whether a call has ended by now, and its task with it. -/
def Call.Crashes {ε α : Type} (now : Nat) (call : Call ε α) : Prop :=
  call.due ≤ now ∧ call.outcome = .crash

/-- Whether a call has ended by now in another way. -/
def Call.Ends {ε α : Type} (now : Nat) (call : Call ε α) : Prop :=
  call.due ≤ now ∧ call.outcome ≠ .crash

theorem recordOf_eq_none_iff {outcome : Outcome FetchFailure PopStatus} :
    recordOf outcome = none ↔ outcome = .crash := by
  cases outcome <;> simp [recordOf]

theorem latencyOf_eq_none_iff {outcome : Outcome MeasureFailure Binary64} :
    latencyOf outcome = none ↔ outcome = .crash := by
  cases outcome <;> simp [latencyOf]

theorem Call.ends_of_latency {call : Call MeasureFailure Binary64} {latency : Binary64}
    (due : call.due ≤ now) (accepted : latencyOf call.outcome = some latency) :
    call.Ends now := by
  refine ⟨due, ?_⟩
  rw [ne_eq, ← latencyOf_eq_none_iff, accepted]
  exact Option.some_ne_none latency

/-! ## Status phases -/

variable (t now deadline) in
/-- The call that a look at the fetch of a PoP comes to. -/
def Slot.call? (place : Nat) (address : Net.Ipv4) : Slot → Option (Call FetchFailure PopStatus)
  | fresh => some ((t.fetch now place address).call .deadlineExceeded now deadline)
  | waiting call => some call
  | done _ => none

variable (t now deadline) in
/-- Whether a look at fetches, the first of them at a place, comes to a call that crashes. -/
def SlotsCrash (place : Nat) (slots : List (Net.Ipv4 × Slot)) : Prop :=
  ∃ x ∈ slots.zipIdx place, ∃ call, x.1.2.call? t now deadline x.2 x.1.1 = some call ∧
    call.Crashes now

variable (t now deadline) in
/-- Whether all calls have ended that a look at fetches comes to, the first of them at a place. -/
def SlotsEnd (place : Nat) (slots : List (Net.Ipv4 × Slot)) : Prop :=
  ∀ x ∈ slots.zipIdx place, ∀ call, x.1.2.call? t now deadline x.2 x.1.1 = some call →
    call.Ends now

variable (t now deadline) in
/-- What a look at the fetch of a PoP makes of it. -/
inductive Slot.Polled (place : Nat) (address : Net.Ipv4) (slot : Slot) : Option Slot → Prop
  | crashes {call : Call FetchFailure PopStatus}
      (its : slot.call? t now deadline place address = some call) (crashes : call.Crashes now) :
      Polled place address slot none
  | ends {status : PopStatus}
      (done : ∀ call, slot.call? t now deadline place address = some call → call.Ends now) :
      Polled place address slot (some (.done status))
  | waits {call : Call FetchFailure PopStatus}
      (its : slot.call? t now deadline place address = some call) (early : now < call.due) :
      Polled place address slot (some (.waiting call))

theorem Slot.settle_polled {address : Net.Ipv4} {slot : Slot} {call : Call FetchFailure PopStatus}
    (its : slot.call? t now deadline place address = some call) :
    slot.Polled t now deadline place address (settle now call) := by
  unfold settle
  by_cases early : now < call.due
  · rw [if_pos early]
    exact .waits its early
  · have due := Nat.not_lt.mp early
    rw [if_neg early]
    cases record : recordOf call.outcome with
    | none => exact .crashes its ⟨due, recordOf_eq_none_iff.mp record⟩
    | some status =>
      refine .ends fun other same => ?_
      cases its.symm.trans same
      refine ⟨due, ?_⟩
      rw [ne_eq, ← recordOf_eq_none_iff, record]
      exact Option.some_ne_none status

theorem Slot.poll_polled (t : Responder) (now deadline place : Nat) (address : Net.Ipv4)
    (slot : Slot) :
    slot.Polled t now deadline place address (slot.poll t now deadline place address).2 := by
  cases slot with
  | fresh => exact settle_polled rfl
  | waiting call => exact settle_polled rfl
  | done status => exact .ends nofun

theorem slotsCrash_cons {address : Net.Ipv4} {slot : Slot} {rest : List (Net.Ipv4 × Slot)} :
    SlotsCrash t now deadline place ((address, slot) :: rest) ↔
      (∃ call, slot.call? t now deadline place address = some call ∧ call.Crashes now) ∨
        SlotsCrash t now deadline (place + 1) rest := by
  simp [SlotsCrash, List.zipIdx_cons]

theorem slotsEnd_cons {address : Net.Ipv4} {slot : Slot} {rest : List (Net.Ipv4 × Slot)} :
    SlotsEnd t now deadline place ((address, slot) :: rest) ↔
      (∀ call, slot.call? t now deadline place address = some call → call.Ends now) ∧
        SlotsEnd t now deadline (place + 1) rest := by
  simp [SlotsEnd, List.zipIdx_cons]

/-- A look at fetches crashes, or they are there after it with all their records if all of their
calls have ended. -/
theorem pollSlots_cases (t : Responder) (now deadline place : Nat)
    (slots : List (Net.Ipv4 × Slot)) :
    ((pollSlots t now deadline place slots).2 = none ∧ SlotsCrash t now deadline place slots) ∨
      ∃ after, (pollSlots t now deadline place slots).2 = some after ∧
        ¬ SlotsCrash t now deadline place slots ∧
        ((statuses? after).isSome = true ↔ SlotsEnd t now deadline place slots) := by
  induction slots generalizing place with
  | nil =>
    right
    refine ⟨[], rfl, ?_, ?_⟩
    · rintro ⟨x, member, -⟩
      cases member
    · exact iff_of_true rfl (List.forall_mem_nil _)
  | cons head rest ih =>
    obtain ⟨address, slot⟩ := head
    have here := slot.poll_polled t now deadline place address
    rw [slotsCrash_cons, slotsEnd_cons]
    cases polled : slot.poll t now deadline place address with
    | mk entries stands =>
    rw [polled] at here
    cases here with
    | crashes its crashes =>
      left
      simp only [pollSlots, polled]
      exact ⟨trivial, .inl ⟨_, its, crashes⟩⟩
    | ends done =>
      rcases ih (place + 1) with ⟨dies, crash⟩ | ⟨after, left, lives, ended⟩
      · left
        simp only [pollSlots, polled, dies]
        exact ⟨rfl, .inr crash⟩
      · right
        simp only [pollSlots, polled, left]
        refine ⟨_, rfl, ?_, ?_⟩
        · rintro (⟨call, its, crashes⟩ | crash)
          · exact (done call its).2 crashes.2
          · exact lives crash
        · rw [statuses?_cons, Option.isSome_map, ended]
          exact ⟨fun others => ⟨done, others⟩, And.right⟩
    | waits its early =>
      rename_i call
      rcases ih (place + 1) with ⟨dies, crash⟩ | ⟨after, left, lives, ended⟩
      · left
        simp only [pollSlots, polled, dies]
        exact ⟨rfl, .inr crash⟩
      · right
        simp only [pollSlots, polled, left]
        refine ⟨_, rfl, ?_, ?_⟩
        · rintro (⟨other, same, crashes⟩ | crash)
          · cases its.symm.trans same
            exact Nat.not_le.mpr early crashes.1
          · exact lives crash
        · rw [statuses?_cons]
          refine iff_of_false Bool.false_ne_true ?_
          rintro ⟨done, -⟩
          exact Nat.not_le.mpr early (done call its).1

/-! ## Latency phases -/

variable (t now deadline region) in
/-- Whether measuring PoPs one after another, the first of them at a place, comes to a call that
crashes. -/
inductive MeasureCrashes : Nat → List String → Prop
  | here {place : Nat} {endpoint : String} {remaining : List String}
      (crashes :
        ((t.measure now region place endpoint).call .deadlineExceeded now deadline).Crashes now) :
      MeasureCrashes place (endpoint :: remaining)
  | later {place : Nat} {endpoint : String} {remaining : List String}
      (ends : ((t.measure now region place endpoint).call .deadlineExceeded now deadline).Ends now)
      (crashes : MeasureCrashes (place + 1) remaining) :
      MeasureCrashes place (endpoint :: remaining)

variable (t now deadline region) in
/-- Whether a look at the measurements of a region comes to a call that crashes. -/
inductive Pass.Crashes (endpoints : List String) : Pass → Prop
  | begins (crashes : MeasureCrashes t now deadline region 0 endpoints) : Crashes endpoints .fresh
  | here {latencies : List Binary64} {call : Call MeasureFailure Binary64}
      {remaining : List String} (crashes : call.Crashes now) :
      Crashes endpoints (.waiting latencies call remaining)
  | later {latencies : List Binary64} {call : Call MeasureFailure Binary64}
      {remaining : List String} (ends : call.Ends now)
      (crashes : MeasureCrashes t now deadline region (latencies.length + 1) remaining) :
      Crashes endpoints (.waiting latencies call remaining)

theorem Pass.measure_eq_none_iff {latencies : List Binary64} {remaining : List String} :
    (Pass.measure t region now deadline latencies remaining).2 = none ↔
      MeasureCrashes t now deadline region latencies.length remaining := by
  induction remaining generalizing latencies with
  | nil =>
    refine iff_of_false (Option.some_ne_none _) ?_
    intro crashes
    cases crashes
  | cons endpoint remaining ih =>
    let call :=
      (t.measure now region latencies.length endpoint).call .deadlineExceeded now deadline
    simp only [Pass.measure]
    by_cases early : now < call.due
    · rw [if_pos early]
      refine iff_of_false (Option.some_ne_none _) ?_
      intro crashes
      cases crashes with
      | here crashes => exact Nat.not_le.mpr early crashes.1
      | later ends _ => exact Nat.not_le.mpr early ends.1
    · have due := Nat.not_lt.mp early
      rw [if_neg early]
      cases latency : latencyOf call.outcome with
      | none =>
        simp only [true_iff]
        exact .here ⟨due, latencyOf_eq_none_iff.mp latency⟩
      | some value =>
        have ends := Call.ends_of_latency due latency
        simp only [ih, List.length_append, List.length_singleton]
        constructor
        · exact .later ends
        · intro crashes
          cases crashes with
          | here crashes => exact absurd crashes.2 ends.2
          | later _ crashes => exact crashes

theorem Pass.poll_eq_none_iff {endpoints : List String} {pass : Pass} :
    (pass.poll t endpoints region now deadline).2 = none ↔
      pass.Crashes t now deadline region endpoints := by
  cases pass with
  | fresh =>
    simp only [Pass.poll, measure_eq_none_iff]
    constructor
    · exact .begins
    · intro crashes
      cases crashes with
      | begins crashes => exact crashes
  | waiting latencies call remaining =>
    simp only [Pass.poll]
    by_cases early : now < call.due
    · rw [if_pos early]
      refine iff_of_false (Option.some_ne_none _) ?_
      intro crashes
      cases crashes with
      | here crashes => exact Nat.not_le.mpr early crashes.1
      | later ends _ => exact Nat.not_le.mpr early ends.1
    · have due := Nat.not_lt.mp early
      rw [if_neg early]
      cases latency : latencyOf call.outcome with
      | none => exact iff_of_true rfl (.here ⟨due, latencyOf_eq_none_iff.mp latency⟩)
      | some value =>
        have ends := Call.ends_of_latency due latency
        simp only [measure_eq_none_iff, List.length_append, List.length_singleton]
        constructor
        · exact .later ends
        · intro crashes
          cases crashes with
          | here crashes => exact absurd crashes.2 ends.2
          | later _ crashes => exact crashes
  | finished latencies =>
    refine iff_of_false (Option.some_ne_none _) ?_
    intro crashes
    cases crashes

/-- A look at the regions crashes exactly if the look at one of them does. -/
theorem pollPasses_alive_iff {endpoints : List String} {passes : List Pass} {store : Store} :
    (pollPasses t endpoints now deadline region passes store).2.2.2 = false ↔
      ∃ x ∈ passes.zipIdx region, x.1.Crashes t now deadline x.2 endpoints := by
  induction passes generalizing region store with
  | nil => simp [pollPasses]
  | cons pass rest ih =>
    have here := @Pass.poll_eq_none_iff t now deadline region endpoints pass
    rw [List.zipIdx_cons, List.exists_mem_cons_iff, ← here]
    simp only [pollPasses]
    cases polled : pass.poll t endpoints region now deadline with
    | mk entries stands =>
    cases stands with
    | none => simp
    | some after => simp [ih]


/-! ## The loop -/

variable (t plan now) in
/-- Whether a look at a phase comes to a call that crashes. -/
inductive Phase.Crashes : Phase → Prop
  | fetch {deadline : Nat} {slots : List (Net.Ipv4 × Slot)}
      (crash : SlotsCrash t now deadline 0 slots) : Crashes (.status deadline slots)
  | measure {deadline region : Nat} {passes : List Pass} {pass : Pass}
      (member : (pass, region) ∈ passes.zipIdx)
      (crashes : pass.Crashes t now deadline region plan.endpoints) :
      Crashes (.latency deadline passes)

variable (t plan now) in
/-- Whether a look at the loop comes to a call that crashes: in the phase that it is in or that begins
now, or in the latency phase if the status phase has ended by now. -/
inductive Stage.Crashes : Stage → Prop
  | wakes {wakeUp : Nat} (passed : wakeUp ≤ now)
      (crashes : Crashes (.working (.beginStatus plan now))) : Crashes (.sleeping wakeUp)
  | here {phase : Phase} (crashes : phase.Crashes t plan now) : Crashes (.working phase)
  | next {deadline : Nat} {slots : List (Net.Ipv4 × Slot)} (ended : SlotsEnd t now deadline 0 slots)
      (crashes : (Phase.beginLatency plan now).Crashes t plan now) :
      Crashes (.working (.status deadline slots))

theorem Loop.workLatency_crashes_iff {loop : Loop} {passes : List Pass}
    (stage : loop.stage = .working (.latency deadline passes)) (going : loop.ending = none) :
    (loop.workLatency t plan now).ending = some (now, .crashed) ∧
        (Phase.latency deadline passes).Crashes t plan now ∨
      (loop.workLatency t plan now).ending = none ∧
        ¬ (Phase.latency deadline passes).Crashes t plan now := by
  have alive := @pollPasses_alive_iff t now deadline 0 plan.endpoints passes loop.store
  cases polled : pollPasses t plan.endpoints now deadline 0 passes loop.store with
  | mk entries rest =>
  obtain ⟨store, after, lives⟩ := rest
  rw [polled] at alive
  simp only [workLatency, stage, work, Phase.poll, polled]
  cases lives with
  | false =>
    left
    obtain ⟨x, member, crashes⟩ := alive.mp rfl
    exact ⟨rfl, .measure member crashes⟩
  | true =>
    right
    refine ⟨?_, ?_⟩
    · by_cases all : after.all Pass.isFinished = true
      · simp [all, going]
      · simp [all, going]
    · intro crashes
      cases crashes with
      | measure member crashes => exact Bool.noConfusion (alive.mpr ⟨_, member, crashes⟩)

theorem Loop.workStatus_crashes_iff {loop : Loop} {slots : List (Net.Ipv4 × Slot)}
    (stage : loop.stage = .working (.status deadline slots)) (going : loop.ending = none) :
    (loop.proceed t plan now).ending = some (now, .crashed) ∧ loop.stage.Crashes t plan now ∨
      (loop.proceed t plan now).ending = none ∧ ¬ loop.stage.Crashes t plan now := by
  have awake : loop.wake plan now = loop := by simp only [wake, stage]
  rw [proceed, awake, stage]
  have looked := pollSlots_cases t now deadline 0 slots
  cases polled : pollSlots t now deadline 0 slots with
  | mk entries stands =>
  rw [polled] at looked
  rcases looked with ⟨rfl, crash⟩ | ⟨after, rfl, lives, ended⟩
  · left
    simp only [workStatus, stage, work, Phase.poll, polled]
    exact ⟨rfl, .here (.fetch crash)⟩
  · cases records : statuses? after with
    | none =>
      rw [records] at ended
      right
      refine ⟨?_, ?_⟩
      · simp only [workStatus, stage, work, Phase.poll, polled, records, going,
          Option.isSome_none, Bool.false_eq_true, if_false, workLatency]
      · intro crashes
        cases crashes with
        | here crashes =>
          cases crashes with
          | fetch crash => exact lives crash
        | next allEnd _ => exact Bool.noConfusion (ended.mpr allEnd)
    | some statuses =>
      rw [records] at ended
      have allEnd := ended.mp rfl
      simp only [workStatus, stage, work, Phase.poll, polled, records, going, Option.isSome_none,
        Bool.false_eq_true, if_false]
      let tried := tryCommit loop.store (.status statuses)
      let measuring : Loop := ⟨.working (.beginLatency plan now), tried.2,
        loop.journal ++ (entries ++ [tried.1]).map (now, ·), none⟩
      have begun : measuring.stage =
          .working (.latency (now + plan.latencyTimeout) (List.replicate plan.regionCount .fresh)) :=
        rfl
      rcases workLatency_crashes_iff begun rfl with ⟨dies, crashes⟩ | ⟨goes, survives⟩
      · exact .inl ⟨dies, .next allEnd crashes⟩
      · refine .inr ⟨goes, ?_⟩
        intro crashes
        cases crashes with
        | here crashes =>
          cases crashes with
          | fetch crash => exact lives crash
        | next _ crashes => exact survives crashes

/-- A look at the loop ends it exactly if it comes to a call that crashes. -/
theorem Loop.proceed_crashes_iff {loop : Loop} (going : loop.ending = none) :
    (loop.proceed t plan now).ending = some (now, .crashed) ∧ loop.stage.Crashes t plan now ∨
      (loop.proceed t plan now).ending = none ∧ ¬ loop.stage.Crashes t plan now := by
  cases stage : loop.stage with
  | sleeping wakeUp =>
    by_cases passed : wakeUp ≤ now
    · let woken := { loop with stage := .working (.beginStatus plan now) }
      have begun : woken.stage = .working (.beginStatus plan now) := rfl
      have looked := @workStatus_crashes_iff t plan now _ woken _ begun going
      rw [proceed_of_awake stage passed]
      rcases looked with ⟨dies, crashes⟩ | ⟨goes, survives⟩
      · exact .inl ⟨dies, .wakes passed crashes⟩
      · refine .inr ⟨goes, ?_⟩
        intro crashes
        cases crashes with
        | wakes _ crashes => exact survives crashes
    · right
      refine ⟨?_, ?_⟩
      · rw [proceed_of_asleep stage passed going, going]
      · intro crashes
        cases crashes with
        | wakes due _ => exact passed due
  | working phase =>
    cases phase with
    | status deadline slots =>
      rw [← stage]
      exact workStatus_crashes_iff stage going
    | latency deadline passes =>
      rw [proceed_of_latency stage going]
      rcases workLatency_crashes_iff stage going with ⟨dies, crashes⟩ | ⟨goes, survives⟩
      · exact .inl ⟨dies, .here crashes⟩
      · refine .inr ⟨goes, ?_⟩
        intro crashes
        cases crashes with
        | here crashes => exact survives crashes

end Steering.Refresh
