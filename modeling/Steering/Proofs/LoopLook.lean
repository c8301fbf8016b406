import Steering.Proofs.PhaseLook
import Steering.Proofs.SignalWait
/-! What one look at the loop does: how far it gets in its cycle, and which commits it makes on the
way. -/

namespace Steering.Refresh

/-- Whether regions are being measured. -/
def Stage.isMeasuring : Stage → Bool
  | .working (.latency _ _) => true
  | _ => false

variable (t : Responder) (heard : List Arrival) (seen : List (Nat × Entry)) (plan : Plan)
  (now : Nat)

/-- What a look at the loop can do: its stage before, what its commits are for, and its stage after
it. -/
inductive Stage.Advance : Stage → List (Option Nat) → Stage → Prop
  | rests {stage : Stage} : Advance stage [] stage
  | asks {stage : Stage} {deadline : Nat} {slots : List (Net.Ipv4 × Slot)}
      (early : stage.isMeasuring = false) : Advance stage [] (.working (.status deadline slots))
  | measures {stage : Stage} {deadline : Nat} {passes : List Pass} {new : List Nat}
      (early : stage.isMeasuring = false) (finishes : new.Perm (finishedRegions 0 passes))
      (length : passes.length = plan.regionCount) :
      Advance stage (none :: new.map some) (.working (.latency deadline passes))
  | cycles {stage : Stage} {wakeUp : Nat} {order : List Nat} (early : stage.isMeasuring = false)
      (finishes : order.Perm (List.range plan.regionCount)) :
      Advance stage (none :: order.map some) (.sleeping wakeUp)
  | goesOn {deadline : Nat} {passes after : List Pass} {new : List Nat}
      (finishes : (finishedRegions 0 passes ++ new).Perm (finishedRegions 0 after))
      (length : after.length = passes.length) :
      Advance (.working (.latency deadline passes)) (new.map some)
        (.working (.latency deadline after))
  | completes {deadline wakeUp : Nat} {passes : List Pass} {new : List Nat}
      (finishes : (finishedRegions 0 passes ++ new).Perm (List.range plan.regionCount)) :
      Advance (.working (.latency deadline passes)) (new.map some) (.sleeping wakeUp)

/-- Whether the stage of a loop can be looked at. -/
def Stage.Sound : Stage → Prop
  | working phase => phase.Sound t heard seen plan now
  | sleeping _ => True

/-- What looks at a loop add to it: entries at the end of its journal that account for its state,
and the way that its stage has gone. -/
structure Loop.Grown (loop grown : Loop) (entries : List Entry) : Prop where
  journal : grown.journal = loop.journal ++ entries.map (now, ·)
  accounted : Accounted t heard grown.journal plan loop.store entries grown.store
  advance : loop.stage.Advance plan (targets entries) grown.stage
  sound : grown.ending = none → grown.stage.Sound t heard grown.journal plan now

variable {t heard seen plan now}

theorem Stage.Sound.mono {moreHeard : List Arrival} {moreSeen : List (Nat × Entry)} {later : Nat}
    (hears : heard ⊆ moreHeard) (sees : seen ⊆ moreSeen) (passed : now ≤ later) {stage : Stage}
    (sound : stage.Sound t heard seen plan now) :
    stage.Sound t moreHeard moreSeen plan later := by
  cases stage with
  | working phase => exact Phase.Sound.mono hears sees passed sound
  | sleeping wakeUp => trivial

theorem finishedRegions_fresh (region count : Nat) :
    finishedRegions region (List.replicate count .fresh) = [] := by
  induction count generalizing region with
  | zero => rfl
  | succ count ih => simp [List.replicate_succ, finishedRegions, Pass.isFinished, ih]

/-- What a look does from the beginning of a latency phase on, it does after the status phase. -/
theorem Stage.Advance.after_status {stage next : Stage} {made : List (Option Nat)}
    (early : stage.isMeasuring = false)
    (advance : (Stage.working (.beginLatency plan now)).Advance plan made next) :
    stage.Advance plan (none :: made) next := by
  have none_finished := finishedRegions_fresh 0 plan.regionCount
  generalize measuring : Stage.working (.beginLatency plan now) = first at advance
  -- A stage that measures already cannot begin to, so only three of the cases are left.
  cases advance with
  | rests =>
    rw [← measuring]
    have finishes : [].Perm (finishedRegions 0 (List.replicate plan.regionCount .fresh)) := by
      rw [none_finished]
    exact .measures early finishes List.length_replicate
  | asks notMeasuring =>
    rw [← measuring] at notMeasuring
    cases notMeasuring
  | measures notMeasuring _ _ =>
    rw [← measuring] at notMeasuring
    cases notMeasuring
  | cycles notMeasuring _ =>
    rw [← measuring] at notMeasuring
    cases notMeasuring
  | goesOn finishes length =>
    cases measuring
    rw [none_finished] at finishes
    exact .measures early finishes (length.trans List.length_replicate)
  | completes finishes =>
    cases measuring
    rw [none_finished] at finishes
    exact .cycles early finishes

/-- What a look does from the beginning of a status phase on, it does after the pause. -/
theorem Stage.Advance.after_pause {wakeUp : Nat} {next : Stage} {made : List (Option Nat)}
    (advance : (Stage.working (.beginStatus plan now)).Advance plan made next) :
    (Stage.sleeping wakeUp).Advance plan made next := by
  generalize asking : Stage.working (.beginStatus plan now) = first at advance
  cases advance with
  | rests =>
    rw [← asking]
    exact .asks rfl
  | asks _ => exact .asks rfl
  | measures _ finishes length => exact .measures rfl finishes length
  | cycles _ finishes => exact .cycles rfl finishes
  | goesOn _ _ => cases asking
  | completes _ => cases asking

section Look

variable {loop : Loop}

/-- The loop after a look at its phase, by where the phase stands then. -/
def Loop.worked (now : Nat) (loop : Loop) (entries : List Entry) (store : Store) (next : Stage) :
    Progress → Loop
  | .waiting after => ⟨.working after, store, loop.journal ++ entries.map (now, ·), loop.ending⟩
  | .finished => ⟨next, store, loop.journal ++ entries.map (now, ·), loop.ending⟩
  | .crashed after =>
    ⟨.working after, store, loop.journal ++ entries.map (now, ·), some (now, .crashed)⟩

variable (fits : plan.Fits loop.store)

/-- A phase that can be looked at can be looked at when more has been done. -/
theorem Phase.Ready.mono {moreSeen : List (Nat × Entry)} (sees : seen ⊆ moreSeen) {phase : Phase}
    (ready : phase.Ready t heard seen plan now) : phase.Ready t heard moreSeen plan now := by
  cases ready with
  | beginsStatus => exact .beginsStatus
  | beginsLatency => exact .beginsLatency
  | goesOn sound => exact .goesOn (sound.mono (List.Subset.refl _) sees (Nat.le_refl _))

include fits

theorem Loop.work_look {phase : Phase} (ready : phase.Ready t heard loop.journal plan now)
    (next : Stage) :
    ∃ entries store progress,
      loop.work t plan now phase next = loop.worked now entries store next progress ∧
      Accounted t heard (loop.journal ++ entries.map (now, ·)) plan loop.store entries store ∧
      phase.Look t heard (loop.journal ++ entries.map (now, ·)) plan now (targets entries)
        progress := by
  cases polled : phase.poll t plan now loop.store with
  | mk entries rest =>
  obtain ⟨store, progress⟩ := rest
  refine ⟨entries, store, progress, ?_, ?_⟩
  · cases progress <;> simp [Loop.work, polled, Loop.worked, Loop.finish]
  · apply Phase.look fits (ready.mono (List.subset_append_left _ _)) polled
    intro entry member
    exact List.mem_append_right _ (List.mem_map_of_mem member)

/-- A loop that measures stops at what it comes to, and rests when it has everything. -/
theorem Loop.workLatency_look {deadline : Nat} {passes : List Pass}
    (stage : loop.stage = .working (.latency deadline passes))
    (ready : (Phase.latency deadline passes).Ready t heard loop.journal plan now) :
    ∃ entries store progress,
      Accounted t heard (loop.journal ++ entries.map (now, ·)) plan loop.store entries store ∧
      (Phase.latency deadline passes).Look t heard (loop.journal ++ entries.map (now, ·)) plan now
        (targets entries) progress ∧
      loop.workLatency t plan now =
        loop.worked now entries store (.sleeping (now + plan.interval)) progress := by
  obtain ⟨entries, store, progress, worked, accounted, look⟩ :=
    Loop.work_look fits ready (.sleeping (now + plan.interval))
  exact ⟨entries, store, progress, accounted, look, by simp only [Loop.workLatency, stage, worked]⟩

/-- A loop that measures goes on with it. -/
theorem Loop.workLatency_grown {deadline : Nat} {passes : List Pass}
    (stage : loop.stage = .working (.latency deadline passes))
    (ready : (Phase.latency deadline passes).Ready t heard loop.journal plan now) :
    ∃ entries, loop.Grown t heard plan now (loop.workLatency t plan now) entries := by
  obtain ⟨entries, store, progress, accounted, look, worked⟩ :=
    Loop.workLatency_look fits stage ready
  rw [worked]
  refine ⟨entries, ?_⟩
  generalize made : targets entries = done at look
  cases look with
  | latencyWaits finishes length sound inTime =>
    refine ⟨rfl, accounted, ?_, fun _ => sound⟩
    rw [stage, made]
    exact .goesOn finishes length
  | latencyBreaks finishes length =>
    refine ⟨rfl, accounted, ?_, nofun⟩
    rw [stage, made]
    exact .goesOn finishes length
  | latencyEnds finishes =>
    refine ⟨rfl, accounted, ?_, fun _ => trivial⟩
    rw [stage, made]
    exact .completes finishes

/-- A loop that asks for records stops at what it comes to, unless it gets all of them: then it begins
to measure. -/
theorem Loop.proceed_of_status {deadline : Nat} {slots : List (Net.Ipv4 × Slot)}
    (stage : loop.stage = .working (.status deadline slots)) (going : loop.ending = none)
    (ready : (Phase.status deadline slots).Ready t heard loop.journal plan now) :
    ∃ entries store progress,
      Accounted t heard (loop.journal ++ entries.map (now, ·)) plan loop.store entries store ∧
      (Phase.status deadline slots).Look t heard (loop.journal ++ entries.map (now, ·)) plan now
        (targets entries) progress ∧
      loop.proceed t plan now =
        if progress = .finished then
          (loop.worked now entries store (.working (.beginLatency plan now)) .finished).workLatency
            t plan now
        else loop.worked now entries store (.working (.beginLatency plan now)) progress := by
  obtain ⟨entries, store, progress, worked, accounted, look⟩ :=
    Loop.work_look fits ready (.working (.beginLatency plan now))
  have awake : loop.wake plan now = loop := by simp only [Loop.wake, stage]
  have same : loop.workStatus t plan now =
      loop.worked now entries store (.working (.beginLatency plan now)) progress := by
    simp only [Loop.workStatus, stage, worked]
  refine ⟨entries, store, progress, accounted, look, ?_⟩
  simp only [Loop.proceed, awake, same]
  generalize targets entries = done at look
  cases look with
  | statusWaits sound inTime =>
    simp [Loop.worked, going, Loop.workLatency]
  | statusBreaks => simp [Loop.worked]
  | statusEnds => simp [Loop.worked, going]

/-- A loop that asks for records goes on with it, and begins to measure when it has them. -/
theorem Loop.workStatus_grown {deadline : Nat} {slots : List (Net.Ipv4 × Slot)}
    (stage : loop.stage = .working (.status deadline slots)) (going : loop.ending = none)
    (ready : (Phase.status deadline slots).Ready t heard loop.journal plan now) :
    ∃ entries, loop.Grown t heard plan now (loop.proceed t plan now) entries := by
  obtain ⟨entries, store, progress, accounted, look, proceeds⟩ :=
    Loop.proceed_of_status fits stage going ready
  have early : loop.stage.isMeasuring = false := by rw [stage]; rfl
  rw [proceeds]
  generalize made : targets entries = done at look
  cases look with
  | statusWaits sound inTime =>
    refine ⟨entries, rfl, accounted, ?_, fun _ => sound⟩
    rw [made]
    exact .asks early
  | statusBreaks =>
    refine ⟨entries, rfl, accounted, ?_, nofun⟩
    rw [made]
    exact .asks early
  | statusEnds =>
    let measuring := loop.worked now entries store (.working (.beginLatency plan now)) .finished
    have fits' : plan.Fits measuring.store := by
      rw [show measuring.store = store from rfl, accounted.replay]
      exact fits.replay _
    have ready : (Phase.beginLatency plan now).Ready t heard measuring.journal plan now :=
      .beginsLatency
    obtain ⟨more, grown⟩ := workLatency_grown fits' rfl ready
    refine ⟨entries ++ more, ?_, ?_, ?_, grown.sound⟩
    · rw [if_pos rfl, grown.journal]
      simp [measuring, Loop.worked]
    · refine Accounted.append (accounted.mono (List.Subset.refl _) ?_) grown.accounted
      rw [if_pos rfl, grown.journal]
      exact List.subset_append_left _ _
    · rw [targets_append, made]
      exact grown.advance.after_status early

/-- A loop goes on with its stage. -/
theorem Loop.proceed_grown (going : loop.ending = none)
    (sound : loop.stage.Sound t heard loop.journal plan now) :
    ∃ entries, loop.Grown t heard plan now (loop.proceed t plan now) entries := by
  cases stage : loop.stage with
  | sleeping wakeUp =>
    by_cases passed : wakeUp ≤ now
    · let woken := { loop with stage := .working (.beginStatus plan now) }
      have ready : (Phase.beginStatus plan now).Ready t heard woken.journal plan now :=
        .beginsStatus
      obtain ⟨entries, grown⟩ : ∃ entries,
          woken.Grown t heard plan now (woken.proceed t plan now) entries :=
        workStatus_grown fits rfl going ready
      rw [proceed_of_awake stage passed]
      exact ⟨entries, grown.journal, grown.accounted,
        stage ▸ grown.advance.after_pause, grown.sound⟩
    · rw [proceed_of_asleep stage passed going]
      exact ⟨[], by simp, .of_calls (by simp), .rests, fun _ => sound⟩
  | working phase =>
    rw [stage] at sound
    cases phase with
    | status deadline slots =>
      exact workStatus_grown fits stage going (.goesOn sound)
    | latency deadline passes =>
      rw [proceed_of_latency stage going]
      exact workLatency_grown fits stage (.goesOn sound)

/-- A look at the loop, whatever the signal says. -/
theorem Loop.poll_grown {receiver : Nat} {channel : Shutdown.Channel}
    (sound : loop.ending = none → loop.stage.Sound t heard loop.journal plan now) :
    ∃ entries, loop.Grown t heard plan now (loop.poll t plan now receiver channel).1 entries := by
  have still (grown : Loop) (journal : grown.journal = loop.journal)
      (store : grown.store = loop.store) (stage : grown.stage = loop.stage)
      (ended : grown.ending.isSome = true) : loop.Grown t heard plan now grown [] := by
    refine ⟨by simp [journal], ?_, ?_, ?_⟩
    · rw [store]
      exact .of_calls (by simp)
    · rw [stage]
      exact .rests
    · intro going
      rw [going] at ended
      cases ended
  cases ended : loop.ending with
  | some ending =>
    have same : (loop.poll t plan now receiver channel).1 = loop := by
      simp only [Loop.poll, ended, Option.isSome_some, if_true]
    rw [same]
    exact ⟨[], still loop rfl rfl rfl (by rw [ended]; rfl)⟩
  | none =>
    cases signal : channel.outcome? with
    | some outcome =>
      have same : (loop.poll t plan now receiver channel).1 =
          loop.finish now (.shutdown outcome) := by
        simp only [Loop.poll, ended, Option.isSome_none, Bool.false_eq_true, if_false,
          channel.wait_eq, signal]
      rw [same]
      exact ⟨[], still _ rfl rfl rfl rfl⟩
    | none =>
      have same : (loop.poll t plan now receiver channel).1 = loop.proceed t plan now := by
        simp only [Loop.poll, ended, Option.isSome_none, Bool.false_eq_true, if_false,
          channel.wait_eq, signal]
      rw [same]
      exact proceed_grown fits ended (sound ended)

end Look

end Steering.Refresh
