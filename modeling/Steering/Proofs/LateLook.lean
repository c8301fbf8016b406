import Steering.Proofs.Provenance
/-! Looks at what a phase waits for. Whatever it still waits for after a look ends later, so when its
time is over it waits for nothing any more. -/

namespace Steering.Refresh

variable {t : Responder} {heard : List Arrival} {seen : List (Nat × Entry)}
  {now began deadline : Nat} {entries : List Entry}

/-! ## Fetches -/

theorem Slot.lt_due_poll {place : Nat} {address : Net.Ipv4} {slot : Slot}
    {call : Call FetchFailure PopStatus}
    (result : slot.poll t now deadline place address = (entries, some (.waiting call))) :
    now < call.due := by
  have settled {made : Call FetchFailure PopStatus}
      (settle : Slot.settle now made = some (.waiting call)) : now < call.due := by
    unfold Slot.settle at settle
    split at settle
    · cases settle
      assumption
    · obtain ⟨status, -, done⟩ := Option.map_eq_some_iff.mp settle
      cases done
  cases slot with
  | fresh => exact settled (Prod.mk.inj result).2
  | waiting made => exact settled (Prod.mk.inj result).2
  | done status => cases (Prod.mk.inj result).2

theorem lt_due_pollSlots {place : Nat} {slots after : List (Net.Ipv4 × Slot)}
    (result : pollSlots t now deadline place slots = (entries, some after)) :
    ∀ x ∈ after, ∀ call, x.2 = .waiting call → now < call.due := by
  induction slots generalizing place entries after with
  | nil =>
    cases result
    nofun
  | cons head rest ih =>
    obtain ⟨address, slot⟩ := head
    simp only [pollSlots] at result
    split at result
    · cases (Prod.mk.inj result).2
    · rename_i first settled polled
      obtain ⟨remaining, others, rfl⟩ := Option.map_eq_some_iff.mp (Prod.mk.inj result).2
      simp only [List.forall_mem_cons]
      refine ⟨?_, ih (Prod.ext rfl others)⟩
      rintro call rfl
      exact Slot.lt_due_poll polled

/-- When its time is over, a fetch does not wait any more. -/
theorem Slot.Sound.done_of_late {place : Nat} {address : Net.Ipv4} {slot : Slot}
    (sound : slot.Sound t heard seen began deadline now place address) (late : deadline ≤ now)
    (ahead : ∀ call, slot = .waiting call → now < call.due) : ∃ status, slot = .done status := by
  cases sound with
  | waiting fetched bounded =>
    have waits := ahead _ rfl
    omega
  | done fetched record => exact ⟨_, rfl⟩

/-! ## Measurements -/

theorem Pass.lt_due_measure {region : Nat} {measured latencies : List Binary64}
    {endpoints remaining : List String} {call : Call MeasureFailure Binary64}
    (result : Pass.measure t region now deadline measured endpoints =
      (entries, some (.waiting latencies call remaining))) : now < call.due := by
  induction endpoints generalizing measured entries with
  | nil => cases (Prod.mk.inj result).2
  | cons endpoint others ih =>
    simp only [Pass.measure] at result
    split at result
    · cases result
      assumption
    · split at result
      · cases (Prod.mk.inj result).2
      · exact ih (Prod.ext rfl (Prod.mk.inj result).2)

theorem Pass.lt_due_poll {region : Nat} {endpoints remaining : List String} {pass : Pass}
    {latencies : List Binary64} {call : Call MeasureFailure Binary64}
    (result : pass.poll t endpoints region now deadline =
      (entries, some (.waiting latencies call remaining))) : now < call.due := by
  cases pass with
  | fresh => exact Pass.lt_due_measure result
  | waiting measured made others =>
    simp only [Pass.poll] at result
    split at result
    · cases result
      assumption
    · split at result
      · cases (Prod.mk.inj result).2
      · exact Pass.lt_due_measure result
  | finished measured => cases (Prod.mk.inj result).2

theorem lt_due_pollPasses {endpoints : List String} {region : Nat} {passes left : List Pass}
    {store next : Store}
    (result : pollPasses t endpoints now deadline region passes store =
      (entries, next, left, true)) :
    ∀ pass ∈ left, ∀ latencies call remaining, pass = .waiting latencies call remaining →
      now < call.due := by
  induction passes generalizing region store entries next left with
  | nil =>
    cases result
    nofun
  | cons pass rest ih =>
    simp only [pollPasses] at result
    split at result
    · cases result
    · rename_i measures after polled
      cases others : pollPasses t endpoints now deadline (region + 1) rest
        (commitPass store region pass after).2 with
      | mk more standing =>
      obtain ⟨last, remaining, alive⟩ := standing
      simp only [others] at result
      cases result
      simp only [List.forall_mem_cons]
      refine ⟨?_, ih others⟩
      rintro latencies call remaining rfl
      exact Pass.lt_due_poll polled

/-- When their time is over, the measurements of a region do not wait any more. -/
theorem Pass.Sound.isFinished_of_late {endpoints : List String} {region : Nat} {pass : Pass}
    (sound : pass.Sound t heard seen endpoints began deadline now region) (late : deadline ≤ now)
    (ahead : ∀ latencies call remaining, pass = .waiting latencies call remaining →
      now < call.due) : pass.isFinished = true := by
  cases sound with
  | waiting split before later past current bounded =>
    have waits := ahead _ _ _ rfl
    omega
  | finished whole => rfl

end Steering.Refresh
