import Mathlib.Data.List.Perm.Basic
import Steering.Proofs.Accounting
import Steering.Proofs.LateLook
/-! What one look at a phase does: which calls it ends, what it commits and what it leaves. -/

namespace Steering.Refresh

variable {t : Responder} {heard : List Arrival} {seen : List (Nat × Entry)} {plan : Plan}
  {store next : Store}

/-! ## Status phases -/

variable {now began deadline : Nat} {slots after : List (Net.Ipv4 × Slot)} {passes : List Pass}
  {entries : List Entry}

theorem pollSlots_calls (t : Responder) (now deadline place : Nat)
    (slots : List (Net.Ipv4 × Slot)) :
    ∀ entry ∈ (pollSlots t now deadline place slots).1, entry.isCall = true := by
  induction slots generalizing place with
  | nil => simp [pollSlots]
  | cons head rest ih =>
    obtain ⟨address, slot⟩ := head
    have own : ∀ entry ∈ (slot.poll t now deadline place address).1, entry.isCall = true := by
      cases slot <;> simp [Slot.poll, Entry.isCall]
    intro entry member
    simp only [pollSlots] at member
    split at member
    · rename_i polled
      exact own entry (polled ▸ member)
    · rename_i polled
      rcases List.mem_append.mp member with first | later
      · exact own entry (polled ▸ first)
      · exact ih (place + 1) entry later

theorem sound_pollSlots {place : Nat}
    (ready : ∀ x ∈ slots.zipIdx place, x.1.2 = .fresh ∧ now = began ∨
      x.1.2.Sound t heard seen began deadline now x.2 x.1.1)
    (result : pollSlots t now deadline place slots = (entries, some after))
    (shown : ∀ entry ∈ entries, (now, entry) ∈ seen) :
    after.map Prod.fst = slots.map Prod.fst ∧
      ∀ x ∈ after.zipIdx place, x.1.2.Sound t heard seen began deadline now x.2 x.1.1 := by
  induction slots generalizing place entries after with
  | nil =>
    cases result
    exact ⟨rfl, by simp⟩
  | cons head rest ih =>
    obtain ⟨address, slot⟩ := head
    simp only [List.zipIdx_cons, List.forall_mem_cons] at ready
    simp only [pollSlots] at result
    split at result
    · simp at result
    · rename_i first settled polled
      cases others : pollSlots t now deadline (place + 1) rest with
      | mk more left =>
        simp only [others, Prod.mk.injEq, Option.map_eq_some_iff] at result
        obtain ⟨rfl, remaining, rfl, rfl⟩ := result
        have own := Slot.sound_poll ready.1 polled fun entry member =>
          shown entry (List.mem_append_left _ member)
        obtain ⟨addresses, sound⟩ := ih ready.2 others fun entry member =>
          shown entry (List.mem_append_right _ member)
        refine ⟨by simp [addresses], ?_⟩
        simp only [List.zipIdx_cons, List.forall_mem_cons]
        exact ⟨own, sound⟩

theorem statuses?_cons (address : Net.Ipv4) (slot : Slot) (rest : List (Net.Ipv4 × Slot)) :
    statuses? ((address, slot) :: rest) =
      match slot with
      | .done status => (statuses? rest).map (status :: ·)
      | _ => none := by
  cases slot with
  | done status =>
    simp only [statuses?, List.mapM_cons, Option.map_eq_bind]
    rfl
  | fresh => simp [statuses?]
  | waiting call => simp [statuses?]

/-- There are statuses exactly if every fetch is done. -/
theorem statuses?_eq_some_iff {statuses : List PopStatus} :
    statuses? slots = some statuses ↔ slots.map Prod.snd = statuses.map Slot.done := by
  induction slots generalizing statuses with
  | nil => cases statuses <;> simp [statuses?]
  | cons head rest ih =>
    obtain ⟨address, slot⟩ := head
    rw [statuses?_cons]
    cases slot with
    | done status =>
      cases statuses with
      | nil => simp
      | cons first others => simp [ih, and_comm]
    | fresh => cases statuses <;> simp
    | waiting call => cases statuses <;> simp

theorem statuses?_of_done (done : ∀ x ∈ slots, ∃ status, x.2 = .done status) :
    ∃ statuses, statuses? slots = some statuses := by
  induction slots with
  | nil => exact ⟨[], rfl⟩
  | cons head rest ih =>
    obtain ⟨address, slot⟩ := head
    simp only [List.forall_mem_cons] at done
    obtain ⟨⟨status, rfl⟩, others⟩ := done
    obtain ⟨statuses, all⟩ := ih others
    exact ⟨status :: statuses, by rw [statuses?_cons, all]; rfl⟩

/-- The statuses of fetches that are all done are a whole batch. -/
theorem statusBatch_of_done {statuses : List PopStatus}
    (addresses : slots.map Prod.fst = plan.addresses)
    (sound : ∀ x ∈ slots.zipIdx, x.1.2.Sound t heard seen began (began + plan.statusTimeout)
      now x.2 x.1.1)
    (done : statuses? slots = some statuses) :
    StatusBatch t heard seen plan began statuses := by
  have same := statuses?_eq_some_iff.mp done
  refine ⟨?_, ?_⟩
  · rw [← addresses, List.length_map, ← List.length_map Slot.done, ← same, List.length_map]
  · intro place address status isAddress isStatus
    have slotAt : (slots.map Prod.snd)[place]? = some (.done status) := by
      rw [same, List.getElem?_map, isStatus]
      rfl
    rw [← addresses, List.getElem?_map] at isAddress
    rw [List.getElem?_map] at slotAt
    obtain ⟨entry, found, rfl⟩ := Option.map_eq_some_iff.mp isAddress
    rw [found, Option.map_some, Option.some.injEq] at slotAt
    have own := sound (entry, place) (List.mem_zipIdx_iff_getElem?.mpr found)
    rw [slotAt] at own
    cases own with
    | done fetched record => exact ⟨_, record, fetched⟩

/-! ## Latency phases -/

/-- The regions that have finished, where the first of the passes is that of a given region. -/
def finishedRegions : Nat → List Pass → List Nat
  | _, [] => []
  | region, pass :: rest =>
    (if pass.isFinished then [region] else []) ++ finishedRegions (region + 1) rest

theorem finishedRegions_sublist (region : Nat) (passes : List Pass) :
    (finishedRegions region passes).Sublist (List.range' region passes.length) := by
  induction passes generalizing region with
  | nil => exact List.Sublist.refl _
  | cons pass rest ih =>
    rw [finishedRegions, List.length_cons, List.range'_succ]
    split
    · exact (ih (region + 1)).cons_cons region
    · exact (ih (region + 1)).cons region

/-- When all passes have finished, all regions have. -/
theorem finishedRegions_of_all {region : Nat} {passes : List Pass}
    (all : passes.all Pass.isFinished = true) :
    finishedRegions region passes = List.range' region passes.length := by
  induction passes generalizing region with
  | nil => rfl
  | cons pass rest ih =>
    simp only [List.all_cons, Bool.and_eq_true] at all
    simp [finishedRegions, all.1, ih all.2, List.range'_succ]

theorem Pass.measure_calls (t : Responder) (region now deadline : Nat)
    (latencies : List Binary64) (remaining : List String) :
    ∀ entry ∈ (Pass.measure t region now deadline latencies remaining).1,
      entry.isCall = true := by
  induction remaining generalizing latencies with
  | nil => simp [Pass.measure]
  | cons endpoint remaining ih =>
    have own : (Entry.measured region endpoint).isCall = true := rfl
    simp only [Pass.measure]
    split
    · simpa using own
    · split
      · simpa using own
      · simpa using ⟨own, ih _⟩

theorem Pass.poll_calls (t : Responder) (endpoints : List String) (region now deadline : Nat)
    (pass : Pass) :
    ∀ entry ∈ (pass.poll t endpoints region now deadline).1, entry.isCall = true := by
  cases pass with
  | fresh => exact Pass.measure_calls t region now deadline [] endpoints
  | waiting latencies call remaining =>
    simp only [Pass.poll]
    split
    · simp
    · split
      · simp
      · exact Pass.measure_calls t region now deadline _ remaining
  | finished latencies => simp [Pass.poll]

/-- Measurements that are complete stay as they are. -/
theorem Pass.isFinished_poll {endpoints : List String} {region : Nat} {before pass : Pass}
    (result : before.poll t endpoints region now deadline = (entries, some pass))
    (finished : before.isFinished = true) : pass.isFinished = true := by
  cases before with
  | finished latencies =>
    cases result
    rfl
  | fresh => simp [Pass.isFinished] at finished
  | waiting _ _ _ => simp [Pass.isFinished] at finished

section Passes

variable (fits : plan.Fits store)
include fits

/-- A region commits at the look at which it becomes complete, and only then. -/
theorem commitPass_look {region : Nat} (known : region < plan.regionCount) {before pass : Pass}
    (sound : pass.Sound t heard seen plan.endpoints began (began + plan.latencyTimeout) now region)
    (keeps : before.isFinished = true → pass.isFinished = true)
    (result : commitPass store region before pass = (entries, next)) :
    Accounted t heard seen plan store entries next ∧
      ∃ new : List Nat, targets entries = new.map some ∧
        (if before.isFinished then [region] else []) ++ new =
          if pass.isFinished then [region] else [] := by
  cases finished : before.isFinished with
  | true =>
    have idle : commitPass store region before pass = ([], store) := by
      cases before <;> simp_all [Pass.isFinished, commitPass]
    cases idle.symm.trans result
    exact ⟨.of_calls (by simp), [], rfl, by simp [keeps finished]⟩
  | false =>
    cases sound with
    | waiting _ _ _ _ _ =>
      have idle : entries = [] ∧ next = store := by
        cases before <;> simp_all [commitPass]
      obtain ⟨rfl, rfl⟩ := idle
      exact ⟨.of_calls (by simp), [], rfl, rfl⟩
    | finished whole =>
      rename_i latencies last
      have batch : WholeBatch t heard seen plan (.latency region latencies) :=
        ⟨known, began, last, whole⟩
      obtain ⟨tried, accounted⟩ := tryCommit_whole fits batch
      have made : commitPass store region before (.finished latencies) =
          ([.committed (.latency region latencies)], store.offer (.latency region latencies)) := by
        cases before <;> simp_all [commitPass, Pass.isFinished]
      cases made.symm.trans result
      exact ⟨accounted, [region], rfl, rfl⟩

/-- A look at the regions accounts for the change of the state, and the regions that commit are
those that become complete. -/
theorem pollPasses_look {region : Nat} {left : List Pass} {alive : Bool}
    (bound : region + passes.length ≤ plan.regionCount)
    (ready : ∀ x ∈ passes.zipIdx region, x.1 = .fresh ∧ now = began ∨
      x.1.Sound t heard seen plan.endpoints began (began + plan.latencyTimeout) now x.2)
    (result : pollPasses t plan.endpoints now (began + plan.latencyTimeout) region passes store =
      (entries, next, left, alive))
    (shown : ∀ entry ∈ entries, (now, entry) ∈ seen) :
    Accounted t heard seen plan store entries next ∧
      left.length = passes.length ∧
      (∃ new : List Nat, targets entries = new.map some ∧
        (finishedRegions region passes ++ new).Perm (finishedRegions region left)) ∧
      (alive = true → ∀ x ∈ left.zipIdx region,
        x.1.Sound t heard seen plan.endpoints began (began + plan.latencyTimeout) now x.2) := by
  induction passes generalizing region store entries next left alive with
  | nil =>
    cases result
    exact ⟨.of_calls (by simp), rfl, ⟨[], rfl, .refl _⟩, by simp⟩
  | cons pass rest ih =>
    simp only [List.zipIdx_cons, List.forall_mem_cons] at ready
    simp only [List.length_cons] at bound
    have calls := Pass.poll_calls t plan.endpoints region now (began + plan.latencyTimeout) pass
    simp only [pollPasses] at result
    cases polled : pass.poll t plan.endpoints region now (began + plan.latencyTimeout) with
    | mk measures stands =>
    rw [polled] at calls
    have quiet : Accounted t heard seen plan store measures store := .of_calls calls
    have nothing : targets measures = [] := by rw [targets, commits_of_calls calls, List.map_nil]
    cases stands with
    | none =>
      simp only [polled] at result
      cases result
      exact ⟨quiet, rfl, ⟨[], nothing, by rw [List.append_nil]⟩, (Bool.noConfusion ·)⟩
    | some after =>
      simp only [polled] at result
      cases committed : commitPass store region pass after with
      | mk own between =>
      cases others : pollPasses t plan.endpoints now (began + plan.latencyTimeout) (region + 1) rest
        between with
      | mk more others' =>
      obtain ⟨last, remaining, all⟩ := others'
      simp only [committed, others] at result
      cases result
      have sound := Pass.sound_poll ready.1 polled fun entry member =>
        shown entry (by simp [member])
      obtain ⟨ownAccounted, ownNew, ownTargets, ownFinished⟩ :=
        commitPass_look fits (by omega) sound (Pass.isFinished_poll polled)
          committed
      have fits' : plan.Fits between := by
        rw [ownAccounted.replay]
        exact fits.replay _
      obtain ⟨accounted, length, ⟨new, newTargets, finished⟩, sounds⟩ :=
        ih fits' (by omega) ready.2 others fun entry member => shown entry (by simp [member])
      refine ⟨(quiet.append ownAccounted).append accounted, by simp [length],
        ⟨ownNew ++ new, ?_, ?_⟩, ?_⟩
      · rw [targets_append, targets_append, nothing, ownTargets, newTargets, List.map_append]
        rfl
      · rw [finishedRegions, finishedRegions, ← ownFinished]
        -- The commit of the first region was made before those of the rest.
        refine List.Perm.trans ?_ ((List.Perm.refl _).append finished)
        simp only [List.append_assoc]
        refine (List.Perm.refl _).append ?_
        rw [← List.append_assoc, ← List.append_assoc]
        exact List.perm_append_comm.append (.refl _)
      · intro alive
        simp only [List.zipIdx_cons, List.forall_mem_cons]
        exact ⟨sound, sounds alive⟩

end Passes

/-! ## Phases -/

variable (t heard seen plan now) in
/-- A phase as far as it has come by now. -/
inductive Phase.Sound : Phase → Prop
  | status {began : Nat} {slots : List (Net.Ipv4 × Slot)}
      (addresses : slots.map Prod.fst = plan.addresses)
      (sound : ∀ x ∈ slots.zipIdx,
        x.1.2.Sound t heard seen began (began + plan.statusTimeout) now x.2 x.1.1) :
      Sound (.status (began + plan.statusTimeout) slots)
  | latency {began : Nat} {passes : List Pass} (length : passes.length = plan.regionCount)
      (sound : ∀ x ∈ passes.zipIdx,
        x.1.Sound t heard seen plan.endpoints began (began + plan.latencyTimeout) now x.2) :
      Sound (.latency (began + plan.latencyTimeout) passes)

variable (t heard seen plan now) in
/-- A phase that can be looked at: it begins now, or it has come to where it is in order. -/
inductive Phase.Ready : Phase → Prop
  | beginsStatus : Ready (.beginStatus plan now)
  | beginsLatency : Ready (.beginLatency plan now)
  | goesOn {phase : Phase} (sound : phase.Sound t heard seen plan now) : Ready phase

variable (t heard seen plan now) in
/-- What a look at a phase comes to: what its commits are for, and where the phase stands. -/
inductive Phase.Look : Phase → List (Option Nat) → Progress → Prop
  | statusWaits {deadline : Nat} {slots after : List (Net.Ipv4 × Slot)}
      (sound : (Phase.status deadline after).Sound t heard seen plan now)
      (inTime : now < deadline) :
      Look (.status deadline slots) [] (.waiting (.status deadline after))
  | statusBreaks {deadline : Nat} {slots : List (Net.Ipv4 × Slot)} :
      Look (.status deadline slots) [] (.crashed (.status deadline slots))
  | statusEnds {deadline : Nat} {slots : List (Net.Ipv4 × Slot)} :
      Look (.status deadline slots) [none] .finished
  | latencyWaits {deadline : Nat} {passes after : List Pass} {new : List Nat}
      (finishes : (finishedRegions 0 passes ++ new).Perm (finishedRegions 0 after))
      (length : after.length = passes.length)
      (sound : (Phase.latency deadline after).Sound t heard seen plan now)
      (inTime : now < deadline) :
      Look (.latency deadline passes) (new.map some) (.waiting (.latency deadline after))
  | latencyBreaks {deadline : Nat} {passes after : List Pass} {new : List Nat}
      (finishes : (finishedRegions 0 passes ++ new).Perm (finishedRegions 0 after))
      (length : after.length = passes.length) :
      Look (.latency deadline passes) (new.map some) (.crashed (.latency deadline after))
  | latencyEnds {deadline : Nat} {passes : List Pass} {new : List Nat}
      (finishes : (finishedRegions 0 passes ++ new).Perm (List.range plan.regionCount)) :
      Look (.latency deadline passes) (new.map some) .finished

theorem Phase.Sound.mono {moreHeard : List Arrival} {moreSeen : List (Nat × Entry)} {later : Nat}
    (hears : heard ⊆ moreHeard) (sees : seen ⊆ moreSeen) (passed : now ≤ later) {phase : Phase}
    (sound : phase.Sound t heard seen plan now) :
    phase.Sound t moreHeard moreSeen plan later := by
  cases sound with
  | status addresses sound =>
    exact .status addresses fun x member => (sound x member).mono hears sees passed
  | latency length sound =>
    exact .latency length fun x member => (sound x member).mono hears sees passed

section Look

variable {progress : Progress} (fits : plan.Fits store)
include fits

private theorem look_status
    (same : slots.map Prod.fst = plan.addresses)
    (ready : ∀ x ∈ slots.zipIdx, x.1.2 = .fresh ∧ now = began ∨
      x.1.2.Sound t heard seen began (began + plan.statusTimeout) now x.2 x.1.1)
    (result : (Phase.status (began + plan.statusTimeout) slots).poll t plan now store =
      (entries, next, progress))
    (shown : ∀ entry ∈ entries, (now, entry) ∈ seen) :
    Accounted t heard seen plan store entries next ∧
      (Phase.status (began + plan.statusTimeout) slots).Look t heard seen plan now
        (targets entries) progress := by
  have calls := pollSlots_calls t now (began + plan.statusTimeout) 0 slots
  cases polled : pollSlots t now (began + plan.statusTimeout) 0 slots with
  | mk fetches left =>
  rw [polled] at calls
  have quiet : Accounted t heard seen plan store fetches store := .of_calls calls
  have nothing : targets fetches = [] := by rw [targets, commits_of_calls calls, List.map_nil]
  cases left with
  | none =>
    simp only [Phase.poll, polled] at result
    cases result
    exact ⟨quiet, nothing ▸ .statusBreaks⟩
  | some after =>
    simp only [Phase.poll, polled] at result
    cases ended : statuses? after with
    | none =>
      simp only [ended] at result
      cases result
      obtain ⟨kept, sound⟩ := sound_pollSlots ready polled shown
      have inTime : now < began + plan.statusTimeout := by
        by_contra late
        have done : ∀ x ∈ after, ∃ status, x.2 = .done status := by
          intro x member
          obtain ⟨place, found⟩ := List.mem_iff_getElem?.mp member
          exact (sound (x, place) (List.mem_zipIdx_iff_getElem?.mpr found)).done_of_late
            (Nat.le_of_not_lt late) (lt_due_pollSlots polled x member)
        obtain ⟨statuses, all⟩ := statuses?_of_done done
        rw [ended] at all
        cases all
      exact ⟨quiet, nothing ▸ .statusWaits (.status (kept.trans same) sound) inTime⟩
    | some statuses =>
      simp only [ended] at result
      have made : ∀ entry ∈ fetches, (now, entry) ∈ seen := by
        intro entry member
        apply shown
        cases result
        exact List.mem_append_left _ member
      obtain ⟨kept, sound⟩ := sound_pollSlots ready polled made
      have batch : WholeBatch t heard seen plan (.status statuses) :=
        ⟨began, statusBatch_of_done (kept.trans same) sound ended⟩
      obtain ⟨tried, accounted⟩ := tryCommit_whole fits batch
      rw [tried] at result
      cases result
      refine ⟨quiet.append accounted, ?_⟩
      rw [targets_append, nothing]
      exact .statusEnds

private theorem look_latency (length : passes.length = plan.regionCount)
    (ready : ∀ x ∈ passes.zipIdx, x.1 = .fresh ∧ now = began ∨
      x.1.Sound t heard seen plan.endpoints began (began + plan.latencyTimeout) now x.2)
    (result : (Phase.latency (began + plan.latencyTimeout) passes).poll t plan now store =
      (entries, next, progress))
    (shown : ∀ entry ∈ entries, (now, entry) ∈ seen) :
    Accounted t heard seen plan store entries next ∧
      (Phase.latency (began + plan.latencyTimeout) passes).Look t heard seen plan now
        (targets entries) progress := by
  cases polled : pollPasses t plan.endpoints now (began + plan.latencyTimeout) 0 passes store with
  | mk made rest =>
  obtain ⟨last, after, alive⟩ := rest
  simp only [Phase.poll, polled] at result
  cases result
  obtain ⟨accounted, kept, ⟨new, commits, finishes⟩, sound⟩ :=
    pollPasses_look fits (by omega) ready polled shown
  refine ⟨accounted, ?_⟩
  rw [commits]
  cases alive with
  | false => exact .latencyBreaks finishes kept
  | true =>
    by_cases all : after.all Pass.isFinished = true
    · simp only [Bool.not_true, Bool.false_eq_true, if_false, all, if_true]
      rw [finishedRegions_of_all all, kept, length, ← List.range_eq_range'] at finishes
      exact .latencyEnds finishes
    · have inTime : now < began + plan.latencyTimeout := by
        by_contra late
        refine all (List.all_eq_true.mpr fun pass member => ?_)
        obtain ⟨region, found⟩ := List.mem_iff_getElem?.mp member
        exact (sound rfl (pass, region) (List.mem_zipIdx_iff_getElem?.mpr found)).isFinished_of_late
          (Nat.le_of_not_lt late) (lt_due_pollPasses polled pass member)
      simp only [Bool.not_true, Bool.false_eq_true, if_false, all]
      exact .latencyWaits finishes kept (.latency (kept.trans length) (sound rfl)) inTime

/-- A look at a phase accounts for the change of the state, whatever is replied. -/
theorem Phase.look {phase : Phase} (ready : phase.Ready t heard seen plan now)
    (result : phase.poll t plan now store = (entries, next, progress))
    (shown : ∀ entry ∈ entries, (now, entry) ∈ seen) :
    Accounted t heard seen plan store entries next ∧
      phase.Look t heard seen plan now (targets entries) progress := by
  cases ready with
  | beginsStatus =>
    refine look_status fits ?_ ?_ result shown
    · simp [Function.comp_def]
    · intro x member
      have found := List.mem_zipIdx_iff_getElem?.mp member
      rw [List.getElem?_map] at found
      obtain ⟨address, -, same⟩ := Option.map_eq_some_iff.mp found
      exact .inl ⟨(congrArg Prod.snd same).symm, rfl⟩
  | beginsLatency =>
    refine look_latency fits List.length_replicate ?_ result shown
    intro x member
    have found := List.mem_of_getElem? (List.mem_zipIdx_iff_getElem?.mp member)
    exact .inl ⟨List.eq_of_mem_replicate found, rfl⟩
  | goesOn sound =>
    cases sound with
    | status same sound =>
      exact look_status fits same (fun x member => .inr (sound x member))
        result shown
    | latency length sound =>
      exact look_latency fits length (fun x member => .inr (sound x member))
        result shown

end Look

end Steering.Refresh
