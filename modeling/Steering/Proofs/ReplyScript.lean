import Mathlib.Data.ENat.BigOperators
import Steering.Refresh.Phase
/-! Replies that are known beforehand, by the places of the PoPs. Those of a region are asked for one
after another under one deadline, each as soon as the one before it has come or has been given up. How
far the clock has come is the sum of their delays, up to the deadline, and a reply counts if it comes
at once or if that sum is in time. -/

namespace Steering.Refresh

/-- How long a reply takes, which is longer than any time if it never comes. -/
def Reply.duration {ε α : Type} (reply : Reply ε α) : ℕ∞ :=
  match reply.delay with
  | some delay => delay
  | none => ⊤

/-- The replies to the fetches of the PoPs, by their places. -/
abbrev StatusReplies := Nat → Reply FetchFailure PopStatus

/-- The replies to the measurements of a region, by the places of the PoPs. -/
abbrev Replies := Nat → Reply MeasureFailure Binary64

/-- The replies to all calls, whenever they are made and whatever they ask for. -/
def Responder.ofScript (statuses : StatusReplies) (latencies : Nat → Replies) : Responder where
  fetch _ place _ := statuses place
  measure _ region place _ := latencies region place

/-- How long the first replies take, one after another. -/
def spent (replies : Replies) (count : Nat) : ℕ∞ :=
  ∑ place ∈ Finset.range count, (replies place).duration

variable (replies : Replies) (allowed : Nat)

/-- How much time has passed when the first replies have come or have been given up, because the
allowed time is over. -/
def passed : Nat → Nat
  | 0 => 0
  | count + 1 =>
    match (replies count).delay with
    | some delay => min (passed count + delay) allowed
    | none => allowed

/-- Whether a reply counts: it comes at once, or the allowed time is enough for it and for those
before it. -/
def Counts (place : Nat) : Prop :=
  (replies place).delay = some 0 ∨ spent replies (place + 1) ≤ allowed

instance (place : Nat) : Decidable (Counts replies allowed place) :=
  inferInstanceAs (Decidable (_ ∨ _))

/-- The latency that the replies make for a place: what is reported, if this is a finite number that
is not negative in a reply that counts. -/
def scriptedLatency (place : Nat) : Binary64 :=
  match (replies place).outcome with
  | .success x =>
    if (x.isFinite && x.isNonneg) ∧ Counts replies allowed place then x else unreachableLatency
  | _ => unreachableLatency

/-- The latencies that the first replies make. -/
def scriptedLatencies (count : Nat) : List Binary64 :=
  (List.range count).map (scriptedLatency replies allowed)

variable {replies : Replies} {allowed : Nat}

theorem passed_le (count : Nat) : passed replies allowed count ≤ allowed := by
  cases count with
  | zero => exact Nat.zero_le _
  | succ count =>
    rw [passed]
    split
    · exact Nat.min_le_right _ _
    · exact Nat.le_refl _

theorem passed_le_succ (count : Nat) :
    passed replies allowed count ≤ passed replies allowed (count + 1) := by
  have bound := @passed_le replies allowed count
  rw [passed]
  split <;> omega

theorem passed_mono {count later : Nat} (le : count ≤ later) :
    passed replies allowed count ≤ passed replies allowed later :=
  monotone_nat_of_le_succ passed_le_succ le

theorem passed_succ_le {place count : Nat} (inside : place < count) :
    passed replies allowed (place + 1) ≤ passed replies allowed count :=
  passed_mono inside

theorem spent_succ (count : Nat) :
    spent replies (count + 1) = spent replies count + (replies count).duration :=
  Finset.sum_range_succ _ _

/-- As long as the sum of the delays is in time it is the time that has passed, and after that all
the allowed time has passed. -/
theorem passed_cases (count : Nat) :
    (spent replies count = passed replies allowed count) ∨
      (allowed < spent replies count ∧ passed replies allowed count = allowed) := by
  induction count with
  | zero => exact .inl (by simp [spent, passed])
  | succ count ih =>
    rw [spent_succ, Reply.duration, passed]
    cases (replies count).delay with
    | none => exact .inr ⟨by simp, rfl⟩
    | some delay =>
      rcases ih with same | ⟨beyond, all⟩
      · rw [same, ← Nat.cast_add]
        by_cases inTime : passed replies allowed count + delay ≤ allowed
        · exact .inl (congrArg _ (Nat.min_eq_left inTime).symm)
        · have beyond := Nat.lt_of_not_le inTime
          exact .inr ⟨Nat.cast_lt.mpr beyond, Nat.min_eq_right (Nat.le_of_lt beyond)⟩
      · refine .inr ⟨beyond.trans_le le_self_add, ?_⟩
        rw [all]
        exact Nat.min_eq_right (Nat.le_add_right _ _)

/-- The time that has passed is the sum of the delays, up to the allowed time. -/
theorem passed_eq_min (count : Nat) :
    (passed replies allowed count : ℕ∞) = min (spent replies count) allowed := by
  rcases @passed_cases replies allowed count with same | ⟨beyond, all⟩
  · rw [same, min_eq_left (Nat.cast_le.mpr (passed_le count))]
  · rw [all, min_eq_right beyond.le]

/-- Once the allowed time is over, all replies that take any time come too late. -/
theorem counts_iff {place : Nat} : Counts replies allowed place ↔
    ∃ delay, (replies place).delay = some delay ∧
      (delay = 0 ∨ passed replies allowed place + delay ≤ allowed) := by
  rw [Counts, spent_succ, Reply.duration]
  cases (replies place).delay with
  | none => simp
  | some delay =>
    simp only [Option.some.injEq, exists_eq_left']
    refine or_congr_right' fun takes => ?_
    rcases @passed_cases replies allowed place with same | ⟨beyond, all⟩
    · rw [same, ← Nat.cast_add, Nat.cast_le]
    · have late : ¬ spent replies place + delay ≤ allowed := fun le =>
        absurd (le_self_add.trans le) (not_le_of_gt beyond)
      simp only [late, false_iff]
      omega

variable (replies allowed) in
/-- The call for a place, when it is made as soon as the calls before it have ended. -/
def scriptedCall (began place : Nat) : Call MeasureFailure Binary64 :=
  (replies place).call .deadlineExceeded (began + passed replies allowed place) (began + allowed)

theorem scriptedCall_eq (began place : Nat) : scriptedCall replies allowed began place =
    ⟨began + passed replies allowed (place + 1),
      if Counts replies allowed place then (replies place).outcome
      else .failure .deadlineExceeded⟩ := by
  have bound := @passed_le replies allowed place
  rw [scriptedCall, Reply.call, passed]
  cases waits : (replies place).delay with
  | none =>
    have late : ¬ Counts replies allowed place := by simp [counts_iff, waits]
    simp only [if_neg late, Call.mk.injEq, and_true]
    omega
  | some delay =>
    have inTime : Counts replies allowed place ↔
        delay = 0 ∨ passed replies allowed place + delay ≤ allowed := by
      simp [counts_iff, waits]
    have same : began + passed replies allowed place + delay ≤ began + allowed ↔
        passed replies allowed place + delay ≤ allowed := by omega
    simp only [inTime, same]
    split
    · rename_i soon
      simp only [Call.mk.injEq, and_true]
      rcases soon with rfl | soon <;> omega
    · rename_i late
      simp only [Call.mk.injEq, and_true]
      omega

/-- A call makes the latency of its place, unless a crash comes in time. -/
theorem latencyOf_scriptedCall {began place : Nat}
    (alive : Counts replies allowed place → (replies place).outcome ≠ .crash) :
    latencyOf (scriptedCall replies allowed began place).outcome =
      some (scriptedLatency replies allowed place) := by
  rw [scriptedCall_eq, scriptedLatency]
  by_cases soon : Counts replies allowed place
  · cases reported : (replies place).outcome with
    | success x => simp [soon, latencyOf]
    | failure reason => simp [soon, latencyOf]
    | crash => exact absurd reported (alive soon)
  · cases (replies place).outcome <;> simp [soon, latencyOf]

theorem scriptedLatencies_length (count : Nat) :
    (scriptedLatencies replies allowed count).length = count := by simp [scriptedLatencies]

theorem scriptedLatencies_succ (count : Nat) : scriptedLatencies replies allowed (count + 1) =
    scriptedLatencies replies allowed count ++ [scriptedLatency replies allowed count] := by
  simp [scriptedLatencies, List.range_succ]

section Congr

variable {other : Replies} {count : Nat}

theorem spent_congr (same : ∀ place < count, replies place = other place) :
    spent replies count = spent other count :=
  Finset.sum_congr rfl fun place member => by rw [same place (Finset.mem_range.mp member)]

theorem passed_congr (same : ∀ place < count, replies place = other place) :
    passed replies allowed count = passed other allowed count := by
  have clock : (passed replies allowed count : ℕ∞) = passed other allowed count := by
    rw [passed_eq_min, passed_eq_min, spent_congr same]
  exact_mod_cast clock

/-- A latency does not depend on replies that are asked for later. -/
theorem scriptedLatency_congr {place : Nat}
    (same : ∀ earlier ≤ place, replies earlier = other earlier) :
    scriptedLatency replies allowed place = scriptedLatency other allowed place := by
  have sum := @spent_congr replies other (place + 1) fun earlier inside =>
    same earlier (Nat.le_of_lt_succ inside)
  have counts : Counts replies allowed place ↔ Counts other allowed place := by
    rw [Counts, Counts, same place (Nat.le_refl place), sum]
  rw [scriptedLatency, scriptedLatency, same place (Nat.le_refl place)]
  cases (other place).outcome <;> simp only [counts]

theorem take_scriptedLatencies {length : Nat} (inside : count ≤ length)
    (same : ∀ place < count, replies place = other place) :
    (scriptedLatencies replies allowed length).take count =
      (scriptedLatencies other allowed length).take count := by
  rw [scriptedLatencies, scriptedLatencies, ← List.map_take, ← List.map_take, List.take_range,
    Nat.min_eq_left inside]
  refine List.map_congr_left fun place member => scriptedLatency_congr fun earlier le => ?_
  exact same earlier (Nat.lt_of_le_of_lt le (List.mem_range.mp member))

end Congr

end Steering.Refresh
