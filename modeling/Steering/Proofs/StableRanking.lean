import Mathlib.Data.List.Perm.Basic
import Steering.Proofs.RankingOrder
/-! Rankings of arbitrary candidates: the policies compare by keys in the total order of bit
patterns, and a ranking is the one order of the healthy candidates that goes by the keys and then
by their places in the input. -/

namespace Steering

/-- Whether a pattern comes before another in the total order of IEEE 754: those with the sign set
come first and stand by falling magnitude, the others stand by rising magnitude. -/
inductive Binary64.ComesBefore : Binary64 → Binary64 → Prop
  | negative {x y : Binary64} (left : x.signed = true) (right : y.signed = true)
      (falls : y.magnitude < x.magnitude) : ComesBefore x y
  | across {x y : Binary64} (left : x.signed = true) (right : y.signed = false) : ComesBefore x y
  | positive {x y : Binary64} (left : x.signed = false) (right : y.signed = false)
      (rises : x.magnitude < y.magnitude) : ComesBefore x y

theorem Binary64.orderKey_lt_iff {x y : Binary64} : x.orderKey < y.orderKey ↔ x.ComesBefore y := by
  constructor
  · intro less
    rw [orderKey, orderKey] at less
    cases left : x.signed <;> cases right : y.signed <;> simp only [left, right] at less
    · exact .positive left right (by simpa using less)
    · simp at less
      omega
    · exact .across left right
    · refine .negative left right ?_
      simp at less
      omega
  · rw [orderKey, orderKey]
    rintro (⟨left, right, falls⟩ | ⟨left, right⟩ | ⟨left, right, rises⟩)
    · simp only [left, right, if_true]
      omega
    · simp only [left, right, if_true, Bool.false_eq_true, if_false]
      omega
    · simp only [left, right, Bool.false_eq_true, if_false]
      omega

/-- Only one pattern has a place in the total order. -/
theorem Binary64.orderKey_injective {x y : Binary64} (same : x.orderKey = y.orderKey) : x = y := by
  have whole : x.bits.toNat = y.bits.toNat := by
    simp only [orderKey, signed, magnitude, decide_eq_true_eq] at same
    have xBound := x.bits.toNat_lt
    have yBound := y.bits.toNat_lt
    split at same <;> split at same <;> omega
  cases x
  cases y
  exact congrArg mk (UInt64.toNat_inj.mp whole)

namespace RankingPolicy

/-- What a policy orders a candidate by: its latency, its load, or nothing at all. -/
def keyOf : RankingPolicy → Candidate → Option Binary64
  | lowestLatency, candidate => candidate.latency
  | configOrder, _ => none
  | leastLoad, candidate => some candidate.load

/-- Whether a key is strictly below another. An absent one is below none, and all that are present
are below it. -/
def KeyBelow : Option Binary64 → Option Binary64 → Prop
  | some x, some y => x.ComesBefore y
  | some _, none => True
  | none, _ => False

/-- The indices of the healthy candidates, as often as they are listed, in the order of their keys,
and in the order of the list where the keys are equal. -/
def IsRanking (policy : RankingPolicy) (candidates : List Candidate) (order : List Nat) : Prop :=
  ∃ ranked : List (Candidate × Nat), order = ranked.map (·.1.index) ∧
    ranked.Perm (candidates.zipIdx.filter (·.1.healthy)) ∧
    ranked.Pairwise fun a b => KeyBelow (policy.keyOf a.1) (policy.keyOf b.1) ∨
      policy.keyOf a.1 = policy.keyOf b.1 ∧ a.2 < b.2

theorem not_keyBelow_self (key : Option Binary64) : ¬ KeyBelow key key := by
  cases key with
  | none => exact id
  | some x =>
    rw [KeyBelow, ← Binary64.orderKey_lt_iff]
    exact Int.lt_irrefl _

theorem KeyBelow.asymm {key other : Option Binary64} (below : KeyBelow key other) :
    ¬ KeyBelow other key := by
  cases key with
  | none => exact absurd below id
  | some x =>
    cases other with
    | none => exact id
    | some y =>
      rw [KeyBelow, ← Binary64.orderKey_lt_iff] at below ⊢
      exact Int.not_lt.mpr (Int.le_of_lt below)

variable {policy : RankingPolicy}

theorem le_iff {a b : Candidate} :
    policy.le a b = true ↔ KeyBelow (policy.keyOf a) (policy.keyOf b) ∨
      policy.keyOf a = policy.keyOf b := by
  have compare (x y : Binary64) :
      decide (x.orderKey ≤ y.orderKey) = true ↔ x.ComesBefore y ∨ some x = some y := by
    rw [decide_eq_true_eq, Int.le_iff_lt_or_eq, Binary64.orderKey_lt_iff, Option.some.injEq]
    exact or_congr_right ⟨Binary64.orderKey_injective, congrArg _⟩
  cases policy with
  | configOrder => simp [le, keyOf]
  | leastLoad => exact compare a.load b.load
  | lowestLatency =>
    simp only [le, keyOf]
    cases a.latency <;> cases b.latency
    · simp [latencyLe]
    · simp [latencyLe, KeyBelow]
    · simp [latencyLe, KeyBelow]
    · exact compare _ _

/-- In what the sort leaves, candidates stand by their keys and then by their places. -/
theorem rank_isRanking (policy : RankingPolicy) (candidates : List Candidate) :
    policy.IsRanking candidates (policy.rank candidates) := by
  let before (a b : Candidate × Nat) : Bool := policy.le a.1 b.1
  let healthy := candidates.zipIdx.filter (·.1.healthy)
  have ordered : healthy.Pairwise fun a b => a.2 < b.2 :=
    (pairwise_zipIdx candidates).filter _
  refine ⟨healthy.mergeSort before, ?_, List.mergeSort_perm _ _, ?_⟩
  · have plain : healthy.map Prod.fst = candidates.filter (·.healthy) := by
      rw [← List.zipIdx_map_fst 0 candidates, List.filter_map]
      rfl
    have sorted : (healthy.mergeSort before).map Prod.fst = policy.ranked candidates := by
      rw [ranked, ← plain]
      exact List.map_mergeSort fun _ _ _ _ => rfl
    rw [rank_eq, ← sorted, List.map_map]
    rfl
  · have stable : (healthy.mergeSort before).Pairwise fun a b =>
        before a b = true ∧ (before b a = true → a.2 < b.2) :=
      pairwise_mergeSort_stable (fun a b c => le_trans a.1 b.1 c.1) (fun a b => le_total a.1 b.1)
        ordered
    refine stable.imp fun {a b} stands => ?_
    rcases le_iff.mp stands.1 with below | same
    · exact .inl below
    · exact .inr ⟨same, stands.2 (le_iff.mpr (.inr same.symm))⟩

theorem IsRanking.unique {candidates : List Candidate} {order other : List Nat}
    (one : policy.IsRanking candidates order) (two : policy.IsRanking candidates other) :
    order = other := by
  obtain ⟨ranked, rfl, perm, sorted⟩ := one
  obtain ⟨rankedToo, rfl, permToo, sortedToo⟩ := two
  refine congrArg _ (List.Perm.eq_of_pairwise ?_ sorted sortedToo (perm.trans permToo.symm))
  rintro a b - - (below | ⟨same, earlier⟩) (above | ⟨sameToo, later⟩)
  · exact absurd above below.asymm
  · exact absurd (sameToo ▸ below) (not_keyBelow_self _)
  · exact absurd (same ▸ above) (not_keyBelow_self _)
  · exact absurd later (Nat.lt_asymm earlier)

/-- Every policy compares any candidates by a total preorder, that of their keys. What it makes of a
list is a ranking, and the only one that there is. -/
theorem ranking_specification (policy : RankingPolicy) (candidates : List Candidate) :
    (∀ a, policy.le a a = true) ∧
    (∀ a b c, policy.le a b = true → policy.le b c = true → policy.le a c = true) ∧
    (∀ a b, policy.le a b = true ∨ policy.le b a = true) ∧
    (∀ a b, policy.le a b = true ↔
      KeyBelow (policy.keyOf a) (policy.keyOf b) ∨ policy.keyOf a = policy.keyOf b) ∧
    ∀ order, policy.IsRanking candidates order ↔ order = policy.rank candidates := by
  refine ⟨fun a => le_iff.mpr (.inr rfl), le_trans, fun a b => ?_, fun a b => le_iff,
    fun order => ?_⟩
  · exact (Bool.or_eq_true _ _).mp (le_total a b)
  · have isRanking := rank_isRanking policy candidates
    exact ⟨fun also => also.unique isRanking, fun same => same ▸ isRanking⟩

end RankingPolicy

end Steering
