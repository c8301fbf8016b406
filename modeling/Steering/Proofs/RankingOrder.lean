import Steering.Ranking
/-! The order of a ranking: the policies compare by total preorders, and sorting by one keeps the
order of candidates that it does not tell apart. -/

namespace Steering

/-- Elements that are numbered stand by their numbers. -/
theorem pairwise_zipIdx {α : Type} (list : List α) :
    list.zipIdx.Pairwise fun a b => a.2 < b.2 := by
  refine List.pairwise_map.mp ?_
  rw [List.zipIdx_map_snd]
  exact List.pairwise_lt_range'

/-- A stable sort puts no element before a smaller one, and keeps elements that are not told apart
in a relation in which they stood before. -/
theorem pairwise_mergeSort_stable {α : Type} {le : α → α → Bool} {before : α → α → Prop}
    (trans : ∀ a b c, le a b = true → le b c = true → le a c = true)
    (total : ∀ a b, (le a b || le b a) = true) {list : List α} (ordered : list.Pairwise before) :
    (list.mergeSort le).Pairwise fun a b => le a b = true ∧ (le b a = true → before a b) := by
  induction list with
  | nil => simp
  | cons a rest ih =>
    obtain ⟨left, right, whole, others, smaller⟩ := List.mergeSort_cons trans total a rest
    have first := (List.pairwise_cons.mp ordered).1
    have sorted := ih (List.pairwise_cons.mp ordered).2
    have increasing := List.pairwise_mergeSort trans total (a :: rest)
    have old {b} (member : b ∈ left ++ right) : b ∈ rest := by
      rw [← others] at member
      exact List.mem_mergeSort.mp member
    rw [others] at sorted
    rw [whole] at increasing ⊢
    obtain ⟨sortedLeft, sortedRight, across⟩ := List.pairwise_append.mp sorted
    obtain ⟨_, increasingRight, increasingAcross⟩ := List.pairwise_append.mp increasing
    refine List.pairwise_append.mpr ⟨sortedLeft, List.pairwise_cons.mpr ⟨?_, sortedRight⟩, ?_⟩
    · intro b member
      refine ⟨(List.pairwise_cons.mp increasingRight).1 b member, fun _ => ?_⟩
      exact first b (old (List.mem_append_right _ member))
    · intro b member c later
      rcases List.mem_cons.mp later with same | later
      · subst same
        refine ⟨increasingAcross b member c (List.mem_cons_self ..), fun tie => ?_⟩
        have strict := smaller b member
        simp [tie] at strict
      · exact across b member c later

namespace RankingPolicy

variable {policy : RankingPolicy}

private theorem latencyLe_trans (x y z : Option Binary64) (first : latencyLe x y = true)
    (second : latencyLe y z = true) : latencyLe x z = true := by
  cases x <;> cases y <;> cases z <;> simp_all [latencyLe]
  omega

private theorem latencyLe_total (x y : Option Binary64) :
    (latencyLe x y || latencyLe y x) = true := by
  cases x <;> cases y <;> simp [latencyLe]
  omega

theorem le_trans (a b c : Candidate) (first : policy.le a b = true)
    (second : policy.le b c = true) : policy.le a c = true := by
  cases policy with
  | lowestLatency => exact latencyLe_trans _ _ _ first second
  | configOrder => rfl
  | leastLoad =>
    simp only [le, decide_eq_true_eq] at *
    omega

theorem le_total (a b : Candidate) : (policy.le a b || policy.le b a) = true := by
  cases policy with
  | lowestLatency => exact latencyLe_total _ _
  | configOrder => rfl
  | leastLoad =>
    simp only [le, Bool.or_eq_true, decide_eq_true_eq]
    omega

/-- The healthy candidates as a ranking orders them. -/
def ranked (policy : RankingPolicy) (candidates : List Candidate) : List Candidate :=
  (candidates.filter (·.healthy)).mergeSort policy.le

theorem rank_eq (policy : RankingPolicy) (candidates : List Candidate) :
    policy.rank candidates = (policy.ranked candidates).map (·.index) := rfl

theorem mem_ranked_iff {candidates : List Candidate} {candidate : Candidate} :
    candidate ∈ policy.ranked candidates ↔
      candidate ∈ candidates ∧ candidate.healthy = true := by
  simp [ranked]

/-- Candidates in a ranking stand by the policy, and those that it does not tell apart in the
order of their indices. -/
theorem pairwise_ranked {candidates : List Candidate}
    (ordered : candidates.Pairwise fun a b => a.index < b.index) :
    (policy.ranked candidates).Pairwise fun a b =>
      policy.le a b = true ∧ (policy.le b a = true → a.index < b.index) :=
  pairwise_mergeSort_stable le_trans le_total (ordered.filter _)

end RankingPolicy

end Steering
