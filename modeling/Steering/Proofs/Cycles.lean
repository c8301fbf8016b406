import Steering.Proofs.LoopLook
/-! The order in which the loop commits: first the records, then every region once, again and
again. -/

namespace Steering.Refresh

/-- What the commits of a cycle are for, in which the regions commit in some order. -/
def cycle (order : List Nat) : List (Option Nat) :=
  none :: order.map some

/-- What the commits of a phase are for that has come this far. -/
def Phase.Committed : Phase → List (Option Nat) → Prop
  | status _ _, made => made = []
  | latency _ passes, made =>
    ∃ done : List Nat, made = done.map some ∧ done.Perm (finishedRegions 0 passes)

/-- What the commits are for since the cycle began in which a stage is. -/
inductive Stage.Begun (plan : Plan) : Stage → List (Option Nat) → Prop
  | sleeping {wakeUp : Nat} : Begun plan (.sleeping wakeUp) []
  | status {deadline : Nat} {slots : List (Net.Ipv4 × Slot)} :
      Begun plan (.working (.status deadline slots)) []
  | latency {deadline : Nat} {passes : List Pass} {done : List Nat}
      (finished : done.Perm (finishedRegions 0 passes))
      (length : passes.length = plan.regionCount) :
      Begun plan (.working (.latency deadline passes)) (cycle done)

/-- Commits are for whole cycles, and then for the one in which a stage is. -/
def Cyclic (plan : Plan) (stage : Stage) (made : List (Option Nat)) : Prop :=
  ∃ orders : List (List Nat), ∃ begun, (∀ order ∈ orders, order.Perm (List.range plan.regionCount)) ∧
    stage.Begun plan begun ∧ made = orders.flatMap cycle ++ begun

variable {plan : Plan} {stage next : Stage}

theorem Stage.Begun.eq_nil {begun : List (Option Nat)} (early : stage.isMeasuring = false)
    (since : stage.Begun plan begun) : begun = [] := by
  cases since with
  | sleeping => rfl
  | status => rfl
  | latency finished length => cases early

/-- A look keeps the order of the commits. -/
theorem Cyclic.advance {before made : List (Option Nat)} (cyclic : Cyclic plan stage before)
    (advance : stage.Advance plan made next) : Cyclic plan next (before ++ made) := by
  obtain ⟨orders, begun, whole, since, rfl⟩ := cyclic
  cases advance with
  | rests => exact ⟨orders, begun, whole, since, by simp⟩
  | asks early =>
    have nothing := since.eq_nil early
    exact ⟨orders, [], whole, .status, by simp [nothing]⟩
  | measures early finishes length =>
    have nothing := since.eq_nil early
    exact ⟨orders, _, whole, .latency finishes length, by simp [nothing, cycle]⟩
  | cycles early finishes =>
    rename_i wakeUp order
    have nothing := since.eq_nil early
    refine ⟨orders ++ [order], [], ?_, .sleeping, by simp [nothing, cycle]⟩
    intro other member
    rcases List.mem_append.mp member with old | last
    · exact whole other old
    · exact List.mem_singleton.mp last ▸ finishes
  | goesOn finishes length =>
    cases since with
    | latency finished full =>
      rename_i new done
      refine ⟨orders, cycle (done ++ new), whole, .latency ?_ (length.trans full), ?_⟩
      · exact (finished.append (.refl _)).trans finishes
      · simp [cycle]
  | completes finishes =>
    cases since with
    | latency finished full =>
      rename_i wakeUp passes new done
      refine ⟨orders ++ [done ++ new], [], ?_, .sleeping, by simp [cycle]⟩
      intro other member
      rcases List.mem_append.mp member with old | last
      · exact whole other old
      · rw [List.mem_singleton.mp last]
        exact (finished.append (.refl _)).trans finishes

/-- The cycle in which a stage is can be completed. -/
theorem Stage.Begun.extends {begun : List (Option Nat)} (since : stage.Begun plan begun) :
    ∃ order, order.Perm (List.range plan.regionCount) ∧ begun <+: cycle order := by
  cases since with
  | sleeping => exact ⟨_, .refl _, List.nil_prefix⟩
  | status => exact ⟨_, .refl _, List.nil_prefix⟩
  | latency finished length =>
    rename_i passes done
    have part := finishedRegions_sublist 0 passes
    rw [length, ← List.range_eq_range'] at part
    obtain ⟨rest, complete⟩ := part.exists_perm_append
    refine ⟨done ++ rest, ?_, ?_⟩
    · exact (finished.append (.refl _)).trans complete.symm
    · rw [cycle, cycle, List.map_append]
      exact List.cons_prefix_cons.mpr ⟨rfl, List.prefix_append _ _⟩

/-- Commits in the order of the loop are a prefix of cycles. -/
theorem Cyclic.prefix_cycles {made : List (Option Nat)} (cyclic : Cyclic plan stage made) :
    ∃ orders : List (List Nat), (∀ order ∈ orders, order.Perm (List.range plan.regionCount)) ∧
      made <+: orders.flatMap cycle := by
  obtain ⟨orders, begun, whole, since, rfl⟩ := cyclic
  obtain ⟨last, complete, part⟩ := since.extends
  refine ⟨orders ++ [last], ?_, ?_⟩
  · intro order member
    rcases List.mem_append.mp member with old | new
    · exact whole order old
    · exact List.mem_singleton.mp new ▸ complete
  · rw [List.flatMap_append, List.flatMap_singleton]
    exact List.prefix_append_right_inj _ |>.mpr part

theorem length_cycles {orders : List (List Nat)}
    (whole : ∀ order ∈ orders, order.Perm (List.range plan.regionCount)) :
    (orders.flatMap cycle).length = orders.length * (1 + plan.regionCount) := by
  induction orders with
  | nil => simp
  | cons order rest ih =>
    have here := (whole order (List.mem_cons_self ..)).length_eq
    rw [List.length_range] at here
    rw [List.flatMap_cons, List.length_append, List.length_cons,
      ih fun other member => whole other (List.mem_cons_of_mem _ member)]
    rw [cycle, List.length_cons, List.length_map, here, Nat.succ_mul]
    omega

/-- What a look at a phase adds to its commits, as long as the phase has not ended. -/
theorem Phase.Look.committed {t : Responder} {heard : List Arrival} {seen : List (Nat × Entry)}
    {now : Nat} {phase after : Phase} {before made : List (Option Nat)} {progress : Progress}
    (committed : phase.Committed before) (look : phase.Look t heard seen plan now made progress)
    (goes : progress = .waiting after ∨ progress = .crashed after) :
    after.Committed (before ++ made) := by
  cases look with
  | statusWaits sound inTime =>
    rcases goes with goes | goes
    · cases goes
      have nothing : before = [] := committed
      rw [nothing]
      rfl
    · cases goes
  | statusBreaks =>
    rcases goes with goes | goes
    · cases goes
    · cases goes
      have nothing : before = [] := committed
      rw [nothing]
      rfl
  | statusEnds => rcases goes with goes | goes <;> cases goes
  | latencyWaits finishes length sound inTime =>
    rcases goes with goes | goes
    · cases goes
      obtain ⟨done, rfl, finished⟩ := committed
      exact ⟨done ++ _, (List.map_append ..).symm, (finished.append (.refl _)).trans finishes⟩
    · cases goes
  | latencyBreaks finishes length =>
    rcases goes with goes | goes
    · cases goes
    · cases goes
      obtain ⟨done, rfl, finished⟩ := committed
      exact ⟨done ++ _, (List.map_append ..).symm, (finished.append (.refl _)).trans finishes⟩
  | latencyEnds finishes => rcases goes with goes | goes <;> cases goes

end Steering.Refresh
