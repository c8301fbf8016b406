import Steering.Proofs.LoopLook
/-! What a reply that arrives does to the loop: it ends a call, and nothing of this can be seen before
the next look. -/

namespace Steering.Refresh

variable {t : Responder} {heard : List Arrival} {seen : List (Nat × Entry)} {plan : Plan}
  {now : Nat}

private theorem forall_zipIdx_modify {α : Type} {items : List α} {place : Nat} {change : α → α}
    {holds : α × Nat → Prop} (all : ∀ x ∈ items.zipIdx, holds x)
    (changed : ∀ item, holds (item, place) → holds (change item, place)) :
    ∀ x ∈ (items.modify place change).zipIdx, holds x := by
  intro x member
  obtain ⟨item, index⟩ := x
  have found := List.mem_zipIdx_iff_getElem?.mp member
  rw [List.getElem?_modify] at found
  obtain ⟨before, present, same⟩ := Option.map_eq_some_iff.mp found
  have old := all (before, index) (List.mem_zipIdx_iff_getElem?.mpr present)
  dsimp only at same
  by_cases here : place = index
  · rw [if_pos here] at same
    rw [← same, ← here]
    exact changed before (here ▸ old)
  · rw [if_neg here] at same
    rw [← same]
    exact old

private theorem map_modify {α β : Type} {shown : α → β} {change : α → α}
    (same : ∀ item, shown (change item) = shown item) (place : Nat) (items : List α) :
    (items.modify place change).map shown = items.map shown := by
  apply List.ext_getElem?
  intro index
  rw [List.getElem?_map, List.getElem?_map, List.getElem?_modify]
  cases items[index]? with
  | none => rfl
  | some item =>
    by_cases here : place = index
    · simp [here, same]
    · simp [here]

theorem Slot.Sound.arrive {began deadline place : Nat} {address : Net.Ipv4} {slot : Slot}
    {outcome : Outcome FetchFailure PopStatus} (arrived : .fetched deadline place outcome ∈ heard)
    (sound : slot.Sound t heard seen began deadline now place address) :
    (slot.arrive now outcome).Sound t heard seen began deadline now place address := by
  cases sound with
  | waiting fetched bounded => exact .waiting ⟨fetched.made, .inr arrived⟩ (Nat.le_max_left _ _)
  | done fetched record => exact .done fetched record

theorem Pass.Sound.arrive {began deadline region place : Nat} {endpoints : List String}
    {pass : Pass} {outcome : Outcome MeasureFailure Binary64}
    (arrived : .measured deadline region place outcome ∈ heard)
    (sound : pass.Sound t heard seen endpoints began deadline now region) :
    (pass.arrive now place outcome).Sound t heard seen endpoints began deadline now region := by
  cases sound with
  | waiting split before later past current bounded =>
    simp only [Pass.arrive]
    split
    · rename_i same
      refine .waiting split before later past ⟨current.made, .inr ?_⟩ (Nat.le_max_left _ _)
      exact same ▸ arrived
    · exact .waiting split before later past current bounded
  | finished whole => exact .finished whole

@[simp] theorem Pass.isFinished_arrive (moment place : Nat)
    (outcome : Outcome MeasureFailure Binary64) (pass : Pass) :
    (pass.arrive moment place outcome).isFinished = pass.isFinished := by
  cases pass <;> rfl

/-- A reply that arrives for a phase can be looked at like any other. -/
theorem Phase.Sound.arrive {phase : Phase} {arrival : Arrival} (arrived : arrival ∈ heard)
    (sound : phase.Sound t heard seen plan now) :
    (phase.arrive now arrival).Sound t heard seen plan now := by
  cases sound with
  | status addresses sound =>
    cases arrival with
    | measured _ _ _ _ => exact .status addresses sound
    | fetched deadline place outcome =>
      simp only [Phase.arrive]
      split
      · rename_i same
        subst same
        refine .status ?_ (forall_zipIdx_modify sound ?_)
        · rw [map_modify, addresses]
          exact fun _ => rfl
        · exact fun _ before => before.arrive arrived
      · exact .status addresses sound
  | latency length sound =>
    cases arrival with
    | fetched _ _ _ => exact .latency length sound
    | measured deadline region place outcome =>
      simp only [Phase.arrive]
      split
      · rename_i same
        subst same
        refine .latency ((List.length_modify ..).trans length) (forall_zipIdx_modify sound ?_)
        exact fun _ before => before.arrive arrived
      · exact .latency length sound

/-- Which regions have finished depends on nothing else of the passes. -/
theorem finishedRegions_congr {passes others : List Pass}
    (same : passes.map Pass.isFinished = others.map Pass.isFinished) (region : Nat) :
    finishedRegions region passes = finishedRegions region others := by
  induction passes generalizing region others with
  | nil =>
    rw [List.map_nil, eq_comm, List.map_eq_nil_iff] at same
    rw [same]
  | cons pass rest ih =>
    cases others with
    | nil => cases same
    | cons other others =>
      rw [List.map_cons, List.map_cons, List.cons.injEq] at same
      rw [finishedRegions, finishedRegions, same.1, ih same.2]

/-- An arrival takes the loop no further in its cycle. -/
theorem Phase.advance_arrive (phase : Phase) (arrival : Arrival) (moment : Nat) :
    (Stage.working phase).Advance plan [] (.working (phase.arrive moment arrival)) := by
  cases phase with
  | status deadline slots =>
    have asks {after : List (Net.Ipv4 × Slot)} :
        (Stage.working (.status deadline slots)).Advance plan [] (.working (.status deadline after)) :=
      .asks rfl
    cases arrival with
    | measured _ _ _ _ => exact asks
    | fetched called place outcome =>
      simp only [Phase.arrive]
      split
      · exact asks
      · exact asks
  | latency deadline passes =>
    cases arrival with
    | fetched _ _ _ => exact .rests
    | measured called region place outcome =>
      simp only [Phase.arrive]
      split
      · have same := map_modify (Pass.isFinished_arrive moment place outcome) region passes
        have finishes : (finishedRegions 0 passes ++ []).Perm
            (finishedRegions 0 (passes.modify region (Pass.arrive moment place outcome))) := by
          rw [List.append_nil, finishedRegions_congr same]
        exact .goesOn finishes (List.length_modify ..)
      · exact .rests

/-- A reply that arrives for the loop changes nothing that others can see. -/
theorem Loop.arrive_grown {loop : Loop} {arrival : Arrival} (arrived : arrival ∈ heard)
    (sound : loop.ending = none → loop.stage.Sound t heard loop.journal plan now) :
    loop.Grown t heard plan now (loop.arrive now arrival) [] := by
  cases stage : loop.stage with
  | sleeping wakeUp =>
    have same : loop.arrive now arrival = loop := by simp only [Loop.arrive, stage]
    rw [same]
    exact ⟨by simp, .of_calls (by simp), .rests, sound⟩
  | working phase =>
    have same : loop.arrive now arrival =
        { loop with stage := .working (phase.arrive now arrival) } := by
      simp only [Loop.arrive, stage]
    rw [same]
    refine ⟨by simp, .of_calls (by simp), ?_, ?_⟩
    · rw [stage]
      exact phase.advance_arrive arrival now
    · intro going
      have before := sound going
      rw [stage] at before
      exact Phase.Sound.arrive arrived before

end Steering.Refresh
