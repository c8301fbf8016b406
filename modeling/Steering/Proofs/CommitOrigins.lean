import Steering.Proofs.CourseRun
/-! Where commits come from in time: a batch is made of calls that were all made by the moment at
which it was committed. -/

namespace Steering.Refresh

variable {t : Responder} {plan : Plan} {first : Store} {course next : Course}

/-- What had been done by a moment. -/
def doneBy (moment : Nat) (history : List Deed) : List Deed :=
  history.filter (·.moment ≤ moment)

theorem doneBy_of_all {moment : Nat} {history : List Deed}
    (past : ∀ deed ∈ history, deed.moment ≤ moment) : doneBy moment history = history :=
  List.filter_eq_self.mpr fun deed member => decide_eq_true (past deed member)

theorem deedsBy_doneBy_subset {moment : Nat} {actor : Actor} {history news : List Deed} :
    deedsBy actor (doneBy moment history) ⊆ deedsBy actor (doneBy moment (history ++ news)) := by
  rw [doneBy, doneBy, List.filter_append, deedsBy_append]
  exact List.subset_append_left _ _

/-- Nothing in a history lies ahead, and every commit in it holds a whole batch that its actor had
gathered by then. -/
structure Course.Dated (t : Responder) (plan : Plan) (course : Course) : Prop where
  past : ∀ deed ∈ course.history, deed.moment ≤ course.clock
  whole : ∀ deed ∈ course.history, ∀ commit, deed.entry = .committed commit →
    WholeBatch t (heardBy course.heard deed.actor)
      (deedsBy deed.actor (doneBy deed.moment course.history)) plan commit

theorem Course.dated_start (store : Store) (channel : Shutdown.Channel) :
    (start store channel).Dated t plan where
  past _ member := nomatch member
  whole _ member := nomatch member

/-- A step lets time pass, and what it does is done at its end. -/
theorem Course.Stepped.grows {flag : Bool} (stepped : course.Stepped t plan flag next) :
    course.clock ≤ next.clock ∧ course.heard ⊆ next.heard ∧
      ∃ news, next.history = course.history ++ news ∧ ∀ deed ∈ news, deed.moment = next.clock := by
  have dated (actor : Actor) (moment : Nat) (entries : List Entry) :
      ∀ deed ∈ deedsAt actor moment entries, deed.moment = moment := by
    intro deed member
    obtain ⟨entry, made, rfl⟩ := List.mem_map.mp member
    rfl
  cases stepped with
  | loop passed hears grown => exact ⟨passed, hears, _, rfl, dated _ _ _⟩
  | byHand passed => exact ⟨passed, List.Subset.refl _, _, rfl, dated _ _ _⟩
  | idle passed => exact ⟨passed, List.Subset.refl _, [], by simp, nofun⟩

/-- A step keeps a history dated. -/
theorem Course.Dated.step {flag : Bool} (dated : course.Dated t plan)
    (stepped : course.Stepped t plan flag next) (sound : next.Sound t plan first) :
    next.Dated t plan := by
  obtain ⟨passed, hears, news, grown, current⟩ := stepped.grows
  have past : ∀ deed ∈ next.history, deed.moment ≤ next.clock := by
    intro deed member
    rw [grown] at member
    rcases List.mem_append.mp member with old | new
    · exact Nat.le_trans (dated.past deed old) passed
    · exact Nat.le_of_eq (current deed new)
  refine ⟨past, fun deed member commit committed => ?_⟩
  by_cases old : deed ∈ course.history
  · -- The news can be of the same moment, so they may add to what had been done by then.
    have batch := dated.whole deed old commit committed
    refine batch.mono (heardBy_subset hears _) ?_
    rw [grown]
    exact deedsBy_doneBy_subset
  · have new : deed ∈ news := by
      rw [grown] at member
      exact (List.mem_append.mp member).resolve_left old
    rw [current deed new, doneBy_of_all past]
    exact sound.logged.whole deed member commit committed

/-- Every history of a run is dated. -/
theorem Course.dated_run (fits : plan.Fits first) (sound : course.Sound t plan first)
    (dated : course.Dated t plan) (events : List (Nat × Event)) :
    (course.run t plan events).Dated t plan := by
  induction events generalizing course with
  | nil => exact dated
  | cons event rest ih =>
    obtain ⟨elapsed, event⟩ := event
    have stepped := stepped fits sound elapsed event
    have next := stepped.sound sound
    exact ih next (dated.step stepped next)

end Steering.Refresh
