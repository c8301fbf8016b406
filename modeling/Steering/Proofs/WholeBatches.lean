import Mathlib.Data.List.Induction
import Steering.Proofs.CourseRun
/-! No partial batch is ever visible: the state is always made of complete results of phases, and a
phase that is interrupted leaves nothing of what it had not finished. -/

namespace Steering

namespace Refresh

/-- Whether records are being asked for. -/
def Stage.isAsking : Stage → Bool
  | .working (.status _ _) => true
  | _ => false

/-- What may have been committed by a phase that has come this far. -/
def Phase.Allows : Phase → Option Nat → Prop
  | status _ _, _ => False
  | latency _ passes, target => ∃ region ∈ finishedRegions 0 passes, target = some region

/-- What the loop may have committed at the looks that kept it in its phase. The first of them may
have ended the status phase before. -/
def Stage.Allows : Stage → Option Nat → Prop
  | working (.status _ _), _ => False
  | working (.latency _ passes), target =>
    target = none ∨ ∃ region ∈ finishedRegions 0 passes, target = some region
  | sleeping _, _ => True

variable {plan : Plan}

theorem Stage.isMeasuring_of_isAsking {stage : Stage} (asks : stage.isAsking = true) :
    stage.isMeasuring = false := by
  cases stage with
  | sleeping wakeUp => rfl
  | working phase =>
    cases phase with
    | status deadline slots => rfl
    | latency deadline passes => cases asks

theorem Stage.isAsking_of_isMeasuring {stage : Stage} (measures : stage.isMeasuring = true) :
    stage.isAsking = false := by
  cases asks : stage.isAsking with
  | false => rfl
  | true => exact absurd measures (by rw [isMeasuring_of_isAsking asks]; nofun)

theorem Stage.not_allows_of_isAsking {stage : Stage} (asks : stage.isAsking = true)
    {target : Option Nat} : ¬ stage.Allows target := by
  cases stage with
  | sleeping wakeUp => cases asks
  | working phase =>
    cases phase with
    | status deadline slots => exact id
    | latency deadline passes => cases asks

theorem Phase.Committed.allows {phase : Phase} {made : List (Option Nat)}
    (committed : phase.Committed made) {target : Option Nat} (member : target ∈ made) :
    phase.Allows target := by
  cases phase with
  | status deadline slots =>
    have nothing : made = [] := committed
    rw [nothing] at member
    cases member
  | latency deadline passes =>
    obtain ⟨done, rfl, finished⟩ := committed
    obtain ⟨region, among, rfl⟩ := List.mem_map.mp member
    exact ⟨region, finished.mem_iff.mp among, rfl⟩

/-- A look commits only what its phase allows. -/
theorem Stage.Advance.allows {stage next : Stage} {made : List (Option Nat)}
    (advance : stage.Advance plan made next) {target : Option Nat} (member : target ∈ made) :
    next.Allows target := by
  cases advance with
  | rests => cases member
  | asks early => cases member
  | measures early finishes length =>
    rcases List.mem_cons.mp member with first | later
    · exact .inl first
    · obtain ⟨region, among, rfl⟩ := List.mem_map.mp later
      exact .inr ⟨region, finishes.mem_iff.mp among, rfl⟩
  | cycles early finishes => trivial
  | goesOn finishes length =>
    obtain ⟨region, among, rfl⟩ := List.mem_map.mp member
    exact .inr ⟨region, finishes.mem_iff.mp (List.mem_append_right _ among), rfl⟩
  | completes finishes => trivial

/-- What a phase has allowed it allows as long as it goes on. -/
theorem Stage.Advance.still_allows {stage next : Stage} {made : List (Option Nat)}
    (advance : stage.Advance plan made next) (asking : stage.isAsking = next.isAsking)
    (measuring : stage.isMeasuring = next.isMeasuring) {target : Option Nat}
    (allowed : stage.Allows target) : next.Allows target := by
  cases advance with
  | rests => exact allowed
  | asks early =>
    cases stage with
    | sleeping wakeUp => cases asking
    | working phase =>
      cases phase with
      | status deadline slots => exact allowed
      | latency deadline passes => cases asking
  | measures early finishes length =>
    rw [early] at measuring
    cases measuring
  | cycles early finishes => trivial
  | goesOn finishes length =>
    rcases allowed with first | ⟨region, among, rfl⟩
    · exact .inl first
    · exact .inr ⟨region, finishes.mem_iff.mp (List.mem_append_left _ among), rfl⟩
  | completes finishes => trivial

/-- What was done by everybody but one actor. -/
def others (actor : Actor) (history : List Deed) : List Deed :=
  history.filter (·.actor ≠ actor)

theorem others_of_alone {actor : Actor} {history : List Deed}
    (alone : ∀ deed ∈ history, deed.actor = actor) : others actor history = [] := by
  apply List.filter_eq_nil_iff.mpr
  intro deed member
  simp [alone deed member]

theorem stateAfter_cons_committed (first : Store) {deed : Deed} (rest : List Deed) {commit : Commit}
    (committed : deed.entry = .committed commit) :
    stateAfter first (deed :: rest) = stateAfter (first.offer commit) rest := by
  have found : deed.entry.commit? = some commit := by
    rw [committed]
    rfl
  simp [stateAfter, commits, found]

theorem stateAfter_cons_other (first : Store) {deed : Deed} (rest : List Deed)
    (other : ∀ commit, deed.entry ≠ .committed commit) :
    stateAfter first (deed :: rest) = stateAfter first rest := by
  have nothing : deed.entry.commit? = none := by
    cases its : deed.entry with
    | committed commit => exact absurd its (other commit)
    | fetched address => rfl
    | measured region endpoint => rfl
    | refused commit fault => rfl
  simp [stateAfter, commits, nothing]

/-- An actor that has committed nothing leaves the state as if it had not been there. -/
theorem stateAfter_others {first : Store} {actor : Actor} {history : List Deed}
    (quiet : ∀ deed ∈ history, deed.actor = actor → ∀ commit, deed.entry ≠ .committed commit) :
    stateAfter first history = stateAfter first (others actor history) := by
  induction history generalizing first with
  | nil => rfl
  | cons deed rest ih =>
    have later {first : Store} : stateAfter first rest = stateAfter first (others actor rest) :=
      ih fun other member => quiet other (List.mem_cons_of_mem _ member)
    by_cases own : deed.actor = actor
    · have dropped : others actor (deed :: rest) = others actor rest := by simp [others, own]
      rw [stateAfter_cons_other first rest (quiet deed (List.mem_cons_self ..) own), dropped, later]
    · have kept : others actor (deed :: rest) = deed :: others actor rest := by simp [others, own]
      have split (tail : List Deed) :
          stateAfter first (deed :: tail) = stateAfter (stateAfter first [deed]) tail :=
        stateAfter_append first [deed] tail
      rw [kept, split rest, split (others actor rest), later]

/-- An actor that has committed nothing for a region leaves its vector as if it had not been
there. -/
theorem regionLatency_others {pops regions : Nat} {first other : Store}
    (shaped : first.Shaped pops regions) (also : other.Shaped pops regions) {region : Nat}
    (same : first.regionLatency? region = other.regionLatency? region) {actor : Actor}
    {history : List Deed} (quiet : ∀ deed ∈ history, deed.actor = actor → ∀ commit,
      deed.entry = .committed commit → commit.target ≠ some region) :
    (stateAfter first history).regionLatency? region =
      (stateAfter other (others actor history)).regionLatency? region := by
  induction history generalizing first other with
  | nil => exact same
  | cons deed rest ih =>
    have quietLater := fun (other : Deed) (member : other ∈ rest) =>
      quiet other (List.mem_cons_of_mem _ member)
    by_cases committed : ∃ commit, deed.entry = .committed commit
    · obtain ⟨commit, its⟩ := committed
      rw [stateAfter_cons_committed first rest its]
      by_cases own : deed.actor = actor
      · have dropped : others actor (deed :: rest) = others actor rest := by simp [others, own]
        rw [dropped]
        refine ih (shaped.offer commit) also ?_ quietLater
        rw [shaped.regionLatency_other (quiet deed (List.mem_cons_self ..) own commit its)]
        exact same
      · have kept : others actor (deed :: rest) = deed :: others actor rest := by simp [others, own]
        rw [kept, stateAfter_cons_committed other _ its]
        exact ih (shaped.offer commit) (also.offer commit)
          (shaped.regionLatency_congr also same commit) quietLater
    · have idle (commit : Commit) : deed.entry ≠ .committed commit :=
        fun its => committed ⟨commit, its⟩
      rw [stateAfter_cons_other first rest idle]
      by_cases own : deed.actor = actor
      · have dropped : others actor (deed :: rest) = others actor rest := by simp [others, own]
        rw [dropped]
        exact ih shaped also same quietLater
      · have kept : others actor (deed :: rest) = deed :: others actor rest := by simp [others, own]
        rw [kept, stateAfter_cons_other other _ idle]
        exact ih shaped also same quietLater

variable {t : Responder} {first : Store} {course next : Course}

/-- How far a step takes the loop in its cycle, and what the loop commits at it. -/
theorem Course.Stepped.advance {flag : Bool} (stepped : course.Stepped t plan flag next) :
    ∃ news made, next.history = course.history ++ news ∧
      course.loop.stage.Advance plan made next.loop.stage ∧
      ∀ deed ∈ news, deed.actor = .loop → ∀ commit, deed.entry = .committed commit →
        commit.target ∈ made := by
  cases stepped with
  | loop passed hears grown =>
    refine ⟨_, _, rfl, grown.advance, ?_⟩
    intro deed member _ commit committed
    obtain ⟨entry, made, rfl⟩ := List.mem_map.mp member
    exact List.mem_map_of_mem (mem_commits.mpr (committed ▸ made))
  | byHand passed accounted look was becomes others grows =>
    refine ⟨_, [], rfl, .rests, ?_⟩
    intro deed member own
    obtain ⟨entry, made, rfl⟩ := List.mem_map.mp member
    cases own
  | idle passed subsides length => exact ⟨[], [], by simp, .rests, nofun⟩

section Run

variable (fits : plan.Fits first)
include fits

/-- As long as events leave the loop in one phase, it commits only what the phase allows. -/
theorem Course.stay_allows (sound : course.Sound t plan first) {asking measuring : Bool}
    {during : List (Nat × Event)} (stays : ∀ part, part ≠ [] → part <+: during →
      (course.run t plan part).loop.stage.isAsking = asking ∧
        (course.run t plan part).loop.stage.isMeasuring = measuring) :
    ∃ news, (course.run t plan during).history = course.history ++ news ∧
      (∀ deed ∈ news, deed.actor = .loop → ∀ commit, deed.entry = .committed commit →
        (course.run t plan during).loop.stage.isAsking = asking ∧
          (course.run t plan during).loop.stage.Allows commit.target) ∧
      ((∀ event ∈ during, event.2.isByHand = false) → others .loop news = []) := by
  obtain ⟨all, grown, alone⟩ := Course.history_run fits sound during
  suffices allowed : ∃ news, (course.run t plan during).history = course.history ++ news ∧
      ∀ deed ∈ news, deed.actor = .loop → ∀ commit, deed.entry = .committed commit →
        (course.run t plan during).loop.stage.isAsking = asking ∧
          (course.run t plan during).loop.stage.Allows commit.target by
    obtain ⟨news, grows, allows⟩ := allowed
    obtain rfl : news = all := List.append_cancel_left (grows.symm.trans grown)
    exact ⟨news, grows, allows, fun byItself => others_of_alone (alone byItself)⟩
  clear grown alone all
  -- The last event is split off, since the phase is known after each event but not before the first.
  induction during using List.reverseRecOn with
  | nil => exact ⟨[], by simp, nofun⟩
  | append_singleton before event ih =>
    obtain ⟨news, grows, allowed⟩ := ih fun part some upTo =>
      stays part some (upTo.trans (List.prefix_append _ _))
    obtain ⟨elapsed, event⟩ := event
    have stepped := Course.stepped fits
      (Course.sound_run fits sound before) elapsed event
    obtain ⟨more, made, added, advance, own⟩ := stepped.advance
    have now := stays (before ++ [(elapsed, event)]) (by simp) (List.prefix_refl _)
    rw [Course.run_append, Course.run_singleton] at now ⊢
    refine ⟨news ++ more, ?_, ?_⟩
    · rw [added, grows, List.append_assoc]
    · intro deed member its commit committed
      refine ⟨now.1, ?_⟩
      rcases List.mem_append.mp member with old | new
      · have begun : before ≠ [] := by
          rintro rfl
          rw [Course.run_nil, List.self_eq_append_right] at grows
          rw [grows] at old
          cases old
        have earlier := stays before begun (List.prefix_append _ _)
        exact advance.still_allows (earlier.1.trans now.1.symm) (earlier.2.trans now.2.symm)
          (allowed deed old its commit committed).2
      · exact advance.allows (own deed new its commit committed)

/-- As long as the loop is in a status phase, it makes nothing of the state. -/
theorem Course.asking_keeps (sound : course.Sound t plan first) {during : List (Nat × Event)}
    (stays : ∀ part, part ≠ [] → part <+: during →
      (course.run t plan part).loop.stage.isAsking = true) :
    ∃ news, (course.run t plan during).history = course.history ++ news ∧
      (course.run t plan during).loop.store = stateAfter course.loop.store (others .loop news) ∧
      ((∀ event ∈ during, event.2.isByHand = false) → others .loop news = []) := by
  obtain ⟨news, grows, allowed, alone⟩ := stay_allows fits sound
    fun part some upTo => ⟨stays part some upTo, Stage.isMeasuring_of_isAsking (stays part some upTo)⟩
  refine ⟨news, grows, ?_, alone⟩
  have later := Course.sound_run fits sound during
  rw [later.logged.state, sound.logged.state, grows, stateAfter_append]
  apply stateAfter_others
  intro deed member own commit made
  obtain ⟨asks, allows⟩ := allowed deed member own commit made
  exact Stage.not_allows_of_isAsking asks allows

/-- As long as the loop is in a latency phase, it makes nothing of the vector of a region that has
not finished. -/
theorem Course.measuring_keeps (sound : course.Sound t plan first) {during : List (Nat × Event)}
    (stays : ∀ part, part ≠ [] → part <+: during →
      (course.run t plan part).loop.stage.isMeasuring = true)
    {deadline region : Nat} {passes : List Pass}
    (stage : (course.run t plan during).loop.stage = .working (.latency deadline passes))
    (unfinished : region ∉ finishedRegions 0 passes) :
    ∃ news, (course.run t plan during).history = course.history ++ news ∧
      (course.run t plan during).loop.store.regionLatency? region =
        (stateAfter course.loop.store (others .loop news)).regionLatency? region ∧
      ((∀ event ∈ during, event.2.isByHand = false) → others .loop news = []) := by
  obtain ⟨news, grows, allowed, alone⟩ := stay_allows fits sound
    fun part some upTo =>
      ⟨Stage.isAsking_of_isMeasuring (stays part some upTo), stays part some upTo⟩
  refine ⟨news, grows, ?_, alone⟩
  have later := Course.sound_run fits sound during
  have shape := (sound.fits_store fits).shaped
  rw [later.logged.state, grows, stateAfter_append, ← sound.logged.state]
  refine regionLatency_others shape shape rfl ?_
  intro deed member own commit made committed
  obtain ⟨-, allows⟩ := allowed deed member own commit made
  rw [stage, committed] at allows
  rcases allows with nothing | ⟨other, finished, same⟩
  · cases nothing
  · cases same
    exact unfinished finished

end Run

/-- What can be seen of the refreshes in a course, and what is left of those that are interrupted.
A refresh that is interrupted keeps the phase in which it was. -/
structure WholeBatches (t : Responder) (plan : Plan) (first : Store)
    (course : List (Nat × Event) → Course) (events : List (Nat × Event)) : Prop where
  state : (course events).loop.store = stateAfter first (course events).history
  /-- At every instant the records are the first ones or those of one status phase. -/
  statuses : ∀ seen, seen <+: (course events).history →
    (stateAfter first seen).state.popStatus = first.state.popStatus ∨
      ∃ actor began, StatusBatch t (heardBy (course events).heard actor)
        (deedsBy actor (course events).history) plan began (stateAfter first seen).state.popStatus
  /-- At every instant the vector of a region is the first one or that of one pass of the region. -/
  latencies : ∀ seen, seen <+: (course events).history → ∀ region,
    (stateAfter first seen).regionLatency? region = first.regionLatency? region ∨
      ∃ actor began latencies, (stateAfter first seen).regionLatency? region = some latencies ∧
        LatencyBatch t (heardBy (course events).heard actor)
          (deedsBy actor (course events).history) plan region began latencies
  /-- As long as the loop is in a status phase, the state is what others make of it. -/
  asking : ∀ before during, events = before ++ during →
    (∀ part, part ≠ [] → part <+: during → (course (before ++ part)).loop.stage.isAsking = true) →
    ∃ news, (course events).history = (course before).history ++ news ∧
      (course events).loop.store = stateAfter (course before).loop.store (others .loop news) ∧
      ((∀ event ∈ during, event.2.isByHand = false) →
        (course events).loop.store = (course before).loop.store)
  /-- As long as the loop is in a latency phase, the vector of a region that has not finished is what
  others make of it. -/
  measuring : ∀ before during, events = before ++ during →
    (∀ part, part ≠ [] → part <+: during →
      (course (before ++ part)).loop.stage.isMeasuring = true) →
    ∀ deadline passes, (course events).loop.stage = .working (.latency deadline passes) →
    ∀ region, region ∉ finishedRegions 0 passes →
    ∃ news, (course events).history = (course before).history ++ news ∧
      (course events).loop.store.regionLatency? region =
        (stateAfter (course before).loop.store (others .loop news)).regionLatency? region ∧
      ((∀ event ∈ during, event.2.isByHand = false) →
        (course events).loop.store.regionLatency? region =
          (course before).loop.store.regionLatency? region)
  /-- A refresh by hand that is in a status phase leaves the state as if it had not been there. -/
  askingByHand : ∀ (place : Nat) (manual : Manual) (deadline : Nat) (slots : List (Net.Ipv4 × Slot)),
    (course events).manuals[place]? = some manual →
    manual.phase? = some (.status deadline slots) →
    (course events).loop.store = stateAfter first (others (.byHand place) (course events).history)
  /-- A refresh by hand that is in a latency phase leaves the vector of a region that has not
  finished as if it had not been there. -/
  measuringByHand : ∀ (place : Nat) (manual : Manual) (deadline : Nat) (passes : List Pass),
    (course events).manuals[place]? = some manual →
    manual.phase? = some (.latency deadline passes) →
    ∀ region, region ∉ finishedRegions 0 passes →
    (course events).loop.store.regionLatency? region =
      (stateAfter first (others (.byHand place) (course events).history)).regionLatency? region

section Visible

variable {heard : List Arrival} {history : List Deed} {store : Store} (fits : plan.Fits first)
  (logged : Logged t plan first heard history store)
include fits logged

theorem Logged.popStatus {seen : List Deed} (part : seen <+: history) :
    (stateAfter first seen).state.popStatus = first.state.popStatus ∨
      ∃ actor began, StatusBatch t (heardBy heard actor) (deedsBy actor history) plan began
        (stateAfter first seen).state.popStatus := by
  rcases fits.shaped.popStatus_replay (commits (seen.map Deed.entry)) with
    same | ⟨statuses, made, length, its⟩
  · exact .inl same
  · obtain ⟨deed, member, committed⟩ := List.mem_map.mp (mem_commits.mp made)
    obtain ⟨began, batch⟩ := logged.whole deed (part.subset member) _ committed
    right
    refine ⟨deed.actor, began, ?_⟩
    rw [stateAfter, its]
    exact batch

theorem Logged.regionLatency {seen : List Deed} (part : seen <+: history) (region : Nat) :
    (stateAfter first seen).regionLatency? region = first.regionLatency? region ∨
      ∃ actor began latencies, (stateAfter first seen).regionLatency? region = some latencies ∧
        LatencyBatch t (heardBy heard actor) (deedsBy actor history) plan region began
          latencies := by
  rcases fits.shaped.regionLatency_replay (commits (seen.map Deed.entry)) region with
    same | ⟨latencies, made, length, its⟩
  · exact .inl same
  · obtain ⟨deed, member, committed⟩ := List.mem_map.mp (mem_commits.mp made)
    obtain ⟨known, began, batch⟩ := logged.whole deed (part.subset member) _ committed
    exact .inr ⟨deed.actor, began, latencies, its, batch⟩

end Visible

/-- A refresh by hand commits only what its phase allows, until it has finished. -/
theorem Course.Sound.manual_allows (sound : course.Sound t plan first) {place : Nat}
    {manual : Manual} {phase : Phase} (found : course.manuals[place]? = some manual)
    (its : manual.phase? = some phase) {deed : Deed} (member : deed ∈ course.history)
    (own : deed.actor = .byHand place) {commit : Commit} (made : deed.entry = .committed commit) :
    phase.Allows commit.target := by
  apply (sound.committed place manual phase found its).allows
  have done := List.mem_map_of_mem (f := Prod.snd) (mem_deedsBy member)
  rw [own] at done
  exact List.mem_map_of_mem (mem_commits.mpr (made ▸ done))

end Refresh

namespace Engine

open Refresh

end Engine

end Steering
