import Steering.Proofs.CourseRun
import Steering.Proofs.Delivery
/-! Where the outcomes of calls come from: a call that ends at a look ends with what is answered to
it or with a reply that has arrived for it. -/

namespace Steering.Refresh

variable {t : Responder} {plan : Plan} {heard : List Arrival} {seen : List (Nat × Entry)}
  {now deadline : Nat}

variable (t plan heard) in
/-- How a call can have come to its outcome. -/
inductive CallEnd.Origin : CallEnd → Prop
  | fetch {asked deadline place : Nat} {address : Net.Ipv4} :
      Origin (.fetch place ((t.fetch asked place address).call .deadlineExceeded asked deadline).outcome)
  | fetchTold {deadline place : Nat} {outcome : Outcome FetchFailure PopStatus}
      (told : .fetched deadline place outcome ∈ heard) : Origin (.fetch place outcome)
  | measurement {asked deadline region place : Nat} {endpoint : String}
      (known : region < plan.regionCount) :
      Origin (.measurement region place
        ((t.measure asked region place endpoint).call .deadlineExceeded asked deadline).outcome)
  | measurementTold {deadline region place : Nat} {outcome : Outcome MeasureFailure Binary64}
      (known : region < plan.regionCount) (told : .measured deadline region place outcome ∈ heard) :
      Origin (.measurement region place outcome)

theorem Fetched.origin {began place : Nat} {address : Net.Ipv4}
    {outcome : Outcome FetchFailure PopStatus}
    (fetched : Fetched t heard seen began deadline place address outcome) :
    (CallEnd.fetch place outcome).Origin t plan heard := by
  rcases fetched.answered with said | told
  · rw [said]
    exact .fetch
  · exact .fetchTold told

theorem Measured.origin {region asked place : Nat} {endpoint : String}
    {outcome : Outcome MeasureFailure Binary64} (known : region < plan.regionCount)
    (measured : Measured t heard seen region deadline asked place endpoint outcome) :
    (CallEnd.measurement region place outcome).Origin t plan heard := by
  rcases measured.answered with said | told
  · rw [said]
    exact .measurement known
  · exact .measurementTold known told

/-- A measurement that ends in the course of measuring on was made at the same moment. -/
theorem MeasureEnds.origin {region place first : Nat} {endpoints : List String}
    {outcome : Outcome MeasureFailure Binary64} (known : region < plan.regionCount)
    (ends : MeasureEnds t now deadline region outcome place first endpoints) :
    (CallEnd.measurement region place outcome).Origin t plan heard := by
  induction ends with
  | here due its =>
    rw [← its]
    exact .measurement known
  | later ends next ih => exact ih

/-- A fetch that ends at a look was made at this look, or it was waited for. -/
theorem SlotsEndAt.origin {began place : Nat} {slots : List (Net.Ipv4 × Slot)}
    {outcome : Outcome FetchFailure PopStatus}
    (ready : ∀ address slot, slots[place]? = some (address, slot) →
      slot = .fresh ∨ slot.Sound t heard seen began deadline now place address)
    (ends : SlotsEndAt t now deadline slots place outcome) :
    (CallEnd.fetch place outcome).Origin t plan heard := by
  obtain ⟨address, slot, call, found, its, due, rfl⟩ := ends
  rcases ready address slot found with rfl | sound
  · cases its
    exact .fetch
  · cases sound with
    | waiting fetched bounded =>
      cases its
      exact fetched.origin
    | done fetched record => cases its

/-- So was a measurement. -/
theorem Pass.EndsAt.origin {began region place : Nat} {pass : Pass}
    {outcome : Outcome MeasureFailure Binary64} (known : region < plan.regionCount)
    (ready : pass = .fresh ∨
      pass.Sound t heard seen plan.endpoints began deadline now region)
    (ends : pass.EndsAt t now deadline region plan.endpoints place outcome) :
    (CallEnd.measurement region place outcome).Origin t plan heard := by
  cases ends with
  | begins ends => exact ends.origin known
  | here first due its =>
    rcases ready with fresh | sound
    · cases fresh
    · cases sound with
      | waiting split before later past current bounded =>
        rw [← first, ← its]
        exact current.origin known
  | later ends next => exact next.origin known

/-- So was every call that ends at a look at a phase. -/
theorem Phase.Ready.origin {phase : Phase} (ready : phase.Ready t heard seen plan now)
    {ended : CallEnd} (ends : phase.EndsCall t plan now ended) : ended.Origin t plan heard := by
  cases ready with
  | beginsStatus =>
    cases ended with
    | measurement region place outcome => contradiction
    | fetch place outcome =>
      refine @SlotsEndAt.origin _ _ heard seen _ _ now _ _ _ (fun address slot found => .inl ?_) ends
      obtain ⟨other, -, same⟩ := List.mem_map.mp (List.mem_of_getElem? found)
      cases same
      rfl
  | beginsLatency =>
    cases ended with
    | fetch place outcome => contradiction
    | measurement region place outcome =>
      obtain ⟨pass, found, ends⟩ := ends
      have known := (List.getElem?_eq_some_iff.mp found).1
      rw [List.length_replicate] at known
      have fresh := List.eq_of_mem_replicate (List.mem_of_getElem? found)
      exact @Pass.EndsAt.origin _ _ heard seen _ _ now _ _ _ _ known (.inl fresh) ends
  | goesOn sound =>
    -- What is known of the slots and passes is kept by their places in the phase.
    cases sound with
    | status addresses sound =>
      cases ended with
      | measurement region place outcome => contradiction
      | fetch place outcome =>
        have here (address : Net.Ipv4) (slot : Slot) (found : _[place]? = some (address, slot)) :=
          sound ((address, slot), place) (List.mk_mem_zipIdx_iff_getElem?.mpr found)
        exact SlotsEndAt.origin (fun address slot found => .inr (here address slot found)) ends
    | latency length sound =>
      cases ended with
      | fetch place outcome => contradiction
      | measurement region place outcome =>
        obtain ⟨pass, found, ends⟩ := ends
        have known := length ▸ (List.getElem?_eq_some_iff.mp found).1
        have here := sound (pass, region) (List.mk_mem_zipIdx_iff_getElem?.mpr found)
        exact ends.origin known (.inr here)

theorem heardBy_subset_self (heard : List Arrival) (actor : Actor) :
    heardBy heard actor ⊆ heard := by
  cases actor with
  | loop => exact List.Subset.refl heard
  | byHand place => exact List.nil_subset heard

namespace Course

variable {course : Course} {first : Store}

/-- Whoever looks at a phase, it can be looked at. -/
theorem LooksAt.ready {elapsed : Nat} {event : Event} {actor : Actor} {phase : Phase}
    (sound : course.Sound t plan first) (looks : (course.wait elapsed).LooksAt t plan event actor phase) :
    ∃ seen, phase.Ready t course.heard seen plan (course.clock + elapsed) := by
  cases looks with
  | loop going quiet looks =>
    refine ⟨course.loop.journal, ?_⟩
    have current := (sound.stage going).mono (List.Subset.refl _) (List.Subset.refl _)
      (Nat.le_add_right course.clock elapsed)
    cases looks with
    | next stage ended => exact .beginsLatency
    | here stage =>
      change (course.loop.wake plan (course.clock + elapsed)).stage = _ at stage
      unfold Loop.wake at stage
      split at stage
      · split at stage
        · cases stage
          exact .beginsStatus
        · rename_i asleep _
          rw [asleep] at stage
          cases stage
      · rename_i working its
        rw [its] at stage current
        cases stage
        exact .goesOn current
  | beginsStatus => exact ⟨[], .beginsStatus⟩
  | beginsLatency => exact ⟨[], .beginsLatency⟩
  | byHand going =>
    have current := (sound.manual _ _ going).mono (List.nil_subset course.heard)
      (List.Subset.refl _) (Nat.le_add_right course.clock elapsed)
    exact ⟨_, .goesOn current⟩

/-- What has been heard has arrived at one of the events. -/
theorem heard_run {events : List (Nat × Event)} {arrival : Arrival}
    (member : arrival ∈ (course.run t plan events).heard) :
    arrival ∈ course.heard ∨ ∃ elapsed, (elapsed, .arrive arrival) ∈ events := by
  induction events generalizing course with
  | nil => exact .inl member
  | cons event rest ih =>
    obtain ⟨elapsed, event⟩ := event
    rcases ih member with here | ⟨later, among⟩
    · cases event with
      | arrive other =>
        rcases List.mem_append.mp here with before | now
        · exact .inl before
        · rw [List.mem_singleton] at now
          exact .inr ⟨elapsed, now ▸ List.mem_cons_self ..⟩
      | look place =>
        refine .inl ?_
        simp only [step, happen] at here
        split at here <;> exact here
      | _ => exact .inl here
    · exact .inr ⟨later, List.mem_cons_of_mem _ among⟩

end Course

end Steering.Refresh
