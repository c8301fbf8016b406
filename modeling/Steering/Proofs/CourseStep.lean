import Steering.Proofs.ArrivalLook
import Steering.Proofs.Cycles
import Steering.Refresh.Course
/-! What one step of a course does: the loop goes on, or a refresh by hand does, or nothing is done
that others can see. -/

namespace Steering.Refresh

/-- The phase of a refresh by hand that has not finished. -/
def Manual.phase? : Manual → Option Phase
  | going phase => some phase
  | finished => none
  | brokenOff phase => some phase

/-- The deeds of an actor at a moment. -/
def deedsAt (actor : Actor) (moment : Nat) (entries : List Entry) : List Deed :=
  entries.map (⟨actor, moment, ·⟩)

/-- What an actor has done, and when. -/
def deedsBy (actor : Actor) (history : List Deed) : List (Nat × Entry) :=
  (history.filter (·.actor = actor)).map fun deed => (deed.moment, deed.entry)

@[simp] theorem deedsBy_append (actor : Actor) (before after : List Deed) :
    deedsBy actor (before ++ after) = deedsBy actor before ++ deedsBy actor after := by
  simp [deedsBy]

@[simp] theorem deedsBy_deedsAt (actor : Actor) (moment : Nat) (entries : List Entry) :
    deedsBy actor (deedsAt actor moment entries) = entries.map (moment, ·) := by
  simp [deedsBy, deedsAt, List.filter_eq_self.mpr]

theorem deedsBy_deedsAt_of_ne {actor other : Actor} (different : other ≠ actor) (moment : Nat)
    (entries : List Entry) : deedsBy actor (deedsAt other moment entries) = [] := by
  simp [deedsBy, deedsAt, different]

theorem mem_deedsBy {deed : Deed} {history : List Deed} (member : deed ∈ history) :
    (deed.moment, deed.entry) ∈ deedsBy deed.actor history :=
  List.mem_map_of_mem (List.mem_filter.mpr ⟨member, by simp⟩)

@[simp] theorem entries_deedsAt (actor : Actor) (moment : Nat) (entries : List Entry) :
    (deedsAt actor moment entries).map Deed.entry = entries := by
  simp [deedsAt, Function.comp_def]

/-- The replies that an actor has heard, when these have arrived for the loop. -/
def heardBy (heard : List Arrival) : Actor → List Arrival
  | .loop => heard
  | .byHand _ => []

theorem heardBy_subset {heard more : List Arrival} (hears : heard ⊆ more) (actor : Actor) :
    heardBy heard actor ⊆ heardBy more actor := by
  cases actor with
  | loop => exact hears
  | byHand place => exact List.Subset.refl _

/-- The state at the instant up to which a history goes. -/
def stateAfter (first : Store) (history : List Deed) : Store :=
  first.replay (commits (history.map Deed.entry))

@[simp] theorem stateAfter_nil (first : Store) : stateAfter first [] = first := rfl

@[simp] theorem stateAfter_append (first : Store) (before after : List Deed) :
    stateAfter first (before ++ after) = stateAfter (stateAfter first before) after := by
  simp [stateAfter, Store.replay_append]

variable (t : Responder) (plan : Plan)

/-- What a step of a course comes to, where the flag says whether the event was one of a refresh by
hand. -/
inductive Course.Stepped (course : Course) : Bool → Course → Prop
  | loop {clock : Nat} {loop : Loop} {channel : Shutdown.Channel} {heard : List Arrival}
      {entries : List Entry} (passed : course.clock ≤ clock) (hears : course.heard ⊆ heard)
      (grown : course.loop.Grown t heard plan clock loop entries) :
      Stepped course false ⟨clock, loop, channel, course.manuals,
        course.history ++ deedsAt .loop clock entries, heard⟩
  | byHand {clock place : Nat} {store : Store} {manuals : List Manual} {entries : List Entry}
      {phase : Phase} {progress : Progress} (passed : course.clock ≤ clock)
      (accounted : Accounted t []
        (deedsBy (.byHand place) course.history ++ entries.map (clock, ·)) plan
        course.loop.store entries store)
      (look : phase.Look t [] (deedsBy (.byHand place) course.history ++ entries.map (clock, ·))
        plan clock (targets entries) progress)
      (was : course.manuals[place]? = some (.going phase) ∨
        course.manuals.length = place ∧ phase.Committed [])
      (becomes : manuals[place]? = some (.ofProgress progress))
      (others : ∀ other, other ≠ place → manuals[other]? = course.manuals[other]?)
      (grows : course.manuals.length ≤ manuals.length) :
      Stepped course true ⟨clock, { course.loop with store }, course.channel, manuals,
        course.history ++ deedsAt (.byHand place) clock entries, course.heard⟩
  | idle {flag : Bool} {clock : Nat} {channel : Shutdown.Channel} {manuals : List Manual}
      (passed : course.clock ≤ clock)
      (subsides : ∀ place : Nat, manuals[place]? = course.manuals[place]? ∨
        manuals[place]? = course.manuals[place]?.map Manual.giveUp)
      (length : manuals.length = course.manuals.length) :
      Stepped course flag ⟨clock, course.loop, channel, manuals, course.history, course.heard⟩

/-- A history accounts for the state: nothing in it was refused, and every commit in it holds a whole
batch that its actor has gathered. -/
structure Logged (first : Store) (heard : List Arrival) (history : List Deed) (store : Store) :
    Prop where
  state : store = stateAfter first history
  notRefused : ∀ deed ∈ history, ∀ commit fault, deed.entry ≠ .refused commit fault
  whole : ∀ deed ∈ history, ∀ commit, deed.entry = .committed commit →
    WholeBatch t (heardBy heard deed.actor) (deedsBy deed.actor history) plan commit

/-- What holds of a course at every step. -/
structure Course.Sound (first : Store) (course : Course) : Prop where
  logged : Logged t plan first course.heard course.history course.loop.store
  journal : deedsBy .loop course.history = course.loop.journal
  cyclic : Cyclic plan course.loop.stage (targets (course.loop.journal.map Prod.snd))
  stage : course.loop.ending = none →
    course.loop.stage.Sound t course.heard course.loop.journal plan course.clock
  manual : ∀ (place : Nat) (phase : Phase), course.manuals[place]? = some (.going phase) →
    phase.Sound t [] (deedsBy (.byHand place) course.history) plan course.clock
  committed : ∀ (place : Nat) (manual : Manual) (phase : Phase), course.manuals[place]? = some manual →
    manual.phase? = some phase →
    phase.Committed (targets ((deedsBy (.byHand place) course.history).map Prod.snd))
  known : ∀ deed ∈ course.history, ∀ place, deed.actor = .byHand place →
    place < course.manuals.length

variable {t plan} {first : Store} {course next : Course}

theorem Logged.append {heard more : List Arrival} {history : List Deed} {store after : Store}
    {actor : Actor} {moment : Nat} {entries : List Entry}
    (logged : Logged t plan first heard history store) (hears : heard ⊆ more)
    (accounted : Accounted t (heardBy more actor)
      (deedsBy actor history ++ entries.map (moment, ·)) plan store entries after) :
    Logged t plan first more (history ++ deedsAt actor moment entries) after where
  state := by
    rw [stateAfter_append, ← logged.state, stateAfter, entries_deedsAt]
    exact accounted.replay
  notRefused deed member commit fault := by
    rcases List.mem_append.mp member with old | new
    · exact logged.notRefused deed old commit fault
    · obtain ⟨entry, made, rfl⟩ := List.mem_map.mp new
      intro refused
      exact accounted.notRefused commit fault (refused ▸ made)
  whole deed member commit committed := by
    rcases List.mem_append.mp member with old | new
    · apply (logged.whole deed old commit committed).mono (heardBy_subset hears _)
      rw [deedsBy_append]
      exact List.subset_append_left _ _
    · obtain ⟨entry, made, rfl⟩ := List.mem_map.mp new
      rw [deedsBy_append, deedsBy_deedsAt]
      exact accounted.whole commit (committed ▸ made)

theorem Phase.Look.sound {heard : List Arrival} {seen : List (Nat × Entry)} {now : Nat}
    {phase after : Phase} {made : List (Option Nat)}
    (look : phase.Look t heard seen plan now made (.waiting after)) :
    after.Sound t heard seen plan now := by
  cases look with
  | statusWaits sound inTime => exact sound
  | latencyWaits finishes length sound inTime => exact sound

theorem Manual.phase?_ofProgress {progress : Progress} {phase : Phase}
    (its : (ofProgress progress).phase? = some phase) :
    progress = .waiting phase ∨ progress = .crashed phase := by
  cases progress with
  | waiting after =>
    cases its
    exact .inl rfl
  | finished => cases its
  | crashed after =>
    cases its
    exact .inr rfl

theorem Manual.phase?_giveUp (manual : Manual) : manual.giveUp.phase? = manual.phase? := by
  cases manual <;> rfl

theorem Manual.giveUp_ne_going (manual : Manual) (phase : Phase) :
    manual.giveUp ≠ .going phase := by
  cases manual <;> simp [giveUp]

theorem deedsBy_extend (actor : Actor) (history : List Deed) (moment : Nat) (entries : List Entry) :
    deedsBy actor (history ++ deedsAt actor moment entries) =
      deedsBy actor history ++ entries.map (moment, ·) := by
  rw [deedsBy_append, deedsBy_deedsAt]

theorem deedsBy_extend_of_ne {actor other : Actor} (different : other ≠ actor) (history : List Deed)
    (moment : Nat) (entries : List Entry) :
    deedsBy actor (history ++ deedsAt other moment entries) = deedsBy actor history := by
  rw [deedsBy_append, deedsBy_deedsAt_of_ne different, List.append_nil]

/-! ## What every step keeps -/

section Keep

variable (sound : course.Sound t plan first) {clock : Nat} (passed : course.clock ≤ clock)
include sound

/-- A refresh by hand that has not begun has done nothing. -/
theorem Course.Sound.unused : deedsBy (.byHand course.manuals.length) course.history = [] := by
  apply List.eq_nil_iff_forall_not_mem.mpr
  intro done member
  obtain ⟨deed, kept, -⟩ := List.mem_map.mp member
  obtain ⟨present, its⟩ := List.mem_filter.mp kept
  exact Nat.lt_irrefl _ (sound.known deed present _ (of_decide_eq_true its))

include passed

/-- The loop goes on. -/
theorem Course.Sound.after_loop {loop : Loop} {channel : Shutdown.Channel} {heard : List Arrival}
    {entries : List Entry} (hears : course.heard ⊆ heard)
    (grown : course.loop.Grown t heard plan clock loop entries) :
    Course.Sound t plan first ⟨clock, loop, channel, course.manuals,
      course.history ++ deedsAt .loop clock entries, heard⟩ := by
  have others (place : Nat) : deedsBy (.byHand place)
      (course.history ++ deedsAt .loop clock entries) = deedsBy (.byHand place) course.history :=
    deedsBy_extend_of_ne Actor.noConfusion _ _ _
  refine ⟨?_, ?_, ?_, grown.sound, ?_, ?_, ?_⟩
  · apply sound.logged.append hears
    rw [sound.journal, ← grown.journal]
    exact grown.accounted
  · rw [deedsBy_extend, sound.journal, grown.journal]
  · dsimp only
    rw [grown.journal, List.map_append, targets_append, map_snd_at]
    exact sound.cyclic.advance grown.advance
  · intro place phase going
    rw [others]
    exact (sound.manual place phase going).mono (List.Subset.refl _) (List.Subset.refl _) passed
  · intro place manual phase found its
    rw [others]
    exact sound.committed place manual phase found its
  · intro deed member place by_hand
    rcases List.mem_append.mp member with old | new
    · exact sound.known deed old place by_hand
    · obtain ⟨entry, made, rfl⟩ := List.mem_map.mp new
      cases by_hand

/-- A refresh by hand goes on. -/
theorem Course.Sound.after_byHand {place : Nat} {store : Store} {manuals : List Manual}
    {entries : List Entry} {phase : Phase} {progress : Progress}
    (accounted : Accounted t []
      (deedsBy (.byHand place) course.history ++ entries.map (clock, ·)) plan
      course.loop.store entries store)
    (look : phase.Look t [] (deedsBy (.byHand place) course.history ++ entries.map (clock, ·))
      plan clock (targets entries) progress)
    (was : course.manuals[place]? = some (.going phase) ∨
      course.manuals.length = place ∧ phase.Committed [])
    (becomes : manuals[place]? = some (.ofProgress progress))
    (others : ∀ other, other ≠ place → manuals[other]? = course.manuals[other]?)
    (grows : course.manuals.length ≤ manuals.length) :
    Course.Sound t plan first ⟨clock, { course.loop with store }, course.channel, manuals,
      course.history ++ deedsAt (.byHand place) clock entries, course.heard⟩ := by
  have elsewhere {other : Nat} (different : other ≠ place) :
      deedsBy (.byHand other) (course.history ++ deedsAt (.byHand place) clock entries) =
        deedsBy (.byHand other) course.history :=
    deedsBy_extend_of_ne (fun same => different (Actor.byHand.inj same).symm) _ _ _
  -- Only the deeds of this refresh grow, so everybody else keeps what holds of them.
  refine ⟨sound.logged.append (List.Subset.refl _) accounted, ?_, sound.cyclic, ?_, ?_, ?_, ?_⟩
  · exact (deedsBy_extend_of_ne Actor.noConfusion _ _ _).trans sound.journal
  · intro going
    exact (sound.stage going).mono (List.Subset.refl _) (List.Subset.refl _) passed
  · intro other phase going
    by_cases same : other = place
    · subst same
      dsimp only at going
      rw [becomes, Option.some.injEq] at going
      cases progress with
      | waiting after =>
        cases going
        rw [deedsBy_extend]
        exact look.sound
      | finished => cases going
      | crashed after => cases going
    · rw [elsewhere same]
      exact (sound.manual other phase (others other same ▸ going)).mono (List.Subset.refl _)
        (List.Subset.refl _) passed
  · intro other manual after found its
    by_cases same : other = place
    · subst same
      dsimp only at found
      rw [becomes, Option.some.injEq] at found
      have before : phase.Committed
          (targets ((deedsBy (.byHand other) course.history).map Prod.snd)) := by
        rcases was with going | ⟨rfl, nothing⟩
        · exact sound.committed other (.going phase) phase going rfl
        · rw [sound.unused]
          exact nothing
      rw [deedsBy_extend, List.map_append, targets_append, map_snd_at]
      exact look.committed before (Manual.phase?_ofProgress (found ▸ its))
    · rw [elsewhere same]
      exact sound.committed other manual after (others other same ▸ found) its
  · intro deed member other by_hand
    rcases List.mem_append.mp member with old | new
    · exact Nat.lt_of_lt_of_le (sound.known deed old other by_hand) grows
    · obtain ⟨entry, made, rfl⟩ := List.mem_map.mp new
      cases by_hand
      exact (List.getElem?_eq_some_iff.mp becomes).choose

/-- Time passes, the signal changes, and refreshes by hand are given up. -/
theorem Course.Sound.after_idle {channel : Shutdown.Channel} {manuals : List Manual}
    (subsides : ∀ place : Nat, manuals[place]? = course.manuals[place]? ∨
      manuals[place]? = course.manuals[place]?.map Manual.giveUp)
    (length : manuals.length = course.manuals.length) :
    Course.Sound t plan first
      ⟨clock, course.loop, channel, manuals, course.history, course.heard⟩ := by
  refine ⟨sound.logged, sound.journal, sound.cyclic, ?_, ?_, ?_, ?_⟩
  · intro going
    exact (sound.stage going).mono (List.Subset.refl _) (List.Subset.refl _) passed
  · intro place phase going
    rcases subsides place with same | given
    · exact (sound.manual place phase (same ▸ going)).mono (List.Subset.refl _)
        (List.Subset.refl _) passed
    · rw [given] at going
      obtain ⟨manual, -, gaveUp⟩ := Option.map_eq_some_iff.mp going
      exact absurd gaveUp (manual.giveUp_ne_going phase)
  · intro place manual phase found its
    rcases subsides place with same | given
    · exact sound.committed place manual phase (same ▸ found) its
    · rw [given] at found
      obtain ⟨before, present, rfl⟩ := Option.map_eq_some_iff.mp found
      exact sound.committed place before phase present (before.phase?_giveUp ▸ its)
  · intro deed member place by_hand
    rw [length]
    exact sound.known deed member place by_hand

end Keep

/-- Every step keeps what holds of a course. -/
theorem Course.Stepped.sound {flag : Bool} (stepped : course.Stepped t plan flag next)
    (sound : course.Sound t plan first) : next.Sound t plan first := by
  cases stepped with
  | loop passed hears grown => exact sound.after_loop passed hears grown
  | byHand passed accounted look was becomes others grows =>
    exact sound.after_byHand passed accounted look was becomes others grows
  | idle passed subsides length => exact sound.after_idle passed subsides length

/-! ## Which steps there are -/

section Step

variable (fits : plan.Fits first)
  (sound : course.Sound t plan first)
include fits sound

theorem Course.Sound.fits_store : plan.Fits course.loop.store := by
  rw [sound.logged.state]
  exact fits.replay _

theorem Course.look_stepped {clock place : Nat} {manuals : List Manual} {phase : Phase}
    (passed : course.clock ≤ clock)
    (ready : phase.Ready t [] (deedsBy (.byHand place) course.history) plan clock)
    (was : course.manuals[place]? = some (.going phase) ∨
      course.manuals.length = place ∧ phase.Committed [])
    (inside : place < manuals.length)
    (others : ∀ other, other ≠ place → manuals[other]? = course.manuals[other]?)
    (grows : course.manuals.length ≤ manuals.length) :
    course.Stepped t plan true ({ course with clock, manuals }.look t plan place phase) := by
  have fits' := sound.fits_store fits
  cases polled : phase.poll t plan clock course.loop.store with
  | mk entries rest =>
  obtain ⟨store, progress⟩ := rest
  obtain ⟨accounted, look⟩ := Phase.look fits'
    (ready.mono (List.subset_append_left _ (entries.map (clock, ·)))) polled
    fun entry member => List.mem_append_right _ (List.mem_map_of_mem member)
  simp only [Course.look, polled]
  refine .byHand passed accounted look was ?_ ?_ ?_
  · simp [inside]
  · intro other different
    rw [List.getElem?_set_ne different.symm]
    exact others other different
  · simpa using grows

/-- A step of a course is one of those that were described. -/
theorem Course.stepped (elapsed : Nat) (event : Event) :
    course.Stepped t plan event.isByHand (course.step t plan (elapsed, event)) := by
  have fits' := sound.fits_store fits
  have passed : course.clock ≤ course.clock + elapsed := Nat.le_add_right _ _
  have stage (going : course.loop.ending = none) : course.loop.stage.Sound t course.heard
      course.loop.journal plan (course.clock + elapsed) :=
    (sound.stage going).mono (List.Subset.refl _) (List.Subset.refl _) passed
  have unchanged (place : Nat) : course.manuals[place]? = course.manuals[place]? ∨
      course.manuals[place]? = course.manuals[place]?.map Manual.giveUp := .inl rfl
  have begins {phase : Phase} (nothing : phase.Committed [])
      (ready : phase.Ready t [] (deedsBy (.byHand course.manuals.length) course.history) plan
        (course.clock + elapsed)) : course.Stepped t plan true
        ({ course with clock := course.clock + elapsed }.begin t plan phase) := by
    refine look_stepped fits sound passed ready (.inr ⟨rfl, nothing⟩)
      ?_ ?_ ?_
    · simp
    · intro other (different : other ≠ course.manuals.length)
      by_cases old : other < course.manuals.length
      · rw [List.getElem?_append_left old]
      · have outside : (course.manuals ++ [Manual.going phase]).length ≤ other := by
          simp only [List.length_append, List.length_singleton]
          omega
        rw [List.getElem?_eq_none (Nat.le_of_not_lt old)]
        exact List.getElem?_eq_none outside
    · simp
  cases event with
  | poll =>
    cases looked : course.loop.poll t plan (course.clock + elapsed) 0 course.channel with
    | mk loop channel =>
    obtain ⟨entries, grown⟩ : ∃ entries,
        course.loop.Grown t course.heard plan (course.clock + elapsed) loop entries := by
      have looks := @Loop.poll_grown _ _ _ _ _ fits' 0 course.channel stage
      rw [looked] at looks
      exact looks
    have news : loop.journal.drop course.loop.journal.length =
        entries.map (course.clock + elapsed, ·) := by
      rw [grown.journal, List.drop_left]
    have made : course.step t plan (elapsed, .poll) = ⟨course.clock + elapsed, loop, channel,
        course.manuals, course.history ++ deedsAt .loop (course.clock + elapsed) entries,
        course.heard⟩ := by
      simp [Course.step, Course.happen, Course.poll, looked, news, deedsAt]
    rw [made]
    exact .loop passed (List.Subset.refl _) grown
  | arrive arrival =>
    have hears : course.heard ⊆ course.heard ++ [arrival] := List.subset_append_left _ _
    have arrived : arrival ∈ course.heard ++ [arrival] := by simp
    have grown := Loop.arrive_grown arrived fun going =>
      (stage going).mono hears (List.Subset.refl _) (Nat.le_refl _)
    have made : course.step t plan (elapsed, .arrive arrival) = ⟨course.clock + elapsed,
        course.loop.arrive (course.clock + elapsed) arrival, course.channel, course.manuals,
        course.history ++ deedsAt .loop (course.clock + elapsed) [],
        course.heard ++ [arrival]⟩ := by
      simp [Course.step, Course.happen, deedsAt]
    rw [made]
    exact .loop passed hears grown
  | send value => exact .idle passed unchanged rfl
  | dropSender => exact .idle passed unchanged rfl
  | cloneReceiver receiver => exact .idle passed unchanged rfl
  | await receiver => exact .idle passed unchanged rfl
  | beginStatus => exact begins rfl .beginsStatus
  | beginLatency =>
    refine begins ⟨[], rfl, ?_⟩ .beginsLatency
    rw [finishedRegions_fresh]
  | look place =>
    have idle : course.Stepped t plan true { course with clock := course.clock + elapsed } :=
      .idle passed unchanged rfl
    simp only [Course.step, Course.happen]
    split
    · rename_i phase going
      have sound := sound.manual place phase going
      refine look_stepped fits ‹_› passed (.goesOn ?_) (.inl going) ?_
        (fun _ _ => rfl) (Nat.le_refl _)
      · exact sound.mono (List.Subset.refl _) (List.Subset.refl _) passed
      · exact (List.getElem?_eq_some_iff.mp going).choose
    · exact idle
  | giveUp place =>
    refine .idle passed ?_ (List.length_modify ..)
    intro other
    rw [List.getElem?_modify]
    by_cases same : place = other
    · right
      simp [same]
    · left
      simp [same]

end Step

end Steering.Refresh
