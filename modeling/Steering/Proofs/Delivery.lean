import Steering.Proofs.LoopDelivery
import Steering.Proofs.WholeBatches
/-! What becomes of the outcome of a call along a course: who made the call keeps it, the next commit of
theirs that it is for holds it, and the state holds what has been committed. -/

namespace Steering.Refresh

variable {t : Responder} {plan : Plan} {ended : CallEnd}

/-- A refresh by hand keeps what is made of the outcome of a call, unless it has been broken off. -/
def Manual.Keeps : Manual → CallEnd → Prop
  | going phase, ended => phase.Keeps ended
  | finished, _ => False
  | brokenOff _, _ => True

namespace Course

/-- The course after some milliseconds in which nothing has happened. -/
def wait (elapsed : Nat) (course : Course) : Course :=
  { course with clock := course.clock + elapsed }

/-- An actor keeps what is made of the outcome of a call, unless it has come to its end before. -/
def Keeps (course : Course) (ended : CallEnd) : Actor → Prop
  | .loop => course.loop.Keeps ended
  | .byHand place => ∃ manual, course.manuals[place]? = some manual ∧ manual.Keeps ended

variable (t plan) in
/-- The phases that an event makes an actor look at. -/
inductive LooksAt (course : Course) : Event → Actor → Phase → Prop
  | loop {phase : Phase} (going : course.loop.ending = none)
      (quiet : course.channel.outcome? = none)
      (looks : course.loop.LooksAt t plan course.clock phase) : LooksAt course .poll .loop phase
  | beginsStatus : LooksAt course .beginStatus (.byHand course.manuals.length)
      (.beginStatus plan course.clock)
  | beginsLatency : LooksAt course .beginLatency (.byHand course.manuals.length)
      (.beginLatency plan course.clock)
  | byHand {place : Nat} {phase : Phase} (going : course.manuals[place]? = some (.going phase)) :
      LooksAt course (.look place) (.byHand place) phase

/-- What happens brings the outcome of a call of an actor as far as it can. -/
def Delivered (course next : Course) (ended : CallEnd) (actor : Actor) : Prop :=
  ∃ news, next.history = course.history ++ news ∧
    ended.Delivers ((deedsBy actor news).map Prod.snd) (next.Keeps ended actor)

variable {course next : Course} {actor : Actor}

/-- What others do takes nothing from the one who made the call. -/
theorem delivered_of_others {news : List Deed} (grows : next.history = course.history ++ news)
    (others : deedsBy actor news = []) (keeps : next.Keeps ended actor) :
    course.Delivered next ended actor := by
  have nothing : tried ((deedsBy actor news).map Prod.snd) = [] := by
    rw [others]
    rfl
  exact ⟨news, grows, .of_tried_nil nothing keeps⟩

/-! ## One event -/

/-- What the loop adds to its journal at a look is added to the history. -/
theorem history_poll {entries : List Entry}
    (journal : (course.poll t plan).loop.journal =
      course.loop.journal ++ entries.map (course.clock, ·)) :
    (course.poll t plan).history = course.history ++ deedsAt .loop course.clock entries := by
  rw [poll_loop] at journal
  simp only [poll, journal, List.drop_left, deedsAt, List.map_map]
  rfl

theorem delivered_poll (going : course.loop.ending = none) (quiet : course.channel.outcome? = none)
    (ends : (∃ phase, course.loop.LooksAt t plan course.clock phase ∧
      phase.EndsCall t plan course.clock ended) ∨ course.loop.Keeps ended) :
    course.Delivered (course.poll t plan) ended .loop := by
  have proceeds : (course.poll t plan).loop = course.loop.proceed t plan course.clock := by
    rw [poll_of_going going, quiet]
  obtain ⟨entries, journal, delivers⟩ := Loop.delivered_proceed going ends
  rw [← proceeds] at journal delivers
  refine ⟨deedsAt .loop course.clock entries, history_poll journal, ?_⟩
  rw [deedsBy_deedsAt, map_snd_at]
  exact delivers

/-- The loop keeps what it has for as long as it goes on. -/
theorem delivered_poll_of_keeps (keeps : course.Keeps ended .loop) :
    course.Delivered (course.poll t plan) ended .loop := by
  -- A loop that has ended, or that the signal ends now, does nothing.
  have rests (journal : (course.poll t plan).loop.journal = course.loop.journal)
      (still : (course.poll t plan).loop.Keeps ended) :
      course.Delivered (course.poll t plan) ended .loop := by
    have nothing : (course.poll t plan).loop.journal =
        course.loop.journal ++ ([] : List Entry).map (course.clock, ·) := by
      rw [List.map_nil, List.append_nil]
      exact journal
    exact delivered_of_others (history_poll nothing) rfl still
  by_cases going : course.loop.ending = none
  · cases signal : course.channel.outcome? with
    | none => exact delivered_poll going signal (.inr keeps)
    | some outcome =>
      have finishes := @poll_of_going t plan course going
      rw [signal] at finishes
      exact rests (by rw [finishes]; rfl) (by rw [finishes]; exact nofun)
  · have same := @poll_of_ended t plan course (Option.isSome_iff_ne_none.mpr going)
    exact rests (by rw [same]) (by rw [same]; exact keeps)

/-- A look at the loop takes nothing from a refresh by hand. -/
theorem delivered_poll_of_byHand {place : Nat} (keeps : course.Keeps ended (.byHand place)) :
    course.Delivered (course.poll t plan) ended (.byHand place) := by
  refine delivered_of_others rfl ?_ keeps
  simp only [deedsBy, List.map_eq_nil_iff, List.filter_eq_nil_iff, List.mem_map]
  rintro deed ⟨entry, -, rfl⟩
  simp

theorem delivered_look {place : Nat} {phase : Phase} (inside : place < course.manuals.length)
    (ends : phase.EndsCall t plan course.clock ended ∨ phase.Keeps ended) :
    course.Delivered (course.look t plan place phase) ended (.byHand place) := by
  cases polled : phase.poll t plan course.clock course.loop.store with
  | mk entries rest =>
  obtain ⟨store, progress⟩ := rest
  simp only [look, polled]
  refine ⟨deedsAt (.byHand place) course.clock entries, rfl, ?_⟩
  rw [deedsBy_deedsAt, map_snd_at]
  refine (Phase.delivers_poll polled ends).imp fun kept => ?_
  refine ⟨.ofProgress progress, by simp [inside], ?_⟩
  rcases kept with ⟨after, rfl, keeps⟩ | ⟨after, rfl⟩
  · exact keeps
  · trivial

/-- A refresh by hand that is looked at takes nothing from another actor. -/
theorem delivered_look_of_ne {place : Nat} (phase : Phase) (other : actor ≠ .byHand place)
    (keeps : course.Keeps ended actor) :
    course.Delivered (course.look t plan place phase) ended actor := by
  cases polled : phase.poll t plan course.clock course.loop.store with
  | mk entries rest =>
  obtain ⟨store, progress⟩ := rest
  simp only [look, polled]
  refine delivered_of_others rfl (deedsBy_deedsAt_of_ne other.symm course.clock entries) ?_
  cases actor with
  | loop => exact keeps
  | byHand maker =>
    obtain ⟨manual, found, kept⟩ := keeps
    have elsewhere : place ≠ maker := fun same => other (congrArg Actor.byHand same.symm)
    exact ⟨manual, (List.getElem?_set_ne elsewhere).trans found, kept⟩

/-- A refresh by hand that begins takes nothing from those before it. -/
theorem delivered_begin_of_keeps (phase : Phase) (keeps : course.Keeps ended actor) :
    course.Delivered (course.begin t plan phase) ended actor := by
  refine @delivered_look_of_ne t plan ended
    { course with manuals := course.manuals ++ [.going phase] } actor _ phase ?_ ?_
  · rintro rfl
    obtain ⟨manual, found, -⟩ := keeps
    exact Nat.lt_irrefl _ (List.getElem?_eq_some_iff.mp found).1
  · cases actor with
    | loop => exact keeps
    | byHand maker =>
      obtain ⟨manual, found, kept⟩ := keeps
      refine ⟨manual, ?_, kept⟩
      rw [List.getElem?_append_left (List.getElem?_eq_some_iff.mp found).1]
      exact found

theorem delivered_begin {phase : Phase} (ends : phase.EndsCall t plan course.clock ended) :
    course.Delivered (course.begin t plan phase) ended (.byHand course.manuals.length) := by
  refine @delivered_look t plan ended { course with manuals := course.manuals ++ [.going phase] }
    _ phase ?_ (.inl ends)
  simp

/-- A call that ends at an event is delivered. -/
theorem delivered_of_ends {event : Event} {phase : Phase}
    (looks : course.LooksAt t plan event actor phase)
    (ends : phase.EndsCall t plan course.clock ended) :
    course.Delivered (course.happen t plan event) ended actor := by
  cases looks with
  | loop going quiet looks => exact delivered_poll going quiet (.inl ⟨phase, looks, ends⟩)
  | beginsStatus => exact delivered_begin ends
  | beginsLatency => exact delivered_begin ends
  | byHand going =>
    simp only [happen, going]
    exact delivered_look (List.getElem?_eq_some_iff.mp going).1 (.inl ends)

/-- What an actor keeps is delivered at the next events. -/
theorem delivered_of_keeps (keeps : course.Keeps ended actor) (event : Event) :
    course.Delivered (course.happen t plan event) ended actor := by
  have rests {next : Course} (history : next.history = course.history)
      (still : next.Keeps ended actor) : course.Delivered next ended actor :=
    delivered_of_others (by rw [history, List.append_nil]) rfl still
  cases event with
  | poll =>
    cases actor with
    | loop => exact delivered_poll_of_keeps keeps
    | byHand place => exact delivered_poll_of_byHand keeps
  | arrive arrival =>
    cases actor with
    | loop => exact rests rfl (Loop.Keeps.arrive keeps arrival)
    | byHand place => exact rests rfl keeps
  | send value => exact rests rfl keeps
  | dropSender => exact rests rfl keeps
  | cloneReceiver receiver => exact rests rfl keeps
  | await receiver => exact rests rfl keeps
  | beginStatus => exact delivered_begin_of_keeps _ keeps
  | beginLatency => exact delivered_begin_of_keeps _ keeps
  | look place =>
    simp only [happen]
    split
    · rename_i phase going
      by_cases own : actor = .byHand place
      · subst own
        obtain ⟨manual, found, kept⟩ := keeps
        cases going.symm.trans found
        exact delivered_look (List.getElem?_eq_some_iff.mp going).1 (.inr kept)
      · exact delivered_look_of_ne phase own keeps
    · exact rests rfl keeps
  | giveUp place =>
    refine rests rfl ?_
    cases actor with
    | loop => exact keeps
    | byHand maker =>
      obtain ⟨manual, found, kept⟩ := keeps
      by_cases same : place = maker
      · refine ⟨manual.giveUp, by simp [happen, found, same], ?_⟩
        cases manual with
        | going phase => trivial
        | finished => exact kept
        | brokenOff phase => trivial
      · exact ⟨manual, by simp [happen, found, same], kept⟩

/-! ## Runs -/

theorem mem_tried {deed : Deed} {commit : Commit} {history : List Deed} (member : deed ∈ history)
    (tries : deed.entry.tried? = some commit) :
    commit ∈ tried ((deedsBy deed.actor history).map Prod.snd) :=
  List.mem_filterMap.mpr ⟨deed.entry, List.mem_map_of_mem (mem_deedsBy member), tries⟩

theorem exists_of_mem_tried {commit : Commit} {history : List Deed}
    (member : commit ∈ tried ((deedsBy actor history).map Prod.snd)) :
    ∃ deed ∈ history, deed.actor = actor ∧ deed.entry.tried? = some commit := by
  obtain ⟨entry, made, tries⟩ := List.mem_filterMap.mp member
  simp only [deedsBy, List.map_map, List.mem_map, List.mem_filter, decide_eq_true_eq] at made
  obtain ⟨deed, ⟨kept, own⟩, rfl⟩ := made
  exact ⟨deed, kept, own, tries⟩

variable {first : Store} (fits : plan.Fits first)
include fits

/-- Once the outcome of a call is delivered as far as it can be, the first commit for its target that
its actor tries holds it. -/
theorem Delivered.in_of_history (delivered : course.Delivered next ended actor)
    (sound : next.Sound t plan first) {events : List (Nat × Event)} {sooner later : List Deed}
    {deed : Deed} {commit : Commit}
    (history : (next.run t plan events).history = course.history ++ (sooner ++ deed :: later))
    (own : deed.actor = actor) (tries : deed.entry.tried? = some commit)
    (same : commit.target = ended.target)
    (nothing : ∀ other ∈ tried ((deedsBy actor sooner).map Prod.snd),
      other.target ≠ ended.target) : ended.In commit := by
  induction events generalizing course next sooner with
  | nil =>
    obtain ⟨news, grows, delivers⟩ := delivered
    obtain rfl : news = sooner ++ deed :: later := List.append_cancel_left (grows.symm.trans history)
    subst own
    exact delivers.whole commit (mem_tried (by simp) tries) same
  | cons event rest ih =>
    obtain ⟨news, grows, delivers⟩ := delivered
    obtain ⟨more, added, -⟩ := history_run fits sound (event :: rest)
    have parts : news ++ more = sooner ++ deed :: later := by
      rw [added, grows, List.append_assoc] at history
      exact List.append_cancel_left history
    by_cases here : deed ∈ news
    · subst own
      exact delivers.whole commit (mem_tried here tries) same
    · -- All that is in the news came sooner, so the outcome is still kept after them.
      obtain ⟨left, rfl, rfl⟩ : ∃ left, sooner = news ++ left ∧ more = left ++ deed :: later := by
        rcases List.append_eq_append_iff.mp parts with ⟨left, before, after⟩ | ⟨left, before, after⟩
        · exact ⟨left, before, after⟩
        · cases left with
          | nil => exact ⟨[], by simpa using before.symm, by simpa using after.symm⟩
          | cons other left =>
            cases after
            exact absurd (by simp [before]) here
      rw [deedsBy_append, List.map_append, tried_append] at nothing
      have keeps : next.Keeps ended actor := by
        refine delivers.going.resolve_left ?_
        rintro ⟨other, among, its⟩
        exact nothing other (List.mem_append_left _ among) its
      obtain ⟨elapsed, event⟩ := event
      have onward : next.Delivered (next.step t plan (elapsed, event)) ended actor :=
        @delivered_of_keeps t plan ended (next.wait elapsed) actor keeps event
      refine ih onward ((stepped fits sound elapsed event).sound sound) added ?_
      exact fun other member => nothing other (List.mem_append_right _ member)

variable (t plan) in
/-- A call of an actor ended at one of the events, and up to a point of the history since then the
actor has committed nothing for what its outcome goes into. -/
inductive EndedBefore (course : Course) (events : List (Nat × Event)) (done : List Deed)
    (actor : Actor) (ended : CallEnd) : Prop
  | intro {before after : List (Nat × Event)} {elapsed : Nat} {event : Event} {phase : Phase}
      {sooner : List Deed} (split : events = before ++ (elapsed, event) :: after)
      (looks : ((course.run t plan before).wait elapsed).LooksAt t plan event actor phase)
      (ends : phase.EndsCall t plan ((course.run t plan before).clock + elapsed) ended)
      (since : done = (course.run t plan before).history ++ sooner)
      (nothing : ∀ deed ∈ sooner, deed.actor = actor → ∀ commit, deed.entry = .committed commit →
        commit.target ≠ ended.target)

/-- The next commit that an actor makes for what the outcome of a call goes into holds the outcome. -/
theorem EndedBefore.in_next_commit (sound : course.Sound t plan first)
    {events : List (Nat × Event)} {done later : List Deed} {moment : Nat} {commit : Commit}
    (before : course.EndedBefore t plan events done actor ended)
    (history : (course.run t plan events).history = done ++ ⟨actor, moment, .committed commit⟩ :: later)
    (same : commit.target = ended.target) : ended.In commit := by
  obtain ⟨split, looks, ends, since, nothing⟩ := before
  rename_i past after elapsed event phase sooner
  subst split since
  have soundThen := sound_run fits sound past
  have logged := (sound_run fits sound (past ++ (elapsed, event) :: after)).logged
  rw [run_append, run_cons] at history logged
  rw [List.append_assoc] at history
  have delivered := delivered_of_ends looks ends
  refine delivered.in_of_history fits ((stepped fits soundThen elapsed event).sound soundThen)
    history rfl rfl same ?_
  intro other tries
  obtain ⟨deed, member, own, entry⟩ := exists_of_mem_tried tries
  cases its : deed.entry with
  | committed made =>
    rw [its] at entry
    cases entry
    exact nothing deed member own other its
  | refused made fault =>
    have kept : deed ∈ (run t plan (step t plan (run t plan course past) (elapsed, event))
        after).history := by
      rw [history]
      simp [member]
    exact absurd its (logged.notRefused deed kept made fault)
  | fetched address =>
    rw [its] at entry
    cases entry
  | measured region endpoint =>
    rw [its] at entry
    cases entry

end Course

/-! ## The state since a commit -/

section Since

variable {first : Store} {heard : List Arrival} {history done later seen : List Deed} {store : Store}
  {deed : Deed} (fits : plan.Fits first) (logged : Logged t plan first heard history store)
  (split : history = done ++ deed :: later)
include fits logged split

/-- The state at an instant after a commit is made of this commit and those since then. -/
theorem Logged.stateAfter_commit {commit : Commit} (committed : deed.entry = .committed commit) :
    ∃ before : Store, before.Shaped plan.addresses.length plan.regionCount ∧
      commit.Fits plan.addresses.length plan.regionCount ∧
      stateAfter first (done ++ deed :: seen) =
        (before.offer commit).replay (commits (seen.map Deed.entry)) := by
  have whole := logged.whole deed (by simp [split]) commit committed
  refine ⟨stateAfter first done, (fits.replay _).shaped, whole.fits fits.endpoints, ?_⟩
  rw [stateAfter_append, stateAfter_cons_committed _ _ committed]
  rfl

/-- Records stay as they were committed until others are. -/
theorem Logged.popStatus_since {statuses : List PopStatus}
    (committed : deed.entry = .committed (.status statuses))
    (still : ∀ other ∈ seen, ∀ others, other.entry ≠ .committed (.status others)) :
    (stateAfter first (done ++ deed :: seen)).state.popStatus = statuses := by
  obtain ⟨before, shaped, fit, state⟩ := logged.stateAfter_commit fits split committed
  rw [state]
  rcases (shaped.offer (.status statuses)).popStatus_replay (commits (seen.map Deed.entry)) with
    same | ⟨others, made, -, -⟩
  · rw [same, shaped.offer_status fit]
  · obtain ⟨other, member, its⟩ := List.mem_map.mp (mem_commits.mp made)
    exact absurd its (still other member others)

/-- The latencies of a region stay as they were committed until others are. -/
theorem Logged.regionLatency_since {region : Nat} {latencies : List Binary64}
    (committed : deed.entry = .committed (.latency region latencies))
    (still : ∀ other ∈ seen, ∀ others, other.entry ≠ .committed (.latency region others)) :
    region < plan.regionCount ∧
      (stateAfter first (done ++ deed :: seen)).regionLatency? region = some latencies := by
  obtain ⟨before, shaped, fit, state⟩ := logged.stateAfter_commit fits split committed
  refine ⟨fit.2, ?_⟩
  rw [state]
  rcases (shaped.offer (.latency region latencies)).regionLatency_replay
    (commits (seen.map Deed.entry)) region with same | ⟨others, made, -, -⟩
  · rw [same, shaped.regionLatency_own fit]
  · obtain ⟨other, member, its⟩ := List.mem_map.mp (mem_commits.mp made)
    exact absurd its (still other member others)

end Since

end Steering.Refresh
