import Steering.Proofs.Headway
/-! The commits of a loop that keeps a state fresh by itself: their order, how the version counts them,
and that there are ever more of them while the loop runs. -/

namespace Steering

open Refresh

/-- What the commits of a loop come to that nobody else refreshes beside, when it has been looked at so
often after the time of its stage was over. -/
structure Refresh.CommitLog (regions late : Nat) (first : Store) (loop : Loop) : Prop where
  /-- They are the beginning of cycles: the records, and then each region once in some order. -/
  cyclic : ∃ orders : List (List Nat), (∀ order ∈ orders, order.Perm (List.range regions)) ∧
    targets (loop.journal.map Prod.snd) <+: orders.flatMap cycle
  /-- The store refuses none. -/
  accepted : ∀ entry ∈ loop.journal.map Prod.snd, ∀ commit fault, entry ≠ .refused commit fault
  /-- They make the state what it is. -/
  state : loop.store = first.replay (commits (loop.journal.map Prod.snd))
  /-- At every instant the version counts those that have been made. -/
  counted : ∀ seen, seen <+: loop.journal.map Prod.snd →
    (first.replay (commits seen)).version = first.version + .ofNat (commits seen).length
  /-- After whole cycles it has grown by as much for each of them. -/
  full : ∀ (seen : List Entry) (orders : List (List Nat)), seen <+: loop.journal.map Prod.snd →
    (∀ order ∈ orders, order.Perm (List.range regions)) → targets seen = orders.flatMap cycle →
    first.version.toNat + orders.length * (1 + regions) < UInt32.size →
    (first.replay (commits seen)).version.toNat =
      first.version.toNat + orders.length * (1 + regions)
  /-- As long as it runs, it completes a cycle with every three of those looks. -/
  progress : loop.ending = none → ∃ orders : List (List Nat), late / 3 ≤ orders.length ∧
    (∀ order ∈ orders, order.Perm (List.range regions)) ∧
    orders.flatMap cycle <+: targets (loop.journal.map Prod.snd)

namespace Refresh

variable {plan : Plan} {first : Store}

/-- At every instant of a history the version counts the commits that have been made. -/
theorem Logged.version {t : Responder} {heard : List Arrival} {history : List Deed} {store : Store}
    (fits : plan.Fits first) (logged : Logged t plan first heard history store) {seen : List Entry}
    (part : seen <+: history.map Deed.entry) :
    (first.replay (commits seen)).version = first.version + .ofNat (commits seen).length := by
  apply fits.shaped.version_replay
  intro commit made
  obtain ⟨deed, member, its⟩ := List.mem_map.mp (part.subset (mem_commits.mp made))
  exact (logged.whole deed member commit its).fits fits.endpoints

/-- If nothing is refreshed by hand, the version counts the commits of the loop. -/
theorem Course.version_of_alone {t : Responder} (fits : plan.Fits first)
    (channel : Shutdown.Channel) {events : List (Nat × Event)}
    (alone : ∀ event ∈ events, event.2.isByHand = false) :
    ((Course.start first channel).run t plan events).loop.store.version = first.version +
      .ofNat (commits (((Course.start first channel).run t plan events).loop.journal.map
        Prod.snd)).length := by
  have sound := Course.sound_run fits (Course.sound_start (t := t) first channel) events
  have version := sound.logged.version fits (List.prefix_refl _)
  rw [Course.entries_run fits channel alone] at version
  rw [sound.logged.state, stateAfter, Course.entries_run fits channel alone]
  exact version

/-- A version that counts the commits grows by as much for each whole cycle of them. -/
theorem version_of_cycles {version : UInt32} {seen : List Entry} {orders : List (List Nat)}
    (counted : version = first.version + .ofNat (commits seen).length)
    (whole : ∀ order ∈ orders, order.Perm (List.range plan.regionCount))
    (cycles : targets seen = orders.flatMap cycle)
    (below : first.version.toNat + orders.length * (1 + plan.regionCount) < UInt32.size) :
    version.toNat = first.version.toNat + orders.length * (1 + plan.regionCount) := by
  have count : (commits seen).length = orders.length * (1 + plan.regionCount) := by
    rw [← length_cycles whole, ← cycles, targets, List.length_map]
  rw [counted, count, UInt32.toNat_add, UInt32.toNat_ofNat', Nat.add_mod_mod,
    Nat.mod_eq_of_lt below]

end Refresh

namespace Engine

/-- Whatever is replied and whatever happens to the signal, the loop of an engine commits in
cycles, the store refuses none of these commits, and the version counts them. -/
theorem commit_log {config : Config} {ownProbers : Bool} {names : Net.NameService}
    {engine : Engine} (built : build config ownProbers names = .ok engine)
    (earlier : List Commit) (t : Responder)
    (channel : Shutdown.Channel) (events : List (Nat × Event))
    (alone : ∀ event ∈ events, event.2.isByHand = false) :
    CommitLog engine.regions.length
      ((Course.start (engine.store.replay earlier) channel).lateLooks t engine.plan events)
      (engine.store.replay earlier)
      ((Course.start (engine.store.replay earlier) channel).run t engine.plan events).loop := by
  have parts := builtFrom_of_build built
  have regions : engine.plan.regionCount = engine.regions.length := by
    rw [parts.regionCount, parts.regions]
  have fits := parts.fits earlier
  generalize engine.store.replay earlier = first at fits ⊢
  have starts : (Course.start first channel).Sound t engine.plan first :=
    Course.sound_start first channel
  have sound := Course.sound_run fits starts events
  obtain ⟨news, grows, own⟩ := Course.history_run fits starts events
  have headway := Course.position_run fits starts events
  generalize (Course.start first channel).run t engine.plan events = course at sound grows headway ⊢
  have entries : course.history.map Deed.entry = course.loop.journal.map Prod.snd := by
    rw [← sound.journal]
    apply Course.entries_of_alone
    rw [grows]
    exact own alone
  have counted {seen : List Entry} (part : seen <+: course.loop.journal.map Prod.snd) :
      (first.replay (commits seen)).version = first.version + .ofNat (commits seen).length :=
    sound.logged.version fits (entries ▸ part)
  refine ⟨?_, ?_, ?_, fun seen => counted, ?_, ?_⟩
  · rw [← regions]
    exact sound.cyclic.prefix_cycles
  · intro entry member commit fault
    rw [← entries] at member
    obtain ⟨deed, kept, rfl⟩ := List.mem_map.mp member
    exact sound.logged.notRefused deed kept commit fault
  · rw [← entries]
    exact sound.logged.state
  · intro seen orders part whole cycles below
    rw [← regions] at whole below ⊢
    exact version_of_cycles (counted part) whole cycles below
  · intro going
    obtain ⟨orders, whole, done, far⟩ := sound.cyclic.completed
    have ahead : 1 + (Course.start first channel).lateLooks t engine.plan events ≤
        course.loop.position := headway going
    rw [Loop.position] at ahead
    exact ⟨orders, by omega, regions ▸ whole, done⟩

theorem commit_log_twoPops : ∃ engine, build twoPops true = .ok engine ∧
    CommitLog engine.regions.length
      ((Course.start (engine.store.replay []) .initial).lateLooks .silent engine.plan
        [(0, .poll), (10000, .poll), (10000, .poll), (0, .send true), (0, .poll)])
      (engine.store.replay [])
      ((Course.start (engine.store.replay []) .initial).run .silent engine.plan
        [(0, .poll), (10000, .poll), (10000, .poll), (0, .send true), (0, .poll)]).loop := by
  obtain ⟨engine, built⟩ := build_twoPops
  exact ⟨engine, built, commit_log built [] .silent .initial _ (by decide)⟩

end Engine

end Steering
