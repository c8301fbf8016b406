import Mathlib.Data.List.Induction
import Steering.Proofs.StoreLog
/-! The state as a log: whatever is done with a state, the commits that were accepted so far tell all of
it, and the version tells how many of them there were. -/

namespace Steering

namespace Commit

/-- The records that a commit is of. -/
def statuses? : Commit → Option (List PopStatus)
  | status statuses => some statuses
  | latency _ _ => none

/-- The vector that a commit is of, if it is for this region. -/
def latencies? (region : Nat) : Commit → Option (List Binary64)
  | status _ => none
  | latency target latencies => if target = region then some latencies else none

/-- The number of entries that a commit has. -/
def size : Commit → Nat
  | status statuses => statuses.length
  | latency _ latencies => latencies.length

/-- Why a commit on a state of so many PoPs and regions is refused. Its length is looked at first. -/
inductive Refused (pops regions : Nat) : Commit → StoreFault → Prop
  | length {commit : Commit} (mismatch : commit.size ≠ pops) :
      Refused pops regions commit (.lengthMismatch pops commit.size)
  | region {region : Nat} {latencies : List Binary64} (length : latencies.length = pops)
      (unknown : regions ≤ region) :
      Refused pops regions (.latency region latencies) (.unknownRegion region regions)

end Commit

/-- The records that a log of commits leaves: the last ones in it, or the first ones of all. -/
def lastRecords (pops : Nat) (log : List Commit) : List PopStatus :=
  (log.filterMap Commit.statuses?).getLast?.getD (List.replicate pops .notYetAvailable)

/-- The vector that a log of commits leaves a region: the last one for it, or the first one of all. -/
def lastVector (pops : Nat) (log : List Commit) (region : Nat) : List Binary64 :=
  (log.filterMap (Commit.latencies? region)).getLast?.getD (List.replicate pops initialLatency)

namespace Store

/-- The state that a log of commits tells. -/
def ofLog (pops regions : Nat) (log : List Commit) : Store where
  popCount := pops
  state := {
    version := .ofNat log.length
    popStatus := lastRecords pops log
    regionLatency := (List.range regions).map (lastVector pops log) }

/-- What can be done with a state. -/
inductive Operation where
  | commit (commit : Commit)
  | snapshot
  | version
  | popStatus
  | regionLatency (region : Nat)

/-- What comes of an operation. -/
inductive Answer where
  /-- A commit was made, which gave the state this version. -/
  | made (version : UInt32)
  | refused (fault : StoreFault)
  | snapshot (snapshot : Snapshot)
  | version (version : UInt32)
  | popStatus (statuses : List PopStatus)
  | regionLatency (latencies : Option (List Binary64))

/-- What comes of an operation, and the state after it. -/
def perform (store : Store) : Operation → Answer × Store
  | .commit commit =>
    match store.commit commit with
    | .ok next => (.made next.version, next)
    | .error fault => (.refused fault, store)
  | .snapshot => (.snapshot store.state, store)
  | .version => (.version store.version, store)
  | .popStatus => (.popStatus store.state.popStatus, store)
  | .regionLatency region => (.regionLatency (store.regionLatency? region), store)

/-- What comes of operations one after another, and the state after them. -/
def carryOut (store : Store) : List Operation → List (Operation × Answer) × Store
  | [] => ([], store)
  | operation :: rest =>
    let (answer, next) := store.perform operation
    let (done, last) := next.carryOut rest
    ((operation, answer) :: done, last)

/-- The commits that were made, in their order. -/
def accepted (done : List (Operation × Answer)) : List Commit :=
  done.filterMap fun
    | (.commit commit, .made _) => some commit
    | _ => none

variable {pops regions : Nat} {store : Store} {log : List Commit}

theorem ofLog_nil : ofLog pops regions [] = initial pops regions := by
  have vectors : (List.range regions).map (lastVector pops []) =
      List.replicate regions (List.replicate pops initialLatency) := by
    rw [List.eq_replicate_iff]
    simp [lastVector]
  simp only [ofLog, vectors]
  rfl

theorem lastRecords_append_status (statuses : List PopStatus) :
    lastRecords pops (log ++ [.status statuses]) = statuses := by
  simp [lastRecords, Commit.statuses?]

theorem lastRecords_append_latency (region : Nat) (latencies : List Binary64) :
    lastRecords pops (log ++ [.latency region latencies]) = lastRecords pops log := by
  simp [lastRecords, Commit.statuses?]

theorem lastVector_append_status (statuses : List PopStatus) :
    lastVector pops (log ++ [.status statuses]) = lastVector pops log := by
  funext region
  simp [lastVector, Commit.latencies?]

theorem lastVector_append_latency (target : Nat) (latencies : List Binary64) (region : Nat) :
    lastVector pops (log ++ [.latency target latencies]) region =
      if target = region then latencies else lastVector pops log region := by
  by_cases same : target = region
  · simp [lastVector, Commit.latencies?, same]
  · simp [lastVector, Commit.latencies?, same]

/-- A commit that fits is written at the end of the log. -/
theorem offer_ofLog (shaped : (ofLog pops regions log).Shaped pops regions) {commit : Commit}
    (fits : commit.Fits pops regions) :
    (ofLog pops regions log).offer commit = ofLog pops regions (log ++ [commit]) := by
  have counted : UInt32.ofNat log.length + 1 = .ofNat (log ++ [commit]).length := by
    rw [List.length_append, UInt32.ofNat_add]
    rfl
  cases commit with
  | status statuses =>
    rw [shaped.offer_status fits]
    simp only [ofLog, counted, lastRecords_append_status, lastVector_append_status]
  | latency region latencies =>
    rw [shaped.offer_latency fits.1 fits.2]
    simp only [ofLog, counted, lastRecords_append_latency]
    congr 2
    apply List.ext_getElem
    · simp
    · intro place inside _
      simp [List.getElem_set, lastVector_append_latency]

/-- Commits that fit make the state that the log of them tells. -/
theorem replay_initial (fit : ∀ commit ∈ log, commit.Fits pops regions) :
    (initial pops regions).replay log = ofLog pops regions log := by
  induction log using List.reverseRecOn with
  | nil => exact ofLog_nil.symm
  | append_singleton earlier commit ih =>
    have before := ih fun other member => fit other (List.mem_append_left _ member)
    have shaped := (shaped_initial pops regions).replay earlier
    rw [before] at shaped
    rw [replay_append, before]
    exact offer_ofLog shaped (fit commit (List.mem_append_right _ (List.mem_singleton_self _)))

theorem shaped_ofLog (fit : ∀ commit ∈ log, commit.Fits pops regions) :
    (ofLog pops regions log).Shaped pops regions := by
  rw [← replay_initial fit]
  exact (shaped_initial pops regions).replay log

theorem Shaped.perform_fits (shaped : store.Shaped pops regions) {commit : Commit}
    (fits : commit.Fits pops regions) :
    store.perform (.commit commit) = (.made (store.offer commit).version, store.offer commit) := by
  simp only [perform, shaped.commit_fits fits]

/-- A commit is refused exactly for one of the two reasons. -/
theorem Shaped.refused_iff (shaped : store.Shaped pops regions) {commit : Commit}
    {fault : StoreFault} :
    (store.perform (.commit commit)).1 = .refused fault ↔ commit.Refused pops regions fault := by
  have fault_of_commit : (store.perform (.commit commit)).1 = .refused fault ↔
      store.commit commit = .error fault := by
    simp only [perform]
    cases store.commit commit <;> simp
  rw [fault_of_commit]
  constructor
  · intro refused
    cases commit with
    | status statuses =>
      simp only [Store.commit, replaceStatus, shaped.popCount] at refused
      split at refused
      · cases refused
        exact .length ‹_›
      · cases refused
    | latency region latencies =>
      simp only [Store.commit, replaceLatency, shaped.popCount, shaped.regions] at refused
      split at refused
      · cases refused
        exact .length ‹_›
      · split at refused
        · cases refused
          exact .region (not_not.mp ‹_›) ‹_›
        · cases refused
  · intro refused
    cases refused with
    | length mismatch =>
      cases commit with
      | status statuses =>
        simp only [Store.commit, replaceStatus, shaped.popCount]
        exact if_pos mismatch
      | latency region latencies =>
        simp only [Store.commit, replaceLatency, shaped.popCount]
        exact if_pos mismatch
    | region length unknown =>
      simp only [Store.commit, replaceLatency, shaped.popCount, shaped.regions, length]
      rw [if_neg (not_not.mpr rfl), if_pos unknown]

/-- Only a commit that is made changes anything. -/
theorem perform_keeps {operation : Operation}
    (unmade : ∀ version, (store.perform operation).1 ≠ .made version) :
    (store.perform operation).2 = store := by
  cases operation with
  | commit commit =>
    cases tried : store.commit commit with
    | ok next => exact absurd (by rw [perform, tried]) (unmade next.version)
    | error fault => simp only [perform, tried]
  | snapshot => rfl
  | version => rfl
  | popStatus => rfl
  | regionLatency region => rfl

theorem exists_refused {commit : Commit} (unfit : ¬ commit.Fits pops regions) :
    ∃ fault, commit.Refused pops regions fault := by
  cases commit with
  | status statuses => exact ⟨_, .length unfit⟩
  | latency region latencies =>
    by_cases length : latencies.length = pops
    · exact ⟨_, .region length (Nat.not_lt.mp fun known => unfit ⟨length, known⟩)⟩
    · exact ⟨_, .length length⟩

/-- An operation is a commit that fits and is made, or it leaves the state and the log as they are. -/
theorem Shaped.perform_cases (shaped : store.Shaped pops regions) (operation : Operation) :
    (∃ commit, operation = .commit commit ∧ commit.Fits pops regions ∧
      store.perform operation = (.made (store.offer commit).version, store.offer commit)) ∨
    ((store.perform operation).2 = store ∧
      accepted [(operation, (store.perform operation).1)] = []) := by
  cases operation with
  | commit commit =>
    by_cases fits : commit.Fits pops regions
    · exact .inl ⟨commit, rfl, fits, shaped.perform_fits fits⟩
    · obtain ⟨fault, reason⟩ := exists_refused fits
      have refused := shaped.refused_iff.mpr reason
      refine .inr ⟨perform_keeps ?_, ?_⟩
      · rw [refused]
        nofun
      · rw [refused]
        rfl
  | snapshot => exact .inr ⟨rfl, rfl⟩
  | version => exact .inr ⟨rfl, rfl⟩
  | popStatus => exact .inr ⟨rfl, rfl⟩
  | regionLatency region => exact .inr ⟨rfl, rfl⟩

theorem accepted_cons (operation : Operation) (answer : Answer) (done : List (Operation × Answer)) :
    accepted ((operation, answer) :: done) = accepted [(operation, answer)] ++ accepted done :=
  List.filterMap_append (l := [(operation, answer)])

/-- A state that its log tells is told by it after more operations, and so is every snapshot that is
taken on the way. -/
theorem carryOut_ofLog (fit : ∀ commit ∈ log, commit.Fits pops regions)
    (operations : List Operation) :
    (∀ commit ∈ accepted ((ofLog pops regions log).carryOut operations).1,
      commit.Fits pops regions) ∧
    ((ofLog pops regions log).carryOut operations).2 =
      ofLog pops regions (log ++ accepted ((ofLog pops regions log).carryOut operations).1) ∧
    ∀ snapshot,
      (.snapshot, .snapshot snapshot) ∈ ((ofLog pops regions log).carryOut operations).1 →
      ∃ part, part <+: accepted ((ofLog pops regions log).carryOut operations).1 ∧
        snapshot = (ofLog pops regions (log ++ part)).state := by
  induction operations generalizing log with
  | nil => simp [carryOut, accepted]
  | cons operation rest ih =>
    have shaped := shaped_ofLog fit
    simp only [carryOut]
    rcases shaped.perform_cases operation with ⟨commit, rfl, fits, made⟩ | ⟨kept, none⟩
    · have fitToo : ∀ other ∈ log ++ [commit], other.Fits pops regions := by
        intro other member
        rcases List.mem_append.mp member with old | new
        · exact fit other old
        · exact List.mem_singleton.mp new ▸ fits
      obtain ⟨allFit, state, snapshots⟩ := ih fitToo
      rw [made, offer_ofLog shaped fits, accepted_cons]
      have here (answer : UInt32) :
          accepted [(Operation.commit commit, Answer.made answer)] = [commit] := rfl
      rw [here, List.singleton_append]
      refine ⟨?_, ?_, ?_⟩
      · exact List.forall_mem_cons.mpr ⟨fits, allFit⟩
      · rw [state, List.append_assoc, List.singleton_append]
      · intro snapshot member
        rcases List.mem_cons.mp member with same | later
        · cases same
        · obtain ⟨part, upTo, told⟩ := snapshots snapshot later
          refine ⟨commit :: part, List.cons_prefix_cons.mpr ⟨rfl, upTo⟩, ?_⟩
          rw [told, List.append_assoc, List.singleton_append]
    · obtain ⟨allFit, state, snapshots⟩ := ih fit
      rw [accepted_cons, none, kept, List.nil_append]
      refine ⟨allFit, state, ?_⟩
      intro snapshot member
      rcases List.mem_cons.mp member with same | later
      · cases same
        exact ⟨[], List.nil_prefix, by rw [List.append_nil]⟩
      · exact snapshots snapshot later

/-- What comes of operations on the first state of so many PoPs and regions: everything is told by the
log of the commits that were accepted. -/
structure IsLog (pops regions : Nat) (done : List (Operation × Answer)) (store : Store) : Prop where
  shaped : store.Shaped pops regions
  /-- The version counts the commits in the log. -/
  counted : (accepted done).length < UInt32.size → store.version.toNat = (accepted done).length
  records : store.state.popStatus = lastRecords pops (accepted done)
  vectors : ∀ region, store.regionLatency? region =
    if region < regions then some (lastVector pops (accepted done) region) else none
  /-- A commit is refused exactly if its length or its region does not fit. -/
  refused : ∀ commit fault, (store.perform (.commit commit)).1 = .refused fault ↔
    commit.Refused pops regions fault
  /-- What is not a commit that is made changes nothing. -/
  kept : ∀ operation, (∀ version, (store.perform operation).1 ≠ .made version) →
    (store.perform operation).2 = store
  /-- The version tells two states of one history apart. -/
  versions : (accepted done).length < UInt32.size → ∀ first second,
    (.snapshot, .snapshot first) ∈ done → (.snapshot, .snapshot second) ∈ done →
    first.version = second.version → first = second

theorem regionLatency_ofLog (region : Nat) :
    (ofLog pops regions log).regionLatency? region =
      if region < regions then some (lastVector pops log region) else none := by
  by_cases known : region < regions
  · simp [regionLatency?, ofLog, known]
  · simp [regionLatency?, ofLog, known]

/-- Two beginnings of a log that the version can count are one if they have one version. -/
theorem eq_of_version_ofLog (below : log.length < UInt32.size) {first second : List Commit}
    (one : first <+: log) (two : second <+: log)
    (same : (ofLog pops regions first).version = (ofLog pops regions second).version) :
    first = second := by
  have lengths : first.length = second.length := by
    have counts := congrArg UInt32.toNat same
    simp only [Store.version, ofLog, UInt32.toNat_ofNat'] at counts
    rwa [Nat.mod_eq_of_lt (Nat.lt_of_le_of_lt one.length_le below),
      Nat.mod_eq_of_lt (Nat.lt_of_le_of_lt two.length_le below)] at counts
  rcases List.prefix_or_prefix_of_prefix one two with shorter | longer
  · exact shorter.eq_of_length lengths
  · exact (longer.eq_of_length lengths.symm).symm

/-- Every history of a state is a log: whatever is committed, refused and read, in any order. -/
theorem history_isLog (pops regions : Nat) (operations : List Operation) :
    IsLog pops regions ((initial pops regions).carryOut operations).1
      ((initial pops regions).carryOut operations).2 := by
  rw [← ofLog_nil]
  obtain ⟨fit, state, snapshots⟩ := @carryOut_ofLog pops regions [] nofun operations
  generalize ((ofLog pops regions []).carryOut operations).1 = done at fit state snapshots ⊢
  simp only [List.nil_append] at state snapshots
  rw [state]
  have shaped := shaped_ofLog fit
  refine ⟨shaped, ?_, rfl, regionLatency_ofLog, ?_, ?_, ?_⟩
  · intro below
    simp only [Store.version, ofLog, UInt32.toNat_ofNat']
    exact Nat.mod_eq_of_lt below
  · exact fun commit fault => shaped.refused_iff
  · exact fun operation unmade => perform_keeps unmade
  · intro below first second one two same
    obtain ⟨part, upTo, rfl⟩ := snapshots first one
    obtain ⟨other, upToToo, rfl⟩ := snapshots second two
    rw [eq_of_version_ofLog below upTo upToToo same]

end Store

end Steering
