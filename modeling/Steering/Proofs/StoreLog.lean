import Steering.Store
/-! The state as the outcome of the commits that were tried on it, in their order. -/

namespace Steering

/-- The commits that fit a state with this many PoPs and regions. -/
def Commit.Fits (pops regions : Nat) : Commit → Prop
  | status statuses => statuses.length = pops
  | latency region latencies => latencies.length = pops ∧ region < regions

/-- The region that a commit is for, or none if it is one of records. -/
def Commit.target : Commit → Option Nat
  | status _ => none
  | latency region _ => some region

namespace Store

/-- The state after a commit, which is the same state if the commit is refused. -/
def offer (store : Store) (commit : Commit) : Store :=
  match store.commit commit with
  | .ok next => next
  | .error _ => store

/-- The state after commits, one after another. -/
def replay (store : Store) (commits : List Commit) : Store :=
  commits.foldl offer store

@[simp] theorem replay_nil (store : Store) : store.replay [] = store := rfl

@[simp] theorem replay_cons (store : Store) (commit : Commit) (commits : List Commit) :
    store.replay (commit :: commits) = (store.offer commit).replay commits := rfl

theorem replay_append (store : Store) (before after : List Commit) :
    store.replay (before ++ after) = (store.replay before).replay after :=
  List.foldl_append

/-- The state has one record per PoP and one vector per region with one latency per PoP. -/
structure Shaped (pops regions : Nat) (store : Store) : Prop where
  popCount : store.popCount = pops
  statuses : store.state.popStatus.length = pops
  regions : store.state.regionLatency.length = regions
  latencies : ∀ latency ∈ store.state.regionLatency, latency.length = pops

theorem shaped_initial (pops regions : Nat) : (initial pops regions).Shaped pops regions where
  popCount := rfl
  statuses := List.length_replicate
  regions := List.length_replicate
  latencies latency member := by
    rw [List.eq_of_mem_replicate member, List.length_replicate]

variable {pops regions : Nat} {store : Store}

/-- A commit that fits is made. -/
theorem Shaped.commit_fits (shaped : store.Shaped pops regions) {commit : Commit}
    (fits : commit.Fits pops regions) : store.commit commit = .ok (store.offer commit) := by
  cases commit with
  | status statuses =>
    have length : statuses.length = store.popCount := fits.trans shaped.popCount.symm
    simp [offer, Store.commit, replaceStatus, length]
  | latency region latencies =>
    have length : latencies.length = store.popCount := fits.1.trans shaped.popCount.symm
    have known : ¬ store.state.regionLatency.length ≤ region := by
      rw [shaped.regions]
      exact Nat.not_le.mpr fits.2
    simp [offer, Store.commit, replaceLatency, length, known]

/-- A commit that does not fit changes nothing. -/
theorem Shaped.offer_unfit (shaped : store.Shaped pops regions) {commit : Commit}
    (unfit : ¬ commit.Fits pops regions) : store.offer commit = store := by
  cases commit with
  | status statuses =>
    have length : statuses.length ≠ store.popCount := by
      rw [shaped.popCount]
      exact unfit
    simp [offer, Store.commit, replaceStatus, length]
  | latency region latencies =>
    by_cases length : latencies.length = store.popCount
    · have unknown : store.state.regionLatency.length ≤ region := by
        rw [shaped.regions]
        exact Nat.not_lt.mp fun known => unfit ⟨length.trans shaped.popCount, known⟩
      simp [offer, Store.commit, replaceLatency, length, unknown]
    · simp [offer, Store.commit, replaceLatency, length]

theorem Shaped.offer_status (shaped : store.Shaped pops regions) {statuses : List PopStatus}
    (fits : statuses.length = pops) :
    store.offer (.status statuses) =
      ⟨store.popCount, store.state.version + 1, statuses, store.state.regionLatency⟩ := by
  have length : statuses.length = store.popCount := fits.trans shaped.popCount.symm
  simp [offer, Store.commit, replaceStatus, length]

theorem Shaped.offer_latency (shaped : store.Shaped pops regions) {region : Nat}
    {latencies : List Binary64} (fits : latencies.length = pops) (known : region < regions) :
    store.offer (.latency region latencies) =
      ⟨store.popCount, store.state.version + 1, store.state.popStatus,
        store.state.regionLatency.set region latencies⟩ := by
  have length : latencies.length = store.popCount := fits.trans shaped.popCount.symm
  have present : ¬ store.state.regionLatency.length ≤ region := by
    rw [shaped.regions]
    exact Nat.not_le.mpr known
  simp [offer, Store.commit, replaceLatency, length, present]

/-- No commit changes the shape of the state. -/
theorem Shaped.offer (shaped : store.Shaped pops regions) (commit : Commit) :
    (store.offer commit).Shaped pops regions := by
  by_cases fits : commit.Fits pops regions
  · cases commit with
    | status statuses =>
      rw [shaped.offer_status fits]
      exact ⟨shaped.popCount, fits, shaped.regions, shaped.latencies⟩
    | latency region latencies =>
      rw [shaped.offer_latency fits.1 fits.2]
      refine ⟨shaped.popCount, shaped.statuses, ?_, ?_⟩
      · simpa using shaped.regions
      · intro latency member
        rcases List.mem_or_eq_of_mem_set member with old | new
        · exact shaped.latencies latency old
        · exact new ▸ fits.1
  · rw [shaped.offer_unfit fits]
    exact shaped

theorem Shaped.replay (shaped : store.Shaped pops regions) (commits : List Commit) :
    (store.replay commits).Shaped pops regions := by
  induction commits generalizing store with
  | nil => exact shaped
  | cons commit commits ih => exact ih (shaped.offer commit)

/-- Commits that fit are counted, one by one. -/
theorem Shaped.version_replay (shaped : store.Shaped pops regions) {commits : List Commit}
    (fit : ∀ commit ∈ commits, commit.Fits pops regions) :
    (store.replay commits).version = store.version + .ofNat commits.length := by
  induction commits generalizing store with
  | nil => simp
  | cons commit commits ih =>
    have counted : (store.offer commit).version = store.version + 1 := by
      have fits := fit commit (List.mem_cons_self ..)
      cases commit with
      | status statuses =>
        rw [shaped.offer_status fits]
        rfl
      | latency region latencies =>
        rw [shaped.offer_latency fits.1 fits.2]
        rfl
    have rest := ih (shaped.offer commit) fun other member =>
      fit other (List.mem_cons_of_mem commit member)
    rw [replay_cons, rest, counted, List.length_cons, UInt32.ofNat_add, UInt32.add_assoc,
      UInt32.add_comm 1]
    rfl

/-- A commit leaves the records as they are or is a commit of records that fits. -/
theorem Shaped.popStatus_offer (shaped : store.Shaped pops regions) (commit : Commit) :
    (store.offer commit).state.popStatus = store.state.popStatus ∨
      ∃ statuses, commit = .status statuses ∧ statuses.length = pops ∧
        (store.offer commit).state.popStatus = statuses := by
  by_cases fits : commit.Fits pops regions
  · cases commit with
    | status statuses =>
      rw [shaped.offer_status fits]
      exact .inr ⟨statuses, rfl, fits, rfl⟩
    | latency region latencies =>
      rw [shaped.offer_latency fits.1 fits.2]
      exact .inl rfl
  · rw [shaped.offer_unfit fits]
    exact .inl rfl

theorem Shaped.regionLatency_own (shaped : store.Shaped pops regions) {region : Nat}
    {latencies : List Binary64} (fits : (Commit.latency region latencies).Fits pops regions) :
    (store.offer (.latency region latencies)).regionLatency? region = some latencies := by
  have present : region < store.state.regionLatency.length := by
    rw [shaped.regions]
    exact fits.2
  rw [shaped.offer_latency fits.1 fits.2]
  simp [regionLatency?, present]

/-- A commit leaves the vector of a region as it is or is a commit for this region that fits. -/
theorem Shaped.regionLatency_offer (shaped : store.Shaped pops regions) (commit : Commit)
    (region : Nat) :
    (store.offer commit).regionLatency? region = store.regionLatency? region ∨
      ∃ latencies, commit = .latency region latencies ∧ latencies.length = pops ∧
        (store.offer commit).regionLatency? region = some latencies := by
  by_cases fits : commit.Fits pops regions
  · cases commit with
    | status statuses =>
      rw [shaped.offer_status fits]
      exact .inl rfl
    | latency committed latencies =>
      by_cases same : committed = region
      · subst same
        exact .inr ⟨latencies, rfl, fits.1, shaped.regionLatency_own fits⟩
      · left
        rw [shaped.offer_latency fits.1 fits.2]
        simp [regionLatency?, same]
  · rw [shaped.offer_unfit fits]
    exact .inl rfl

theorem Shaped.regionLatency_other (shaped : store.Shaped pops regions) {commit : Commit}
    {region : Nat} (elsewhere : commit.target ≠ some region) :
    (store.offer commit).regionLatency? region = store.regionLatency? region := by
  rcases shaped.regionLatency_offer commit region with same | ⟨latencies, rfl, _, _⟩
  · exact same
  · exact absurd rfl elsewhere

/-- What a commit makes of the vector of a region depends on nothing else of the state. -/
theorem Shaped.regionLatency_congr {other : Store} (shaped : store.Shaped pops regions)
    (also : other.Shaped pops regions) {region : Nat}
    (same : store.regionLatency? region = other.regionLatency? region) (commit : Commit) :
    (store.offer commit).regionLatency? region = (other.offer commit).regionLatency? region := by
  by_cases elsewhere : commit.target = some region
  · cases commit with
    | status statuses => cases elsewhere
    | latency committed latencies =>
      cases elsewhere
      by_cases fits : (Commit.latency region latencies).Fits pops regions
      · rw [shaped.regionLatency_own fits, also.regionLatency_own fits]
      · rw [shaped.offer_unfit fits, also.offer_unfit fits]
        exact same
  · rw [shaped.regionLatency_other elsewhere, also.regionLatency_other elsewhere]
    exact same

/-- The records are the first ones or those of a commit that fits. -/
theorem Shaped.popStatus_replay (shaped : store.Shaped pops regions) (commits : List Commit) :
    (store.replay commits).state.popStatus = store.state.popStatus ∨
      ∃ statuses, .status statuses ∈ commits ∧ statuses.length = pops ∧
        (store.replay commits).state.popStatus = statuses := by
  induction commits generalizing store with
  | nil => exact .inl rfl
  | cons commit commits ih =>
    rcases ih (shaped.offer commit) with kept | ⟨statuses, member, fits, last⟩
    · rcases shaped.popStatus_offer commit with same | ⟨statuses, rfl, fits, new⟩
      · exact .inl (kept.trans same)
      · exact .inr ⟨statuses, List.mem_cons_self .., fits, kept.trans new⟩
    · exact .inr ⟨statuses, List.mem_cons_of_mem commit member, fits, last⟩

/-- The vector of a region is the first one or that of a commit for the region that fits. -/
theorem Shaped.regionLatency_replay (shaped : store.Shaped pops regions) (commits : List Commit)
    (region : Nat) :
    (store.replay commits).regionLatency? region = store.regionLatency? region ∨
      ∃ latencies, .latency region latencies ∈ commits ∧ latencies.length = pops ∧
        (store.replay commits).regionLatency? region = some latencies := by
  induction commits generalizing store with
  | nil => exact .inl rfl
  | cons commit commits ih =>
    rcases ih (shaped.offer commit) with kept | ⟨latencies, member, fits, last⟩
    · rcases shaped.regionLatency_offer commit region with same | ⟨latencies, rfl, fits, new⟩
      · exact .inl (kept.trans same)
      · exact .inr ⟨latencies, List.mem_cons_self .., fits, kept.trans new⟩
    · exact .inr ⟨latencies, List.mem_cons_of_mem commit member, fits, last⟩

/-- The vector of a region is what is committed for it, if only one vector is. -/
theorem Shaped.regionLatency_of_mem (shaped : store.Shaped pops regions) {commits : List Commit}
    {region : Nat} {latencies : List Binary64} (member : .latency region latencies ∈ commits)
    (fits : (Commit.latency region latencies).Fits pops regions)
    (only : ∀ others, .latency region others ∈ commits → others = latencies) :
    (store.replay commits).regionLatency? region = some latencies := by
  obtain ⟨before, after, rfl⟩ := List.append_of_mem member
  have made := shaped.replay before
  rw [replay_append, replay_cons]
  rcases (made.offer (.latency region latencies)).regionLatency_replay after region with
    same | ⟨others, later, -, its⟩
  · rw [same, made.regionLatency_own fits]
  · rw [its, only others (by simp [later])]

end Store

end Steering
