import Steering.Proofs.Provenance
import Steering.Proofs.StoreLog
/-! The commits in a journal, and how a journal accounts for the change of a state: by whole batches
that were all accepted. -/

namespace Steering

namespace Refresh

/-- The commit that an entry tells of. -/
def Entry.commit? : Entry → Option Commit
  | committed commit => some commit
  | _ => none

/-- The commits among entries, in their order. -/
def commits (entries : List Entry) : List Commit :=
  entries.filterMap Entry.commit?

/-- What the commits among entries were for, in their order. -/
def targets (entries : List Entry) : List (Option Nat) :=
  (commits entries).map Commit.target

@[simp] theorem commits_append (xs ys : List Entry) :
    commits (xs ++ ys) = commits xs ++ commits ys :=
  List.filterMap_append

@[simp] theorem map_snd_at (moment : Nat) (entries : List Entry) :
    (entries.map ((moment, ·) : Entry → Nat × Entry)).map Prod.snd = entries := by
  simp [Function.comp_def]

theorem mem_commits {entries : List Entry} {commit : Commit} :
    commit ∈ commits entries ↔ .committed commit ∈ entries := by
  simp only [commits, List.mem_filterMap]
  constructor
  · rintro ⟨entry, member, found⟩
    cases entry with
    | committed _ => exact Option.some.inj found ▸ member
    | fetched _ => cases found
    | measured _ _ => cases found
    | refused _ _ => cases found
  · exact fun member => ⟨_, member, rfl⟩

@[simp] theorem targets_append (xs ys : List Entry) :
    targets (xs ++ ys) = targets xs ++ targets ys := by
  simp [targets]

/-- The commits in a journal, each with its moment. -/
def datedCommits (journal : List (Nat × Entry)) : List (Nat × Commit) :=
  journal.filterMap fun (moment, entry) => entry.commit?.map (moment, ·)

@[simp] theorem datedCommits_append (before after : List (Nat × Entry)) :
    datedCommits (before ++ after) = datedCommits before ++ datedCommits after :=
  List.filterMap_append

/-- What is done at one moment is committed at this moment. -/
@[simp] theorem datedCommits_at (moment : Nat) (entries : List Entry) :
    datedCommits (entries.map (moment, ·)) = (commits entries).map (moment, ·) := by
  rw [datedCommits, commits, List.filterMap_map, List.map_filterMap]
  rfl

theorem map_snd_datedCommits (journal : List (Nat × Entry)) :
    (datedCommits journal).map Prod.snd = commits (journal.map Prod.snd) := by
  rw [datedCommits, commits, List.map_filterMap, List.filterMap_map]
  congr 1
  funext dated
  simp [Function.comp_def]

variable (t : Responder) (heard : List Arrival) (seen : List (Nat × Entry)) (plan : Plan)

/-- A commit holds the complete result of one status phase, or of one pass of a region. -/
def WholeBatch : Commit → Prop
  | .status statuses => ∃ began, StatusBatch t heard seen plan began statuses
  | .latency region latencies => region < plan.regionCount ∧
      ∃ began, LatencyBatch t heard seen plan region began latencies

/-- Entries account for the change of a state: no commit among them was refused, each of them holds
a whole batch, and together they make the one state of the other. -/
structure Accounted (store : Store) (entries : List Entry) (next : Store) : Prop where
  replay : next = store.replay (commits entries)
  notRefused : ∀ commit fault, .refused commit fault ∉ entries
  whole : ∀ commit, .committed commit ∈ entries → WholeBatch t heard seen plan commit

variable {t heard seen plan} {store next : Store}

/-- A plan fits a state when they count the same PoPs and regions. -/
structure Plan.Fits (plan : Plan) (store : Store) : Prop where
  endpoints : plan.endpoints.length = plan.addresses.length
  shaped : store.Shaped plan.addresses.length plan.regionCount

theorem Plan.Fits.replay (fits : plan.Fits store) (commits : List Commit) :
    plan.Fits (store.replay commits) :=
  ⟨fits.endpoints, fits.shaped.replay commits⟩

theorem WholeBatch.mono {moreHeard : List Arrival} {moreSeen : List (Nat × Entry)}
    (hears : heard ⊆ moreHeard) (sees : seen ⊆ moreSeen) {commit : Commit}
    (whole : WholeBatch t heard seen plan commit) :
    WholeBatch t moreHeard moreSeen plan commit := by
  cases commit with
  | status statuses =>
    obtain ⟨began, batch⟩ := whole
    exact ⟨began, batch.mono hears sees⟩
  | latency region latencies =>
    obtain ⟨known, began, last, batch⟩ := whole
    exact ⟨known, began, last, batch.mono hears sees⟩

/-- A whole batch has one entry per PoP. -/
theorem WholeBatch.fits (endpoints : plan.endpoints.length = plan.addresses.length)
    {commit : Commit} (whole : WholeBatch t heard seen plan commit) :
    commit.Fits plan.addresses.length plan.regionCount := by
  cases commit with
  | status statuses =>
    obtain ⟨began, batch⟩ := whole
    exact batch.length
  | latency region latencies =>
    obtain ⟨known, began, last, batch⟩ := whole
    exact ⟨batch.length_eq.trans endpoints, known⟩

theorem Accounted.mono {moreHeard : List Arrival} {moreSeen : List (Nat × Entry)}
    (hears : heard ⊆ moreHeard) (sees : seen ⊆ moreSeen) {entries : List Entry}
    (accounted : Accounted t heard seen plan store entries next) :
    Accounted t moreHeard moreSeen plan store entries next where
  replay := accounted.replay
  notRefused := accounted.notRefused
  whole commit member := (accounted.whole commit member).mono hears sees

/-- Whether an entry tells of a fetch or a measurement. -/
def Entry.isCall : Entry → Bool
  | fetched _ => true
  | measured _ _ => true
  | _ => false

theorem commits_of_calls {entries : List Entry} (calls : ∀ entry ∈ entries, entry.isCall = true) :
    commits entries = [] := by
  apply List.eq_nil_iff_forall_not_mem.mpr
  intro commit member
  exact Bool.noConfusion (calls _ (mem_commits.mp member))

/-- Calls account for a state that stays as it is. -/
theorem Accounted.of_calls {entries : List Entry}
    (calls : ∀ entry ∈ entries, entry.isCall = true) :
    Accounted t heard seen plan store entries store where
  replay := by rw [commits_of_calls calls, Store.replay_nil]
  notRefused _ _ member := Bool.noConfusion (calls _ member)
  whole _ member := Bool.noConfusion (calls _ member)

theorem Accounted.append {last : Store} {before after : List Entry}
    (first : Accounted t heard seen plan store before next)
    (second : Accounted t heard seen plan next after last) :
    Accounted t heard seen plan store (before ++ after) last where
  replay := by
    rw [second.replay, first.replay, commits_append, Store.replay_append]
  notRefused commit fault member := by
    rcases List.mem_append.mp member with early | late
    · exact first.notRefused commit fault early
    · exact second.notRefused commit fault late
  whole commit member := by
    rcases List.mem_append.mp member with early | late
    · exact first.whole commit early
    · exact second.whole commit late

/-- A whole batch is committed. -/
theorem tryCommit_whole (fits : plan.Fits store) {commit : Commit} (whole : WholeBatch t heard seen plan commit) :
    tryCommit store commit = (.committed commit, store.offer commit) ∧
      Accounted t heard seen plan store [.committed commit] (store.offer commit) := by
  have made := fits.shaped.commit_fits (whole.fits fits.endpoints)
  refine ⟨by rw [tryCommit, made], rfl, ?_, ?_⟩
  · intro other fault member
    cases List.mem_singleton.mp member
  · intro other member
    cases List.mem_singleton.mp member
    exact whole

end Refresh

end Steering
