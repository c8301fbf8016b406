import Steering.Proofs.CrashLook
/-! How the calls of a phase end: at the look that comes to them when they are due. What is made of the
outcome stays in the phase until the phase commits it. -/

namespace Steering.Refresh

/-- A call that has ended, by the place of its PoP, and its outcome. -/
inductive CallEnd where
  | fetch (place : Nat) (outcome : Outcome FetchFailure PopStatus)
  | measurement (region place : Nat) (outcome : Outcome MeasureFailure Binary64)

/-- What the commit is for that the outcome of a call goes into. -/
def CallEnd.target : CallEnd → Option Nat
  | fetch _ _ => none
  | measurement region _ _ => some region

/-- A commit holds what is made of the outcome of a call, at the place of its PoP. -/
inductive CallEnd.In : CallEnd → Commit → Prop
  | record {place : Nat} {outcome : Outcome FetchFailure PopStatus} {status : PopStatus}
      {statuses : List PopStatus} (record : recordOf outcome = some status)
      (found : statuses[place]? = some status) : In (.fetch place outcome) (.status statuses)
  | latency {region place : Nat} {outcome : Outcome MeasureFailure Binary64} {latency : Binary64}
      {latencies : List Binary64} (accepted : latencyOf outcome = some latency)
      (found : latencies[place]? = some latency) :
      In (.measurement region place outcome) (.latency region latencies)

/-- The commit that an entry tells of, also of one that was refused. -/
def Entry.tried? : Entry → Option Commit
  | committed commit => some commit
  | refused commit _ => some commit
  | _ => none

/-- The commits that were tried among entries, in their order. -/
def tried (entries : List Entry) : List Commit :=
  entries.filterMap Entry.tried?

@[simp] theorem tried_append (xs ys : List Entry) : tried (xs ++ ys) = tried xs ++ tried ys :=
  List.filterMap_append

theorem tried_of_calls {entries : List Entry} (calls : ∀ entry ∈ entries, entry.isCall = true) :
    tried entries = [] := by
  apply List.filterMap_eq_nil_iff.mpr
  intro entry member
  cases entry with
  | fetched address => rfl
  | measured region endpoint => rfl
  | committed commit => cases calls _ member
  | refused commit fault => cases calls _ member

theorem tried_tryCommit (store : Store) (commit : Commit) :
    tried [(tryCommit store commit).1] = [commit] := by
  unfold tryCommit
  cases store.commit commit <;> rfl

/-- Entries bring the outcome of a call as far as they can: what is tried for its target holds the
outcome, and unless something is, it is kept. -/
structure CallEnd.Delivers (ended : CallEnd) (entries : List Entry) (kept : Prop) : Prop where
  whole : ∀ commit ∈ tried entries, commit.target = ended.target → ended.In commit
  going : (∃ commit ∈ tried entries, commit.target = ended.target) ∨ kept

variable {t : Responder} {plan : Plan} {now deadline region place : Nat}

theorem CallEnd.Delivers.imp {ended : CallEnd} {entries : List Entry} {kept keptToo : Prop}
    (delivers : ended.Delivers entries kept) (implies : kept → keptToo) :
    ended.Delivers entries keptToo :=
  ⟨delivers.whole, delivers.going.imp_right implies⟩

theorem CallEnd.Delivers.of_kept {ended : CallEnd} {entries : List Entry} {kept : Prop}
    (nothing : ∀ commit ∈ tried entries, commit.target ≠ ended.target) (keeps : kept) :
    ended.Delivers entries kept :=
  ⟨fun commit member same => absurd same (nothing commit member), .inr keeps⟩

theorem CallEnd.Delivers.of_tried_nil {ended : CallEnd} {entries : List Entry} {kept : Prop}
    (nothing : tried entries = []) (keeps : kept) : ended.Delivers entries kept := by
  refine .of_kept ?_ keeps
  rw [nothing]
  exact List.forall_mem_nil _

/-- A commit that holds the outcome is all that is brought. -/
theorem CallEnd.Delivers.of_tried {ended : CallEnd} {entries : List Entry} {commit : Commit}
    {kept : Prop} (once : tried entries = [commit]) (same : commit.target = ended.target)
    (holds : ended.In commit) : ended.Delivers entries kept where
  whole other member _ := by
    rw [once] at member
    cases List.mem_singleton.mp member
    exact holds
  going := by
    rw [once]
    exact .inl ⟨commit, List.mem_singleton_self _, same⟩

/-- Entries before or after that try nothing for the target change nothing. -/
theorem CallEnd.Delivers.after {ended : CallEnd} {before entries : List Entry} {kept : Prop}
    (nothing : ∀ commit ∈ tried before, commit.target ≠ ended.target)
    (delivers : ended.Delivers entries kept) : ended.Delivers (before ++ entries) kept where
  whole commit member same := by
    rw [tried_append] at member
    rcases List.mem_append.mp member with early | late
    · exact absurd same (nothing commit early)
    · exact delivers.whole commit late same
  going := by
    rw [tried_append]
    exact delivers.going.imp_left fun ⟨commit, member, same⟩ =>
      ⟨commit, List.mem_append_right _ member, same⟩

theorem CallEnd.Delivers.before {ended : CallEnd} {entries later : List Entry} {kept : Prop}
    (delivers : ended.Delivers entries kept)
    (nothing : ∀ commit ∈ tried later, commit.target ≠ ended.target) :
    ended.Delivers (entries ++ later) kept where
  whole commit member same := by
    rw [tried_append] at member
    rcases List.mem_append.mp member with early | late
    · exact delivers.whole commit early same
    · exact absurd same (nothing commit late)
  going := by
    rw [tried_append]
    exact delivers.going.imp_left fun ⟨commit, member, same⟩ =>
      ⟨commit, List.mem_append_left _ member, same⟩

/-! ## Status phases -/

variable (t now deadline) in
/-- A look at fetches ends the one at a place with an outcome. -/
def SlotsEndAt (slots : List (Net.Ipv4 × Slot)) (place : Nat)
    (outcome : Outcome FetchFailure PopStatus) : Prop :=
  ∃ address slot call, slots[place]? = some (address, slot) ∧
    slot.call? t now deadline place address = some call ∧ call.due ≤ now ∧ call.outcome = outcome

/-- Fetches keep the outcome of the one at a place. -/
def SlotsKeep (slots : List (Net.Ipv4 × Slot)) (place : Nat)
    (outcome : Outcome FetchFailure PopStatus) : Prop :=
  ∃ address status, slots[place]? = some (address, .done status) ∧ recordOf outcome = some status

theorem Slot.poll_of_due {address : Net.Ipv4} {slot : Slot} {call : Call FetchFailure PopStatus}
    (its : slot.call? t now deadline place address = some call) (due : call.due ≤ now) :
    (slot.poll t now deadline place address).2 = (recordOf call.outcome).map .done := by
  cases slot with
  | fresh =>
    cases its
    exact if_neg (Nat.not_lt.mpr due)
  | waiting call =>
    cases its
    exact if_neg (Nat.not_lt.mpr due)
  | done status => cases its

theorem getElem?_pollSlots {first : Nat} {slots after : List (Net.Ipv4 × Slot)}
    {entries : List Entry} (result : pollSlots t now deadline first slots = (entries, some after))
    {address : Net.Ipv4} {slot : Slot} (found : slots[place]? = some (address, slot)) :
    ∃ left, (slot.poll t now deadline (first + place) address).2 = some left ∧
      after[place]? = some (address, left) := by
  induction slots generalizing first place entries after with
  | nil => cases found
  | cons head rest ih =>
    obtain ⟨firstAddress, firstSlot⟩ := head
    simp only [pollSlots] at result
    split at result
    · cases result
    · rename_i calls settled polled
      cases others : pollSlots t now deadline (first + 1) rest with
      | mk more left =>
      simp only [others, Prod.mk.injEq, Option.map_eq_some_iff] at result
      obtain ⟨-, remaining, rfl, rfl⟩ := result
      cases place with
      | zero =>
        cases found
        exact ⟨settled, by rw [Nat.add_zero, polled], rfl⟩
      | succ place =>
        rw [List.getElem?_cons_succ] at found ⊢
        obtain ⟨left, polled, stays⟩ := ih others found
        rw [Nat.add_right_comm] at polled
        exact ⟨left, polled, stays⟩

/-- Fetches that are looked at keep the outcome that one of them ends with. -/
theorem slotsKeep_pollSlots {slots after : List (Net.Ipv4 × Slot)} {entries : List Entry}
    (result : pollSlots t now deadline 0 slots = (entries, some after))
    {outcome : Outcome FetchFailure PopStatus}
    (ends : SlotsEndAt t now deadline slots place outcome ∨ SlotsKeep slots place outcome) :
    SlotsKeep after place outcome := by
  rcases ends with ⟨address, slot, call, found, its, due, rfl⟩ | ⟨address, status, found, record⟩
  · obtain ⟨left, polled, stays⟩ := getElem?_pollSlots result found
    rw [Nat.zero_add, Slot.poll_of_due its due] at polled
    obtain ⟨status, record, rfl⟩ := Option.map_eq_some_iff.mp polled
    exact ⟨address, status, stays, record⟩
  · obtain ⟨left, polled, stays⟩ := getElem?_pollSlots result found
    cases polled
    exact ⟨address, status, stays, record⟩

/-- When all fetches are done, the outcome of one is in the records of all. -/
theorem SlotsKeep.in_statuses {slots : List (Net.Ipv4 × Slot)}
    {outcome : Outcome FetchFailure PopStatus} (keeps : SlotsKeep slots place outcome)
    {statuses : List PopStatus} (all : statuses? slots = some statuses) :
    (CallEnd.fetch place outcome).In (.status statuses) := by
  obtain ⟨address, status, found, record⟩ := keeps
  have same := congrArg (·[place]?) (statuses?_eq_some_iff.mp all)
  simp only [List.getElem?_map, found, Option.map_some] at same
  obtain ⟨other, its, done⟩ := Option.map_eq_some_iff.mp same.symm
  cases done
  exact .record record its

/-! ## Latency phases -/

variable (t now deadline region) in
/-- Measuring PoPs one after another, the first of them at some place, ends the measurement at a place
with an outcome. -/
inductive MeasureEnds (outcome : Outcome MeasureFailure Binary64) (place : Nat) :
    Nat → List String → Prop
  | here {endpoint : String} {remaining : List String}
      (due : ((t.measure now region place endpoint).call .deadlineExceeded now deadline).due ≤ now)
      (its : ((t.measure now region place endpoint).call .deadlineExceeded now deadline).outcome =
        outcome) : MeasureEnds outcome place place (endpoint :: remaining)
  | later {first : Nat} {endpoint : String} {remaining : List String}
      (ends : ((t.measure now region first endpoint).call .deadlineExceeded now deadline).Ends now)
      (next : MeasureEnds outcome place (first + 1) remaining) :
      MeasureEnds outcome place first (endpoint :: remaining)

variable (t now deadline region) in
/-- A look at the measurements of a region ends the one at a place with an outcome. -/
inductive Pass.EndsAt (endpoints : List String) (place : Nat)
    (outcome : Outcome MeasureFailure Binary64) : Pass → Prop
  | begins (ends : MeasureEnds t now deadline region outcome place 0 endpoints) :
      EndsAt endpoints place outcome .fresh
  | here {latencies : List Binary64} {call : Call MeasureFailure Binary64}
      {remaining : List String} (first : latencies.length = place) (due : call.due ≤ now)
      (its : call.outcome = outcome) :
      EndsAt endpoints place outcome (.waiting latencies call remaining)
  | later {latencies : List Binary64} {call : Call MeasureFailure Binary64}
      {remaining : List String} (ends : call.Ends now)
      (next : MeasureEnds t now deadline region outcome place (latencies.length + 1) remaining) :
      EndsAt endpoints place outcome (.waiting latencies call remaining)

/-- The latencies that the measurements of a region have given so far. -/
def Pass.latencies : Pass → List Binary64
  | fresh => []
  | waiting latencies _ _ => latencies
  | finished latencies => latencies

/-- The measurements of a region keep the outcome of the one at a place. -/
def Pass.Keeps (pass : Pass) (place : Nat) (outcome : Outcome MeasureFailure Binary64) : Prop :=
  ∃ latency, latencyOf outcome = some latency ∧ pass.latencies[place]? = some latency

/-- Measuring on changes nothing of what has been measured. -/
theorem Pass.getElem?_measure {latencies : List Binary64} {remaining : List String}
    {entries : List Entry} {after : Pass} {latency : Binary64}
    (result : measure t region now deadline latencies remaining = (entries, some after))
    (found : latencies[place]? = some latency) : after.latencies[place]? = some latency := by
  induction remaining generalizing latencies entries with
  | nil =>
    cases result
    exact found
  | cons endpoint remaining ih =>
    simp only [measure] at result
    split at result
    · cases result
      exact found
    · split at result
      · cases result
      · simp only [Prod.mk.injEq] at result
        refine ih (Prod.ext rfl result.2) ?_
        rw [List.getElem?_append_left (List.getElem?_eq_some_iff.mp found).1]
        exact found

theorem Pass.keeps_measure {latencies : List Binary64} {remaining : List String}
    {entries : List Entry} {after : Pass} {outcome : Outcome MeasureFailure Binary64}
    (result : measure t region now deadline latencies remaining = (entries, some after))
    (ends : MeasureEnds t now deadline region outcome place latencies.length remaining) :
    after.Keeps place outcome := by
  generalize first : latencies.length = start at ends
  induction ends generalizing latencies entries with
  | here due its =>
    subst first
    simp only [measure, if_neg (Nat.not_lt.mpr due), its] at result
    split at result
    · cases result
    · rename_i latency accepted
      simp only [Prod.mk.injEq] at result
      refine ⟨latency, accepted, getElem?_measure (Prod.ext rfl result.2) ?_⟩
      rw [List.getElem?_concat_length]
  | later ends next ih =>
    subst first
    simp only [measure, if_neg (Nat.not_lt.mpr ends.1)] at result
    split at result
    · cases result
    · simp only [Prod.mk.injEq] at result
      exact ih (Prod.ext rfl result.2) List.length_append

/-- The measurements of a region that are looked at keep the outcome that one of them ends with. -/
theorem Pass.keeps_poll {endpoints : List String} {pass after : Pass} {entries : List Entry}
    (result : pass.poll t endpoints region now deadline = (entries, some after))
    {outcome : Outcome MeasureFailure Binary64}
    (ends : pass.EndsAt t now deadline region endpoints place outcome ∨ pass.Keeps place outcome) :
    after.Keeps place outcome := by
  rcases ends with ends | ⟨latency, accepted, found⟩
  · cases ends with
    | begins ends => exact keeps_measure result ends
    | here first due its =>
      simp only [poll, if_neg (Nat.not_lt.mpr due), its] at result
      split at result
      · cases result
      · rename_i latency accepted
        refine ⟨latency, accepted, getElem?_measure result ?_⟩
        rw [← first, List.getElem?_concat_length]
    | later ends next =>
      simp only [poll, if_neg (Nat.not_lt.mpr ends.1)] at result
      split at result
      · cases result
      · exact keeps_measure result (by simpa using next)
  · refine ⟨latency, accepted, ?_⟩
    cases pass with
    | fresh => cases found
    | waiting latencies call remaining =>
      simp only [poll] at result
      split at result
      · cases result
        exact found
      · split at result
        · cases result
        · refine getElem?_measure result ?_
          have inside : place < latencies.length := (List.getElem?_eq_some_iff.mp found).1
          rw [List.getElem?_append_left inside]
          exact found
    | finished latencies =>
      cases result
      exact found

/-- A region tries to commit when its measurements become complete, and only then. -/
theorem tried_commitPass (store : Store) (region : Nat) (before after : Pass) :
    tried (commitPass store region before after).1 =
      if before.isFinished = false ∧ after.isFinished = true then
        [.latency region after.latencies]
      else [] := by
  cases before with
  | finished latencies => rfl
  | fresh =>
    cases after with
    | finished latencies => exact tried_tryCommit store (.latency region latencies)
    | fresh => rfl
    | waiting latencies call remaining => rfl
  | waiting latencies call remaining =>
    cases after with
    | finished latencies => exact tried_tryCommit store (.latency region latencies)
    | fresh => rfl
    | waiting latencies call remaining => rfl

theorem target_of_commitPass {store : Store} {before after : Pass} {commit : Commit}
    (member : commit ∈ tried (commitPass store region before after).1) :
    commit.target = some region := by
  rw [tried_commitPass] at member
  split at member
  · cases List.mem_singleton.mp member
    rfl
  · cases member

/-- What is tried when the regions from one on are looked at is for these regions. -/
theorem target_of_pollPasses {endpoints : List String} {passes left : List Pass}
    {store next : Store} {entries : List Entry} {alive : Bool}
    (result : pollPasses t endpoints now deadline region passes store =
      (entries, next, left, alive)) :
    ∀ commit ∈ tried entries, ∃ other, region ≤ other ∧ commit.target = some other := by
  induction passes generalizing region store entries next left alive with
  | nil =>
    cases result
    exact List.forall_mem_nil _
  | cons pass rest ih =>
    have calls := tried_of_calls (Pass.poll_calls t endpoints region now deadline pass)
    simp only [pollPasses] at result
    cases polled : pass.poll t endpoints region now deadline with
    | mk measures stands =>
    rw [polled] at calls
    cases stands with
    | none =>
      simp only [polled] at result
      cases result
      rw [calls]
      exact List.forall_mem_nil _
    | some after =>
      cases others : pollPasses t endpoints now deadline (region + 1) rest
        (commitPass store region pass after).2 with
      | mk more last =>
      simp only [polled, others] at result
      cases result
      intro commit member
      rw [tried_append, tried_append, calls, List.nil_append] at member
      rcases List.mem_append.mp member with own | later
      · exact ⟨region, Nat.le_refl _, target_of_commitPass own⟩
      · obtain ⟨other, above, its⟩ := ih others commit later
        exact ⟨other, Nat.le_of_succ_le above, its⟩

/-- The measurements of a region keep the outcome of the one at a place, and have not been committed
yet. -/
def PassesKeep (passes : List Pass) (region place : Nat)
    (outcome : Outcome MeasureFailure Binary64) : Prop :=
  ∃ pass, passes[region]? = some pass ∧ pass.isFinished = false ∧ pass.Keeps place outcome

theorem Pass.EndsAt.unfinished {endpoints : List String} {pass : Pass}
    {outcome : Outcome MeasureFailure Binary64}
    (ends : pass.EndsAt t now deadline region endpoints place outcome) :
    pass.isFinished = false := by
  cases ends <;> rfl

/-- The measurements of a region that become complete at a look are committed with the outcome that they
keep, and others keep it. -/
theorem delivers_pollPasses {endpoints : List String} {passes left : List Pass}
    {store next : Store} {entries : List Entry} {alive : Bool}
    (result : pollPasses t endpoints now deadline region passes store =
      (entries, next, left, alive)) {index : Nat} {pass : Pass}
    (found : passes[index]? = some pass) (unfinished : pass.isFinished = false)
    {outcome : Outcome MeasureFailure Binary64}
    (ends : pass.EndsAt t now deadline (region + index) endpoints place outcome ∨
      pass.Keeps place outcome) :
    (CallEnd.measurement (region + index) place outcome).Delivers entries
      (alive = true → PassesKeep left index place outcome) := by
  induction passes generalizing region index store entries next left alive with
  | nil => cases found
  | cons head rest ih =>
    have calls := tried_of_calls (Pass.poll_calls t endpoints region now deadline head)
    simp only [pollPasses] at result
    cases polled : head.poll t endpoints region now deadline with
    | mk measures stands =>
    rw [polled] at calls
    cases stands with
    | none =>
      simp only [polled] at result
      cases result
      exact .of_tried_nil calls Bool.noConfusion
    | some after =>
      cases others : pollPasses t endpoints now deadline (region + 1) rest
        (commitPass store region head after).2 with
      | mk more last =>
      obtain ⟨final, remaining, all⟩ := last
      simp only [polled, others] at result
      cases result
      cases index with
      | zero =>
        cases found
        have keeps := Pass.keeps_poll polled ends
        have elsewhere : ∀ commit ∈ tried more,
            commit.target ≠ (CallEnd.measurement (region + 0) place outcome).target := by
          intro commit member same
          obtain ⟨other, above, its⟩ := target_of_pollPasses others commit member
          cases its.symm.trans same
          exact Nat.not_succ_le_self _ above
        refine CallEnd.Delivers.before ?_ elsewhere
        have own := tried_commitPass store region pass after
        cases finished : after.isFinished with
        | false =>
          rw [finished, if_neg (by simp)] at own
          have nothing : tried (measures ++ (commitPass store region pass after).1) = [] := by
            rw [tried_append, calls, own, List.nil_append]
          exact .of_tried_nil nothing fun _ => ⟨after, rfl, finished, keeps⟩
        | true =>
          rw [finished, unfinished, if_pos ⟨rfl, rfl⟩] at own
          obtain ⟨latency, accepted, its⟩ := keeps
          have once : tried (measures ++ (commitPass store region pass after).1) =
              [.latency region after.latencies] := by rw [tried_append, calls, own, List.nil_append]
          exact .of_tried once rfl (.latency accepted its)
      | succ index =>
        rw [List.getElem?_cons_succ] at found
        have shift : region + (index + 1) = region + 1 + index := by omega
        rw [shift] at ends ⊢
        refine (ih others found ends).after ?_
        intro commit member same
        rw [tried_append, calls, List.nil_append] at member
        have regions := Option.some.inj ((target_of_commitPass member).symm.trans same)
        omega

/-! ## Phases -/

variable (t plan now) in
/-- A look at a phase ends a call. -/
def Phase.EndsCall : Phase → CallEnd → Prop
  | status deadline slots, .fetch place outcome => SlotsEndAt t now deadline slots place outcome
  | latency deadline passes, .measurement region place outcome =>
    ∃ pass, passes[region]? = some pass ∧
      pass.EndsAt t now deadline region plan.endpoints place outcome
  | _, _ => False

/-- A phase keeps what is made of the outcome of a call that has ended. -/
def Phase.Keeps : Phase → CallEnd → Prop
  | status _ slots, .fetch place outcome => SlotsKeep slots place outcome
  | latency _ passes, .measurement region place outcome => PassesKeep passes region place outcome
  | _, _ => False

/-- What is tried in a latency phase is for a region. -/
theorem Phase.target_of_latency {passes : List Pass} {store next : Store} {entries : List Entry}
    {progress : Progress}
    (result : (latency deadline passes).poll t plan now store = (entries, next, progress)) :
    ∀ commit ∈ tried entries, commit.target ≠ none := by
  simp only [poll, Prod.mk.injEq] at result
  obtain ⟨rfl, -, -⟩ := result
  intro commit member nothing
  obtain ⟨other, -, its⟩ := target_of_pollPasses (Prod.eta _).symm commit member
  rw [nothing] at its
  cases its

/-- What is tried in a status phase is for no region. -/
theorem Phase.target_of_status {slots : List (Net.Ipv4 × Slot)} {store next : Store}
    {entries : List Entry} {progress : Progress}
    (result : (status deadline slots).poll t plan now store = (entries, next, progress)) :
    ∀ commit ∈ tried entries, commit.target = none := by
  have calls := tried_of_calls (pollSlots_calls t now deadline 0 slots)
  cases polled : pollSlots t now deadline 0 slots with
  | mk made stands =>
  rw [polled] at calls
  simp only [poll, polled] at result
  cases stands with
  | none =>
    cases result
    rw [calls]
    exact List.forall_mem_nil _
  | some after =>
    cases all : statuses? after with
    | none =>
      simp only [all] at result
      cases result
      rw [calls]
      exact List.forall_mem_nil _
    | some statuses =>
      simp only [all] at result
      cases result
      intro commit member
      rw [tried_append, calls, tried_tryCommit] at member
      cases List.mem_singleton.mp member
      rfl

/-- A look at a phase brings the outcome of a call that it ends, or that the phase keeps, into what the
phase tries to commit, or the phase keeps it. -/
theorem Phase.delivers_poll {phase : Phase} {ended : CallEnd} {store next : Store}
    {entries : List Entry} {progress : Progress}
    (result : phase.poll t plan now store = (entries, next, progress))
    (ends : phase.EndsCall t plan now ended ∨ phase.Keeps ended) :
    ended.Delivers entries
      ((∃ after, progress = .waiting after ∧ after.Keeps ended) ∨
        ∃ after, progress = .crashed after) := by
  cases phase with
  | status deadline slots =>
    cases ended with
    | measurement region place outcome => rcases ends with ends | keeps <;> contradiction
    | fetch place outcome =>
      have calls := tried_of_calls (pollSlots_calls t now deadline 0 slots)
      cases polled : pollSlots t now deadline 0 slots with
      | mk made stands =>
      rw [polled] at calls
      simp only [poll, polled] at result
      cases stands with
      | none =>
        cases result
        exact .of_tried_nil calls (.inr ⟨_, rfl⟩)
      | some after =>
        have keeps := slotsKeep_pollSlots polled ends
        cases all : statuses? after with
        | none =>
          simp only [all] at result
          cases result
          exact .of_tried_nil calls (.inl ⟨_, rfl, keeps⟩)
        | some statuses =>
          simp only [all] at result
          cases result
          have once : tried (made ++ [(tryCommit store (.status statuses)).1]) =
              [.status statuses] := by rw [tried_append, calls, tried_tryCommit, List.nil_append]
          exact .of_tried once rfl (keeps.in_statuses all)
  | latency deadline passes =>
    cases ended with
    | fetch place outcome => rcases ends with ends | keeps <;> contradiction
    | measurement region place outcome =>
      obtain ⟨pass, found, unfinished, endsHere⟩ : ∃ pass, passes[region]? = some pass ∧
          pass.isFinished = false ∧
          (pass.EndsAt t now deadline region plan.endpoints place outcome ∨
            pass.Keeps place outcome) := by
        rcases ends with ⟨pass, found, ends⟩ | ⟨pass, found, unfinished, keeps⟩
        · exact ⟨pass, found, ends.unfinished, .inl ends⟩
        · exact ⟨pass, found, unfinished, .inr keeps⟩
      cases polled : pollPasses t plan.endpoints now deadline 0 passes store with
      | mk made last =>
      obtain ⟨final, left, alive⟩ := last
      simp only [poll, polled] at result
      cases result
      have delivers := delivers_pollPasses polled found unfinished (by rwa [Nat.zero_add])
      rw [Nat.zero_add] at delivers
      refine delivers.imp fun keeps => ?_
      cases alive with
      | false => exact .inr ⟨_, rfl⟩
      | true =>
        obtain ⟨after, there, unfinishedThen, keepsThen⟩ := keeps rfl
        have some_left : left.all Pass.isFinished = false := by
          apply List.all_eq_false.mpr
          exact ⟨after, List.mem_of_getElem? there, by simp [unfinishedThen]⟩
        rw [some_left]
        exact .inl ⟨_, rfl, after, there, unfinishedThen, keepsThen⟩

end Steering.Refresh
