import Steering.Proofs.CourseRun
import Steering.Proofs.PhaseLook
import Steering.Proofs.ReplyScript
/-! A latency phase whose replies are known. Every region works through its own replies, commits
when the last of them has come or has been given up, and is not influenced by any other region. -/

namespace Steering.Refresh

variable {t : Responder} {plan : Plan} {began now : Nat} {script : Nat → Replies}

/-! ## One region -/

section Region

variable {replies : Replies} {allowed region : Nat} {endpoints : List String}

variable (replies allowed began endpoints) in
/-- Where the measurements of a region stand now, after all that was due has been looked at. -/
inductive Pass.OnTime (now : Nat) : Pass → Prop
  | waiting {place : Nat} (inside : place < endpoints.length)
      (since : began + passed replies allowed place ≤ now)
      (ahead : now < began + passed replies allowed (place + 1)) :
      OnTime now (.waiting (scriptedLatencies replies allowed place)
        (scriptedCall replies allowed began place) (endpoints.drop (place + 1)))
  | finished (ended : began + passed replies allowed endpoints.length ≤ now) :
      OnTime now (.finished (scriptedLatencies replies allowed endpoints.length))

variable (replies allowed began endpoints) in
/-- Measurements that can be looked at now: they begin now, or they are where they stood some time
ago and nothing has been due since. -/
inductive Pass.InStep (now : Nat) : Pass → Prop
  | begins (same : now = began) : InStep now .fresh
  | goesOn {before : Nat} {pass : Pass}
      (onTime : pass.OnTime began replies allowed endpoints before) (later : before < now)
      (due : ∀ latencies call remaining, pass = .waiting latencies call remaining →
        now ≤ call.due) : InStep now pass

variable (t replies allowed began region endpoints) in
/-- The replies are given to the calls of a region, and no crash comes in time. -/
structure Answers : Prop where
  said : ∀ place endpoint, endpoints[place]? = some endpoint →
    t.measure (began + passed replies allowed place) region place endpoint = replies place
  alive : ∀ place < endpoints.length, Counts replies allowed place →
    (replies place).outcome ≠ .crash

theorem Pass.OnTime.isFinished_iff {pass : Pass}
    (onTime : pass.OnTime began replies allowed endpoints now) :
    pass.isFinished = true ↔ began + passed replies allowed endpoints.length ≤ now := by
  cases onTime with
  | finished ended => exact ⟨fun _ => ended, fun _ => rfl⟩
  | waiting inside since ahead =>
    have ends := @passed_succ_le replies allowed _ _ inside
    simp only [Pass.isFinished, Bool.false_eq_true, false_iff]
    omega

theorem Pass.InStep.isFinished_iff {pass : Pass}
    (inStep : pass.InStep began replies allowed endpoints now) :
    pass.isFinished = true ↔ began + passed replies allowed endpoints.length < now := by
  cases inStep with
  | begins same =>
    simp only [Pass.isFinished, Bool.false_eq_true, false_iff]
    omega
  | goesOn onTime later due =>
    cases onTime with
    | finished ended => exact ⟨fun _ => by omega, fun _ => rfl⟩
    | waiting inside since ahead =>
      have ends := @passed_succ_le replies allowed _ _ inside
      have inTime := due _ _ _ rfl
      simp only [scriptedCall_eq] at inTime
      simp only [Pass.isFinished, Bool.false_eq_true, false_iff]
      omega

variable (answers : Answers t began replies allowed region endpoints)
include answers

/-- A region that has come to a place when it can ask for it goes on to where it belongs. -/
theorem Pass.measure_onTime {place : Nat} (inside : place ≤ endpoints.length)
    (here : now = began + passed replies allowed place) :
    ∃ entries pass, Pass.measure t region now (began + allowed)
        (scriptedLatencies replies allowed place) (endpoints.drop place) = (entries, some pass) ∧
      pass.OnTime began replies allowed endpoints now := by
  induction remaining : endpoints.drop place generalizing place with
  | nil =>
    have whole : place = endpoints.length :=
      Nat.le_antisymm inside (List.drop_eq_nil_iff.mp remaining)
    subst whole
    exact ⟨[], _, rfl, .finished (Nat.le_of_eq here.symm)⟩
  | cons endpoint others ih =>
    have more : place < endpoints.length := by
      by_contra beyond
      rw [List.drop_of_length_le (Nat.le_of_not_lt beyond)] at remaining
      cases remaining
    have split := List.drop_eq_getElem_cons more
    rw [remaining] at split
    obtain ⟨first, rest⟩ := List.cons.inj split
    have reply : t.measure now region place endpoint = replies place :=
      here ▸ answers.said place endpoint (first ▸ List.getElem?_eq_getElem more)
    have call : (replies place).call .deadlineExceeded now (began + allowed) =
        scriptedCall replies allowed began place := by rw [scriptedCall, here]
    have due : (scriptedCall replies allowed began place).due =
        began + passed replies allowed (place + 1) := by rw [scriptedCall_eq]
    simp only [Pass.measure, scriptedLatencies_length, reply, call,
      latencyOf_scriptedCall (answers.alive place more)]
    by_cases waits : now < (scriptedCall replies allowed began place).due
    · rw [if_pos waits, rest]
      exact ⟨_, _, rfl, .waiting more (Nat.le_of_eq here.symm) (due ▸ waits)⟩
    · -- The call has ended at once, so no time has passed.
      have still : now = began + passed replies allowed (place + 1) := by
        have later := @passed_le_succ replies allowed place
        omega
      obtain ⟨entries, pass, measured, onTime⟩ := ih more still rest.symm
      rw [scriptedLatencies_succ] at measured
      rw [if_neg waits, measured]
      exact ⟨_, pass, rfl, onTime⟩

/-- A look leaves the measurements of a region where they belong. -/
theorem Pass.poll_onTime {pass : Pass}
    (inStep : pass.InStep began replies allowed endpoints now) :
    ∃ entries after, pass.poll t endpoints region now (began + allowed) = (entries, some after) ∧
      after.OnTime began replies allowed endpoints now := by
  cases inStep with
  | begins same => exact Pass.measure_onTime answers (Nat.zero_le _) same
  | goesOn onTime later due =>
    cases onTime with
    | finished ended => exact ⟨[], _, rfl, .finished (by omega)⟩
    | @waiting place inside since ahead =>
      have ends : (scriptedCall replies allowed began place).due =
          began + passed replies allowed (place + 1) := by rw [scriptedCall_eq]
      have inTime := due _ _ _ rfl
      simp only [Pass.poll, latencyOf_scriptedCall (answers.alive place inside)]
      by_cases waits : now < (scriptedCall replies allowed began place).due
      · rw [if_pos waits]
        exact ⟨[], _, rfl, .waiting inside (by omega) (ends ▸ waits)⟩
      · rw [if_neg waits, ← scriptedLatencies_succ]
        exact Pass.measure_onTime answers inside (by omega)

end Region

/-! ## All regions -/

variable (t plan began script) in
/-- The scripted replies are given to all calls of a phase. -/
def Scripted : Prop :=
  ∀ region < plan.regionCount,
    Answers t began (script region) plan.latencyTimeout region plan.endpoints

/-- Every script can be given in which no crash comes in time, also where PoPs share an endpoint. -/
theorem scripted_ofScript {statuses : StatusReplies}
    (alive : ∀ region < plan.regionCount, ∀ place < plan.endpoints.length,
      Counts (script region) plan.latencyTimeout place → (script region place).outcome ≠ .crash) :
    Scripted (.ofScript statuses script) plan began script :=
  fun region known => ⟨fun _ _ _ => rfl, alive region known⟩

variable (plan began script) in
/-- When a region commits. -/
def commitMoment (region : Nat) : Nat :=
  began + passed (script region) plan.latencyTimeout plan.endpoints.length

variable (plan script) in
/-- What a region commits. -/
def scriptedCommit (region : Nat) : Commit :=
  .latency region (scriptedLatencies (script region) plan.latencyTimeout plan.endpoints.length)

variable (plan began script now) in
/-- The measurements of the regions from one on, each of which can be looked at. -/
def AllInStep (region : Nat) (passes : List Pass) : Prop :=
  ∀ x ∈ passes.zipIdx region,
    x.1.InStep began (script x.2) plan.latencyTimeout plan.endpoints now

variable (plan began script now) in
/-- The measurements of the regions from one on, each of which is where it belongs. -/
def AllOnTime (region : Nat) (passes : List Pass) : Prop :=
  ∀ x ∈ passes.zipIdx region,
    x.1.OnTime began (script x.2) plan.latencyTimeout plan.endpoints now

theorem AllInStep.at {passes : List Pass} (inStep : AllInStep plan began now script 0 passes)
    {region : Nat} {pass : Pass} (found : passes[region]? = some pass) :
    pass.InStep began (script region) plan.latencyTimeout plan.endpoints now :=
  inStep (pass, region) (List.mem_zipIdx_iff_getElem?.mpr found)

theorem AllOnTime.at {passes : List Pass} (placed : AllOnTime plan began now script 0 passes)
    {region : Nat} {pass : Pass} (found : passes[region]? = some pass) :
    pass.OnTime began (script region) plan.latencyTimeout plan.endpoints now :=
  placed (pass, region) (List.mem_zipIdx_iff_getElem?.mpr found)

theorem scriptedCommit_fits {region : Nat} (known : region < plan.regionCount) :
    (scriptedCommit plan script region).Fits plan.endpoints.length plan.regionCount :=
  ⟨by simp [scriptedLatencies], known⟩

section Commits

variable {store : Store} {region : Nat} {pass after : Pass} {latencies : List Binary64}

theorem commitPass_of_finished (was : pass.isFinished = true) :
    commitPass store region pass after = ([], store) := by
  cases pass with
  | finished latencies => rfl
  | fresh => cases was
  | waiting latencies call remaining => cases was

theorem commitPass_of_waits (waits : after.isFinished = false) :
    commitPass store region pass after = ([], store) := by
  cases after with
  | finished latencies => cases waits
  | fresh => cases pass <;> rfl
  | waiting latencies call remaining => cases pass <;> rfl

theorem commitPass_of_ends (was : pass.isFinished = false) :
    commitPass store region pass (.finished latencies) =
      ([(tryCommit store (.latency region latencies)).1],
        (tryCommit store (.latency region latencies)).2) := by
  cases pass with
  | finished latencies => cases was
  | fresh => rfl
  | waiting latencies call remaining => rfl

end Commits

section Store

variable {store : Store} (fits : plan.Fits store)
include fits

variable (plan began now script store) in
/-- Some regions make their commits if it is their moment, and nothing is refused. -/
structure CommitsNow (regions : List Nat) (entries : List Entry) (next : Store) : Prop where
  replay : next = store.replay (commits entries)
  commits : commits entries = (regions.filter (commitMoment plan began script · = now)).map
    (scriptedCommit plan script)
  accepted : ∀ commit fault, .refused commit fault ∉ entries

omit fits in
theorem CommitsNow.append {next last : Store} {regions others : List Nat}
    {before after : List Entry} (first : CommitsNow plan began now script store regions before next)
    (second : CommitsNow plan began now script next others after last) :
    CommitsNow plan began now script store (regions ++ others) (before ++ after) last where
  replay := by rw [second.replay, first.replay, commits_append, Store.replay_append]
  commits := by
    rw [commits_append, first.commits, second.commits, List.filter_append, List.map_append]
  accepted commit fault member := by
    rcases List.mem_append.mp member with early | late
    · exact first.accepted commit fault early
    · exact second.accepted commit fault late

omit fits in
/-- No commits are made by calls. -/
theorem commitsNow_of_calls {entries : List Entry}
    (calls : ∀ entry ∈ entries, entry.isCall = true) :
    CommitsNow plan began now script store [] entries store where
  replay := by rw [commits_of_calls calls, Store.replay_nil]
  commits := commits_of_calls calls
  accepted _ _ member := Bool.noConfusion (calls _ member)

/-- A region commits at the look that is made at its moment. -/
theorem commitPass_onTime {region : Nat} (known : region < plan.regionCount) {pass after : Pass}
    (inStep : pass.InStep began (script region) plan.latencyTimeout plan.endpoints now)
    (onTime : after.OnTime began (script region) plan.latencyTimeout plan.endpoints now) :
    CommitsNow plan began now script store [region] (commitPass store region pass after).1
      (commitPass store region pass after).2 := by
  have before := inStep.isFinished_iff
  have ends := onTime.isFinished_iff
  change _ ↔ commitMoment plan began script region < now at before
  change _ ↔ commitMoment plan began script region ≤ now at ends
  have nothing (other : commitMoment plan began script region ≠ now) :
      CommitsNow plan began now script store [region] [] store :=
    ⟨rfl, by simp [commits, other], nofun⟩
  cases was : pass.isFinished with
  | true =>
    rw [commitPass_of_finished was]
    exact nothing (Nat.ne_of_lt (before.mp was))
  | false =>
    have still := mt before.mpr (Bool.eq_false_iff.mp was)
    cases onTime with
    | finished ended =>
      have here : commitMoment plan began script region = now :=
        Nat.le_antisymm (ends.mp rfl) (Nat.le_of_not_lt still)
      have made : tryCommit store (scriptedCommit plan script region) =
          (.committed (scriptedCommit plan script region),
            store.offer (scriptedCommit plan script region)) := by
        rw [tryCommit, fits.shaped.commit_fits (fits.endpoints ▸ scriptedCommit_fits known)]
      rw [scriptedCommit] at made
      rw [commitPass_of_ends was, made]
      exact ⟨rfl, by simp [commits, Entry.commit?, here, scriptedCommit], by simp⟩
    | waiting inside since ahead =>
      rw [commitPass_of_waits rfl]
      exact nothing (Nat.ne_of_gt (Nat.lt_of_not_le (mt ends.mpr Bool.false_ne_true)))

/-- A look at the regions makes the commits of those whose moment it is. -/
theorem pollPasses_onTime (scripted : Scripted t plan began script) {region : Nat}
    {passes : List Pass} (bound : region + passes.length ≤ plan.regionCount)
    (inStep : AllInStep plan began now script region passes) :
    ∃ entries next left,
      pollPasses t plan.endpoints now (began + plan.latencyTimeout) region passes store =
        (entries, next, left, true) ∧
      left.length = passes.length ∧ AllOnTime plan began now script region left ∧
      CommitsNow plan began now script store (List.range' region passes.length) entries next := by
  induction passes generalizing region store with
  | nil => exact ⟨[], store, [], rfl, rfl, nofun, rfl, rfl, nofun⟩
  | cons pass rest ih =>
    simp only [AllInStep, List.zipIdx_cons, List.forall_mem_cons] at inStep
    rw [List.length_cons] at bound
    have known : region < plan.regionCount := by omega
    obtain ⟨measures, after, polled, onTime⟩ := Pass.poll_onTime (scripted region known) inStep.1
    have calls := Pass.poll_calls t plan.endpoints region now (began + plan.latencyTimeout) pass
    rw [polled] at calls
    have own := commitPass_onTime fits known inStep.1 onTime
    obtain ⟨more, next, left, others, length, placed, later⟩ :=
      ih (own.replay ▸ fits.replay _) (by omega) inStep.2
    refine ⟨measures ++ (commitPass store region pass after).1 ++ more, next, after :: left, ?_,
      congrArg (· + 1) length, ?_, ?_⟩
    · simp only [pollPasses, polled, others]
    · simp only [AllOnTime, List.zipIdx_cons, List.forall_mem_cons]
      exact ⟨onTime, placed⟩
    · rw [List.length_cons, List.range'_succ]
      exact ((commitsNow_of_calls calls).append own).append later

end Store

/-! ## The whole phase -/

variable (plan began script) in
/-- The calls, by region and place, that have not ended at a moment. -/
def outstanding (moment : Nat) : Finset (Nat × Nat) :=
  (Finset.range plan.regionCount ×ˢ Finset.range plan.endpoints.length).filter fun call =>
    moment < began + passed (script call.1) plan.latencyTimeout (call.2 + 1)

section Left

variable {left : List Pass} (length : left.length = plan.regionCount)
  (placed : AllOnTime plan began now script 0 left)
include length placed

/-- When nothing is left to do, the moments of all regions have come. -/
theorem commitMoment_le_of_all (all : left.all Pass.isFinished = true) {region : Nat}
    (known : region < plan.regionCount) : commitMoment plan began script region ≤ now := by
  have bound : region < left.length := length ▸ known
  have onTime := placed.at (List.getElem?_eq_getElem bound)
  exact onTime.isFinished_iff.mp (List.all_eq_true.mp all _ (List.getElem_mem bound))

/-- What is left to do goes on at the moment that is due next, up to which nothing happens and at
which a call ends. -/
theorem next_due (deadline : Nat) (more : ¬ left.all Pass.isFinished = true) :
    ∃ due, (Phase.latency deadline left).dues.min? = some due ∧ now < due ∧
      AllInStep plan began due script 0 left ∧
      (∃ region < plan.regionCount, due ≤ commitMoment plan began script region) ∧
      (∀ region < plan.regionCount, commitMoment plan began script region ≤ now ∨
        due ≤ commitMoment plan began script region) ∧
      (outstanding plan began script due).card < (outstanding plan began script now).card := by
  have waits {due : Nat} (its : due ∈ (Phase.latency deadline left).dues) :
      ∃ region < plan.regionCount, ∃ place < plan.endpoints.length,
        due = began + passed (script region) plan.latencyTimeout (place + 1) ∧ now < due := by
    obtain ⟨pass, member, call⟩ := List.mem_filterMap.mp its
    obtain ⟨region, found⟩ := List.mem_iff_getElem?.mp member
    have onTime := placed.at found
    have known : region < plan.regionCount := length ▸ (List.getElem?_eq_some_iff.mp found).1
    cases onTime with
    | finished ended => cases call
    | @waiting place inside since ahead =>
      cases call
      rw [scriptedCall_eq]
      exact ⟨region, known, place, inside, rfl, ahead⟩
  cases next : (Phase.latency deadline left).dues.min? with
  | none =>
    have none := List.min?_eq_none_iff.mp next
    refine absurd (List.all_eq_true.mpr fun pass member => ?_) more
    obtain ⟨region, found⟩ := List.mem_iff_getElem?.mp member
    have onTime := placed.at found
    cases onTime with
    | finished ended => rfl
    | waiting inside since ahead =>
      have its := List.filterMap_eq_nil_iff.mp none _ member
      cases its
  | some due =>
    obtain ⟨least, lowest⟩ := List.min?_eq_some_iff.mp next
    obtain ⟨region, known, place, inside, here, later⟩ := waits least
    have inStep : AllInStep plan began due script 0 left := by
      intro x member
      refine .goesOn (placed x member) later fun latencies call remaining same => ?_
      have present : x.1 ∈ left := List.mem_of_getElem? (List.mem_zipIdx_iff_getElem?.mp member)
      exact lowest _ (List.mem_filterMap.mpr ⟨x.1, present, by rw [same]⟩)
    refine ⟨due, rfl, later, inStep, ⟨region, known, ?_⟩, fun other knownToo => ?_, ?_⟩
    · rw [here]
      exact Nat.add_le_add_left (passed_succ_le inside) began
    · have bound : other < left.length := length ▸ knownToo
      have found := List.getElem?_eq_getElem bound
      have same := (placed.at found).isFinished_iff.symm.trans (inStep.at found).isFinished_iff
      rw [commitMoment]
      omega
    · -- The call that is due now has not ended before.
      refine Finset.card_lt_card (Finset.ssubset_iff_subset_ne.mpr
        ⟨fun call member => ?_, fun same => ?_⟩)
      · obtain ⟨all, ahead⟩ := Finset.mem_filter.mp member
        exact Finset.mem_filter.mpr ⟨all, Nat.lt_trans later ahead⟩
      · have open' : (region, place) ∈ outstanding plan began script now :=
          Finset.mem_filter.mpr ⟨by simp [known, inside], here ▸ later⟩
        rw [← same] at open'
        exact Nat.lt_irrefl due ((Finset.mem_filter.mp open').2.trans_eq here.symm)

end Left

variable (plan began script now) in
/-- What a phase does from now on until it ends: every region whose moment has not passed commits at
its moment, and the phase ends at the moment of the last one. -/
structure PlaysOut (store : Store) (journal : List (Nat × Entry)) (finish : Finish) : Prop where
  alive : finish.crashed = false
  journal : ∃ more, finish.journal = journal ++ more ∧
    finish.store = store.replay ((datedCommits more).map Prod.snd) ∧
    (datedCommits more).Perm (((List.range plan.regionCount).filter
      (now ≤ commitMoment plan began script ·)).map fun region =>
        (commitMoment plan began script region, scriptedCommit plan script region)) ∧
    ∀ moment commit fault, (moment, .refused commit fault) ∉ more
  covers : ∀ region < plan.regionCount, commitMoment plan began script region ≤ finish.moment
  ends : finish.moment = began ∨
    ∃ region < plan.regionCount, finish.moment = commitMoment plan began script region

section Look

variable {store next : Store} {entries : List Entry}
  (made : CommitsNow plan began now script store (List.range plan.regionCount) entries next)
include made

/-- What a look commits is committed at its moment. -/
theorem CommitsNow.dated : datedCommits (entries.map (now, ·)) =
    ((List.range plan.regionCount).filter (commitMoment plan began script · = now)).map
      fun region => (commitMoment plan began script region, scriptedCommit plan script region) := by
  rw [datedCommits_at, made.commits, List.map_map]
  refine List.map_congr_left fun region member => ?_
  have here : commitMoment plan began script region = now :=
    of_decide_eq_true (List.mem_filter.mp member).2
  rw [here]
  rfl

/-- A phase that has nothing left to do after a look has played out. -/
theorem CommitsNow.playsOut {journal : List (Nat × Entry)}
    (covers : ∀ region < plan.regionCount, commitMoment plan began script region ≤ now)
    (goesOn : now = began ∨
      ∃ region < plan.regionCount, now ≤ commitMoment plan began script region) :
    PlaysOut plan began now script store journal
      ⟨now, next, journal ++ entries.map (now, ·), false⟩ where
  alive := rfl
  journal := by
    refine ⟨_, rfl, ?_, ?_, ?_⟩
    · rw [map_snd_datedCommits, map_snd_at]
      exact made.replay
    · rw [made.dated]
      refine List.Perm.of_eq (congrArg _ (List.filter_congr fun region member => ?_))
      have before := covers region (List.mem_range.mp member)
      exact decide_eq_decide.mpr ⟨fun same => same.ge, Nat.le_antisymm before⟩
    · intro moment commit fault member
      obtain ⟨entry, its, same⟩ := List.mem_map.mp member
      cases same
      exact made.accepted commit fault its
  covers := covers
  ends := goesOn.imp_right fun ⟨region, known, later⟩ =>
    ⟨region, known, Nat.le_antisymm later (covers region known)⟩

/-- A look and what a phase does from the next moment on make what it does from now on. -/
theorem CommitsNow.playsOut_next {journal : List (Nat × Entry)} {due : Nat} {finish : Finish}
    (later : now < due)
    (between : ∀ region < plan.regionCount, commitMoment plan began script region ≤ now ∨
      due ≤ commitMoment plan began script region)
    (rest : PlaysOut plan began due script next (journal ++ entries.map (now, ·)) finish) :
    PlaysOut plan began now script store journal finish where
  alive := rest.alive
  journal := by
    obtain ⟨more, whole, replay, dated, accepted⟩ := rest.journal
    refine ⟨entries.map (now, ·) ++ more, by rw [whole, List.append_assoc], ?_, ?_, ?_⟩
    · rw [datedCommits_append, List.map_append, Store.replay_append, map_snd_datedCommits,
        map_snd_at, ← made.replay]
      exact replay
    · rw [datedCommits_append, made.dated]
      refine ((List.Perm.refl _).append dated).trans ?_
      rw [← List.map_append]
      refine List.Perm.map _ ?_
      have split := List.filter_append_perm (commitMoment plan began script · = now)
        ((List.range plan.regionCount).filter (now ≤ commitMoment plan began script ·))
      rw [List.filter_filter, List.filter_filter] at split
      refine (List.Perm.of_eq ?_).trans split
      congr 1
      · refine List.filter_congr fun region member => ?_
        rw [← Bool.decide_and]
        exact decide_eq_decide.mpr (by omega)
      · refine List.filter_congr fun region member => ?_
        rw [← decide_not, ← Bool.decide_and]
        have apart := between region (List.mem_range.mp member)
        exact decide_eq_decide.mpr (by omega)
    · intro moment commit fault member
      rcases List.mem_append.mp member with early | late
      · obtain ⟨entry, its, same⟩ := List.mem_map.mp early
        cases same
        exact made.accepted commit fault its
      · exact accepted moment commit fault late
  covers := rest.covers
  ends := rest.ends

end Look

/-- A phase that has enough looks to spare plays out. -/
theorem playsOut_followFrom (scripted : Scripted t plan began script) {fuel : Nat}
    {journal : List (Nat × Entry)} {store : Store} {passes : List Pass} (fits : plan.Fits store)
    (length : passes.length = plan.regionCount)
    (inStep : AllInStep plan began now script 0 passes)
    (goesOn : now = began ∨
      ∃ region < plan.regionCount, now ≤ commitMoment plan began script region)
    (enough : (outstanding plan began script now).card < fuel) :
    PlaysOut plan began now script store journal
      ((Phase.latency (began + plan.latencyTimeout) passes).followFrom t plan fuel now journal
        store) := by
  induction fuel generalizing now journal store passes with
  | zero => exact absurd enough (Nat.not_lt_zero _)
  | succ fuel ih =>
    obtain ⟨entries, next, left, polled, same, placed, made⟩ :=
      pollPasses_onTime fits scripted (by omega) inStep
    have kept : left.length = plan.regionCount := same.trans length
    rw [length, ← List.range_eq_range'] at made
    simp only [Phase.followFrom, Phase.poll, polled, Bool.not_true, Bool.false_eq_true, if_false]
    by_cases all : left.all Pass.isFinished = true
    · simp only [all, if_true]
      exact made.playsOut (fun region known => commitMoment_le_of_all kept placed all known) goesOn
    · obtain ⟨due, first, later, inStep, ahead, between, fewer⟩ :=
        next_due kept placed (began + plan.latencyTimeout) all
      simp only [all, if_false, first, Bool.false_eq_true]
      have rest := @ih due (journal ++ entries.map (now, ·)) next left
        (made.replay ▸ fits.replay _) kept inStep (.inr ahead) (by omega)
      exact made.playsOut_next later between rest

variable (plan began script) in
/-- How a phase ends that began on a state, in closed form. -/
structure ClosedForm (store : Store) (finish : Finish) : Prop where
  alive : finish.crashed = false
  /-- Every region commits once, what its replies make, and nothing is refused. -/
  commits : (datedCommits finish.journal).Perm ((List.range plan.regionCount).map fun region =>
    (commitMoment plan began script region, scriptedCommit plan script region))
  accepted : ∀ moment commit fault, (moment, .refused commit fault) ∉ finish.journal
  /-- It does so when its replies are over, or the timeout is. -/
  moments : ∀ region < plan.regionCount, ∃ taken : Nat,
    commitMoment plan began script region = began + taken ∧
    (taken : ℕ∞) = min (spent (script region) plan.endpoints.length) plan.latencyTimeout
  /-- The phase lasts as long as its longest region. -/
  ends : ∃ taken : Nat, finish.moment = began + taken ∧
    (taken : ℕ∞) = min ((Finset.range plan.regionCount).sup fun region =>
      spent (script region) plan.endpoints.length) plan.latencyTimeout
  vectors : ∀ region < plan.regionCount, finish.store.regionLatency? region =
    some (scriptedLatencies (script region) plan.latencyTimeout plan.endpoints.length)
  version : finish.store.version = store.version + .ofNat plan.regionCount
  popStatus : finish.store.state.popStatus = store.state.popStatus

section Whole

variable {store : Store} {finish : Finish}

theorem playsOut_follow (fits : plan.Fits store) (scripted : Scripted t plan began script) :
    PlaysOut plan began began script store []
      ((Phase.beginLatency plan began).follow t plan began store) := by
  refine playsOut_followFrom scripted fits List.length_replicate ?_ (.inl rfl) ?_
  · intro x member
    have fresh := List.mem_of_getElem? (List.mem_zipIdx_iff_getElem?.mp member)
    rw [List.eq_of_mem_replicate fresh]
    exact .begins rfl
  · have few := Finset.card_filter_le
      (Finset.range plan.regionCount ×ˢ Finset.range plan.endpoints.length)
      fun call => began < began + passed (script call.1) plan.latencyTimeout (call.2 + 1)
    rw [Finset.card_product, Finset.card_range, Finset.card_range] at few
    exact Nat.lt_succ_of_le (Nat.le_trans few (Nat.le_add_left _ _))

/-- The longest region takes the greatest sum of delays, up to the timeout. -/
theorem PlaysOut.lasts (plays : PlaysOut plan began began script store [] finish) :
    ∃ taken : Nat, finish.moment = began + taken ∧
      (taken : ℕ∞) = min ((Finset.range plan.regionCount).sup fun region =>
        spent (script region) plan.endpoints.length) plan.latencyTimeout := by
  have each : min ((Finset.range plan.regionCount).sup fun region =>
      spent (script region) plan.endpoints.length) (plan.latencyTimeout : ℕ∞) =
      (Finset.range plan.regionCount).sup fun region =>
        (passed (script region) plan.latencyTimeout plan.endpoints.length : ℕ∞) := by
    simp only [passed_eq_min]
    exact Finset.sup_inf_distrib_right _ _ _
  have covers {region : Nat} (known : region < plan.regionCount) :
      passed (script region) plan.latencyTimeout plan.endpoints.length ≤ finish.moment - began := by
    have before := plays.covers region known
    rw [commitMoment] at before
    omega
  have most : (Finset.range plan.regionCount).sup (fun region =>
      (passed (script region) plan.latencyTimeout plan.endpoints.length : ℕ∞)) ≤
        (finish.moment - began : Nat) :=
    Finset.sup_le fun region member => Nat.cast_le.mpr (covers (Finset.mem_range.mp member))
  refine ⟨finish.moment - began, ?_, ?_⟩
  · rcases plays.ends with same | ⟨region, -, same⟩
    · omega
    · rw [same, commitMoment, Nat.add_sub_cancel_left]
  · rw [each]
    refine le_antisymm ?_ most
    rcases plays.ends with same | ⟨region, known, same⟩
    · rw [same, Nat.sub_self]
      exact zero_le
    · rw [same, commitMoment, Nat.add_sub_cancel_left]
      exact Finset.le_sup (f := fun region =>
        (passed (script region) plan.latencyTimeout plan.endpoints.length : ℕ∞))
        (Finset.mem_range.mpr known)

theorem PlaysOut.closedForm (fits : plan.Fits store)
    (plays : PlaysOut plan began began script store [] finish) :
    ClosedForm plan began script store finish := by
  obtain ⟨more, whole, replay, dated, accepted⟩ := plays.journal
  rw [List.nil_append] at whole
  subst whole
  have all : (List.range plan.regionCount).filter (began ≤ commitMoment plan began script ·) =
      List.range plan.regionCount :=
    List.filter_eq_self.mpr fun region _ => decide_eq_true (Nat.le_add_right began _)
  rw [all] at dated
  have made : ((datedCommits finish.journal).map Prod.snd).Perm
      ((List.range plan.regionCount).map (scriptedCommit plan script)) := by
    have undated := dated.map Prod.snd
    rwa [List.map_map] at undated
  have fit : ∀ commit ∈ (datedCommits finish.journal).map Prod.snd,
      commit.Fits plan.addresses.length plan.regionCount := by
    intro commit member
    obtain ⟨region, known, rfl⟩ := List.mem_map.mp (made.subset member)
    exact fits.endpoints ▸ scriptedCommit_fits (List.mem_range.mp known)
  refine ⟨plays.alive, dated, accepted, fun region known => ⟨_, rfl, passed_eq_min _⟩, plays.lasts,
    fun region known => ?_, ?_, ?_⟩
  · rw [replay]
    have mine := made.symm.subset (List.mem_map_of_mem (List.mem_range.mpr known))
    refine fits.shaped.regionLatency_of_mem mine (fit _ mine) fun others member => ?_
    obtain ⟨other, -, same⟩ := List.mem_map.mp (made.subset member)
    cases same
    rfl
  · rw [replay, fits.shaped.version_replay fit, made.length_eq, List.length_map, List.length_range]
  · rw [replay]
    rcases fits.shaped.popStatus_replay ((datedCommits finish.journal).map Prod.snd) with
      same | ⟨statuses, member, -, -⟩
    · exact same
    · obtain ⟨region, -, other⟩ := List.mem_map.mp (made.subset member)
      cases other

/-- The vector of a region up to some place depends on its own replies up to there only, and so does
its commit on all its own replies only. -/
theorem ClosedForm.independent {other : Nat → Replies} {otherFinish : Finish}
    (ends : ClosedForm plan began script store finish)
    (otherEnds : ClosedForm plan began other store otherFinish) {region : Nat}
    (known : region < plan.regionCount) {count : Nat} (inside : count ≤ plan.endpoints.length)
    (same : ∀ place < count, script region place = other region place) :
    (finish.store.regionLatency? region).map (·.take count) =
        (otherFinish.store.regionLatency? region).map (·.take count) ∧
      (count = plan.endpoints.length → ∀ commit, commit.2.target = some region →
        (commit ∈ datedCommits finish.journal ↔ commit ∈ datedCommits otherFinish.journal)) := by
  constructor
  · rw [ends.vectors region known, otherEnds.vectors region known, Option.map_some, Option.map_some,
      take_scriptedLatencies inside same]
  · rintro rfl commit its
    have vector : scriptedCommit plan script region = scriptedCommit plan other region := by
      have whole := @take_scriptedLatencies _ plan.latencyTimeout _ _ _ inside same
      rw [List.take_of_length_le (scriptedLatencies_length _).le,
        List.take_of_length_le (scriptedLatencies_length _).le] at whole
      rw [scriptedCommit, scriptedCommit, whole]
    have moment : commitMoment plan began script region = commitMoment plan began other region := by
      rw [commitMoment, commitMoment, passed_congr same]
    have mine {some : Nat → Replies} {last : Finish}
        (closed : ClosedForm plan began some store last) : commit ∈ datedCommits last.journal ↔
          commit = (commitMoment plan began some region, scriptedCommit plan some region) := by
      rw [closed.commits.mem_iff, List.mem_map]
      constructor
      · rintro ⟨index, -, rfl⟩
        cases its
        rfl
      · rintro rfl
        exact ⟨region, List.mem_range.mpr known, rfl⟩
    rw [mine ends, mine otherEnds, vector, moment]

end Whole

end Steering.Refresh

namespace Steering.Engine

open Refresh

/-- A manual refresh of the latencies ends in closed form, whatever has been committed before. The
replies to one region do not influence another one, nor those to one PoP the latencies of the PoPs
before it. -/
theorem latency_closed_form {config : Config} {ownProbers : Bool} {names : Net.NameService}
    {engine : Engine} (built : build config ownProbers names = .ok engine)
    (commits : List Commit) {t : Responder}
    {began : Nat} {script : Nat → Replies} (scripted : Scripted t (planOf config) began script) :
    let served : Engine := { engine with store := engine.store.replay commits }
    let refreshed := served.refreshLatency t began
    let finish :=
      (Phase.beginLatency (planOf config) began).follow t (planOf config) began served.store
    refreshed.crashed = false ∧ refreshed.engine.store = finish.store ∧
    (refreshed.elapsed : ℕ∞) = min ((Finset.range config.regions.length).sup fun region =>
      spent (script region) config.pops.length) config.refresh.latencyTimeout ∧
    ClosedForm (planOf config) began script served.store finish ∧
    ∀ (other : Responder) (otherScript : Nat → Replies),
      Scripted other (planOf config) began otherScript →
      let otherFinish :=
        (Phase.beginLatency (planOf config) began).follow other (planOf config) began served.store
      ∀ region < config.regions.length, ∀ count ≤ config.pops.length,
        (∀ place < count, script region place = otherScript region place) →
        (finish.store.regionLatency? region).map (·.take count) =
            (otherFinish.store.regionLatency? region).map (·.take count) ∧
          (count = config.pops.length → ∀ commit, commit.2.target = some region →
            (commit ∈ datedCommits finish.journal ↔
              commit ∈ datedCommits otherFinish.journal)) := by
  intro served refreshed finish
  have parts := builtFrom_of_build built
  have fits : (planOf config).Fits served.store := parts.plan ▸ parts.fits commits
  have pops : (planOf config).endpoints.length = config.pops.length := List.length_map _
  have closed {t : Responder} {script : Nat → Replies}
      (scripted : Scripted t (planOf config) began script) :
      ClosedForm (planOf config) began script served.store
        ((Phase.beginLatency (planOf config) began).follow t (planOf config) began served.store) :=
    (playsOut_follow fits scripted).closedForm fits
  have asked : refreshed = ⟨finish.moment - began, { served with store := finish.store },
      finish.crashed⟩ := by
    have plan : served.plan = planOf config := parts.plan
    simp only [refreshed, refreshLatency, refresh, plan, finish]
  have mine := closed scripted
  obtain ⟨taken, moment, least⟩ := mine.ends
  refine ⟨by rw [asked]; exact mine.alive, by rw [asked], ?_, mine, ?_⟩
  · rw [asked, moment, Nat.add_sub_cancel_left, least, pops]
    rfl
  · intro other otherScript otherScripted otherFinish region known count inside same
    rw [← pops] at inside ⊢
    exact mine.independent (closed otherScripted) known inside same

/-- A configuration of three PoPs whose latency is measured at one URL. -/
def sharedEndpoint : Config :=
  { twoPops with pops := [
      ⟨"tokyo", .ofOctets 192 0 2 1, "http://192.0.2.9/latencyz", ""⟩,
      ⟨"osaka", .ofOctets 192 0 2 2, "http://192.0.2.9/latencyz", ""⟩,
      ⟨"nagoya", .ofOctets 192 0 2 3, "http://192.0.2.9/latencyz", ""⟩] }

/-- The first measurement takes longer than the timeout, the others end at once. -/
def slowThenReady : Nat → Replies := fun _ place =>
  if place = 0 then ⟨some 40000, .success (.ofNat 5)⟩
  else ⟨some 0, .success (.ofNat (6 + place))⟩

/-- The last two PoPs are measured at one moment and at one URL, and each has its own latency. -/
theorem latency_closed_form_slowThenReady : ∃ engine, build sharedEndpoint true = .ok engine ∧
    let t := Responder.ofScript (fun _ => ⟨none, .crash⟩) slowThenReady
    let refreshed := engine.refreshLatency t 100
    (refreshed.elapsed : ℕ∞) = min ((Finset.range 1).sup fun region =>
      spent (slowThenReady region) 3) sharedEndpoint.refresh.latencyTimeout ∧
    refreshed.engine.store.regionLatency? 0 =
      some [unreachableLatency, .ofNat 7, .ofNat 8] := by
  obtain ⟨engine, built⟩ := @exists_build sharedEndpoint true .offline (by decide +kernel)
  have scripted : Scripted (.ofScript (fun _ => ⟨none, .crash⟩) slowThenReady)
      (planOf sharedEndpoint) 100 slowThenReady := by
    refine scripted_ofScript fun region _ place _ _ => ?_
    rw [slowThenReady]
    split <;> nofun
  obtain ⟨-, state, elapsed, closed, -⟩ := latency_closed_form built [] scripted
  refine ⟨engine, built, elapsed, ?_⟩
  have vector := closed.vectors 0 (by decide)
  rw [← state] at vector
  refine vector.trans ?_
  decide +kernel

end Steering.Engine
