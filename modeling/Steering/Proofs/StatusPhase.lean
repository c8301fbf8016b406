import Steering.Proofs.CourseRun
import Steering.Proofs.PhaseLook
import Steering.Proofs.ReplyScript
/-! A status phase whose replies are known. All PoPs are asked when it begins; the record of each is
made by its own reply, and all records are committed together when the last reply has come or has
been given up. -/

namespace Steering.Refresh

/-- How long a reply is waited for under a timeout. -/
def Reply.wait {ε α : Type} (reply : Reply ε α) (allowed : Nat) : Nat :=
  match reply.delay with
  | some delay => min delay allowed
  | none => allowed

/-- The record that a reply makes under a timeout: what is reported, only the wording of a failure,
or only that the reply came too late. -/
inductive Reply.Makes (reply : Reply FetchFailure PopStatus) (allowed : Nat) : PopStatus → Prop
  | reported {status : PopStatus} (inTime : reply.duration ≤ allowed)
      (outcome : reply.outcome = .success status) : Makes reply allowed status
  | failed {reason : FetchFailure} (inTime : reply.duration ≤ allowed)
      (outcome : reply.outcome = .failure reason) : Makes reply allowed (.failed reason.message)
  | late (beyond : allowed < reply.duration) : Makes reply allowed (.failed "deadline exceeded")

/-- A reply makes one record only. -/
theorem Reply.Makes.unique {reply : Reply FetchFailure PopStatus} {allowed : Nat}
    {one other : PopStatus} (makes : reply.Makes allowed one)
    (otherMakes : reply.Makes allowed other) : one = other := by
  cases makes with
  | reported inTime outcome =>
    cases otherMakes with
    | reported _ same => exact Outcome.success.inj (outcome.symm.trans same)
    | failed _ same => cases outcome.symm.trans same
    | late beyond => exact absurd inTime beyond.not_ge
  | failed inTime outcome =>
    cases otherMakes with
    | reported _ same => cases outcome.symm.trans same
    | failed _ same => cases outcome.symm.trans same; rfl
    | late beyond => exact absurd inTime beyond.not_ge
  | late beyond =>
    cases otherMakes with
    | reported inTime _ => exact absurd inTime beyond.not_ge
    | failed inTime _ => exact absurd inTime beyond.not_ge
    | late _ => rfl

/-! ## One fetch -/

section Fetch

variable {ε α : Type} (reply : Reply ε α) (allowed : Nat)

theorem Reply.wait_eq_min : (reply.wait allowed : ℕ∞) = min reply.duration allowed := by
  rw [wait, duration]
  cases reply.delay with
  | none => simp
  | some delay => exact Nat.mono_cast.map_min

theorem Reply.call_eq (late : ε) (began : Nat) : reply.call late began (began + allowed) =
    ⟨began + reply.wait allowed,
      if reply.duration ≤ allowed then reply.outcome else .failure late⟩ := by
  rw [call, wait, duration]
  cases reply.delay with
  | none => simp
  | some delay =>
    have inTime : (delay = 0 ∨ began + delay ≤ began + allowed) ↔ delay ≤ allowed := by omega
    simp only [inTime, Nat.cast_le]
    split
    · rename_i soon
      rw [Nat.min_eq_left soon]
    · rename_i beyond
      rw [Nat.min_eq_right (Nat.le_of_not_le beyond), Nat.max_eq_right (Nat.le_add_right _ _)]

end Fetch

section Slots

variable (replies : StatusReplies) (allowed began : Nat)

/-- The fetch of the PoP at a place. -/
def scriptedFetch (place : Nat) : Call FetchFailure PopStatus :=
  (replies place).call .deadlineExceeded began (began + allowed)

/-- The record that the fetch of a place ends with. -/
def scriptedRecord (place : Nat) : PopStatus :=
  (recordOf (scriptedFetch replies allowed began place).outcome).getD .blank

/-- Where a fetch stands at a moment. -/
def slotAt (now place : Nat) : Slot :=
  if now < began + (replies place).wait allowed then
    .waiting (scriptedFetch replies allowed began place)
  else .done (scriptedRecord replies allowed began place)

variable {replies allowed began} {t : Responder} {now place : Nat} {address : Net.Ipv4}

theorem due_scriptedFetch : (scriptedFetch replies allowed began place).due =
    began + (replies place).wait allowed := by
  rw [scriptedFetch, Reply.call_eq]

/-- A fetch in which no crash comes in time makes a record. -/
theorem makes_scriptedRecord
    (alive : (replies place).duration ≤ allowed → (replies place).outcome ≠ .crash) :
    recordOf (scriptedFetch replies allowed began place).outcome =
        some (scriptedRecord replies allowed began place) ∧
      (replies place).Makes allowed (scriptedRecord replies allowed began place) := by
  rw [scriptedRecord, scriptedFetch, Reply.call_eq]
  by_cases inTime : (replies place).duration ≤ allowed
  · simp only [if_pos inTime]
    cases outcome : (replies place).outcome with
    | success status => exact ⟨rfl, .reported inTime outcome⟩
    | failure reason => exact ⟨rfl, .failed inTime outcome⟩
    | crash => exact absurd outcome (alive inTime)
  · simp only [if_neg inTime]
    exact ⟨rfl, .late (lt_of_not_ge inTime)⟩

theorem settle_scriptedFetch
    (alive : (replies place).duration ≤ allowed → (replies place).outcome ≠ .crash) :
    Slot.settle now (scriptedFetch replies allowed began place) =
      some (slotAt replies allowed began now place) := by
  rw [Slot.settle, due_scriptedFetch, slotAt, (makes_scriptedRecord alive).1]
  split <;> rfl

theorem poll_slotAt {before : Nat} (later : before ≤ now)
    (alive : (replies place).duration ≤ allowed → (replies place).outcome ≠ .crash) :
    (slotAt replies allowed began before place).poll t now (began + allowed) place address =
      ([], some (slotAt replies allowed began now place)) := by
  rw [slotAt]
  split
  · rw [Slot.poll, settle_scriptedFetch alive]
  · rename_i ended
    rw [Slot.poll, slotAt, if_neg (by omega)]

end Slots

/-! ## All fetches -/

/-- The fetches of all PoPs, each by its place. -/
def slotsOf (addresses : List Net.Ipv4) (slot : Nat → Slot) : List (Net.Ipv4 × Slot) :=
  addresses.zipIdx.map fun (address, place) => (address, slot place)

variable {t : Responder} {addresses : List Net.Ipv4} {now deadline : Nat}

theorem pollSlots_zipIdx {before after : Nat → Slot} {start : Nat}
    (polled : ∀ x ∈ addresses.zipIdx start, ∃ entries,
      (before x.2).poll t now deadline x.2 x.1 = (entries, some (after x.2))) :
    ∃ entries, pollSlots t now deadline start
        ((addresses.zipIdx start).map fun x => (x.1, before x.2)) =
      (entries, some ((addresses.zipIdx start).map fun x => (x.1, after x.2))) := by
  induction addresses generalizing start with
  | nil => exact ⟨[], rfl⟩
  | cons address rest ih =>
    simp only [List.zipIdx_cons, List.forall_mem_cons] at polled
    obtain ⟨⟨own, first⟩, others⟩ := polled
    obtain ⟨more, left⟩ := ih others
    refine ⟨own ++ more, ?_⟩
    simp only [List.zipIdx_cons, List.map_cons, pollSlots, first, left, Option.map_some]

theorem slotsOf_const (slot : Slot) :
    slotsOf addresses (fun _ => slot) = addresses.map (·, slot) := by
  conv_rhs => rw [← List.zipIdx_map_fst 0 addresses, List.map_map]
  rfl

/-- A look at all fetches is a look at each of them. -/
theorem pollSlots_slotsOf {before after : Nat → Slot}
    (polled : ∀ x ∈ addresses.zipIdx, ∃ entries,
      (before x.2).poll t now deadline x.2 x.1 = (entries, some (after x.2))) :
    ∃ entries, (∀ entry ∈ entries, entry.isCall = true) ∧
      pollSlots t now deadline 0 (slotsOf addresses before) =
        (entries, some (slotsOf addresses after)) := by
  obtain ⟨entries, made⟩ := pollSlots_zipIdx polled
  have calls := pollSlots_calls t now deadline 0 (slotsOf addresses before)
  rw [slotsOf, made] at calls
  exact ⟨entries, calls, made⟩

theorem map_snd_slotsOf (slot : Nat → Slot) :
    (slotsOf addresses slot).map Prod.snd = (List.range addresses.length).map slot := by
  rw [slotsOf, List.map_map, List.range_eq_range', ← List.zipIdx_map_snd 0 addresses, List.map_map]
  rfl

/-- The records that the replies to the first PoPs make. -/
def scriptedRecords (replies : StatusReplies) (allowed began count : Nat) : List PopStatus :=
  (List.range count).map (scriptedRecord replies allowed began)

/-- The places among the first ones whose replies are still waited for at a moment. -/
def unanswered (replies : StatusReplies) (allowed began count now : Nat) : Finset Nat :=
  (Finset.range count).filter fun place => now < began + (replies place).wait allowed

section Standing

variable {replies : StatusReplies} {allowed began place : Nat}

theorem mem_unanswered_iff {count : Nat} : place ∈ unanswered replies allowed began count now ↔
    place < count ∧ now < began + (replies place).wait allowed := by
  rw [unanswered, Finset.mem_filter, Finset.mem_range]

theorem ended_of_answered {count : Nat} (all : unanswered replies allowed began count now = ∅)
    (inside : place < count) : ¬ now < began + (replies place).wait allowed := fun waits =>
  Finset.notMem_empty place (all ▸ mem_unanswered_iff.mpr ⟨inside, waits⟩)

theorem statuses?_of_answered
    (all : unanswered replies allowed began addresses.length now = ∅) :
    statuses? (slotsOf addresses (slotAt replies allowed began now)) =
      some (scriptedRecords replies allowed began addresses.length) := by
  rw [statuses?_eq_some_iff, map_snd_slotsOf, scriptedRecords, List.map_map]
  refine List.map_congr_left fun place member => ?_
  rw [slotAt, if_neg (ended_of_answered all (List.mem_range.mp member))]
  rfl

theorem statuses?_of_unanswered
    (waits : place ∈ unanswered replies allowed began addresses.length now) :
    statuses? (slotsOf addresses (slotAt replies allowed began now)) = none := by
  obtain ⟨inside, ahead⟩ := mem_unanswered_iff.mp waits
  refine Option.eq_none_iff_forall_ne_some.mpr fun statuses all => ?_
  rw [statuses?_eq_some_iff, map_snd_slotsOf] at all
  have done : slotAt replies allowed began now place ∈ statuses.map Slot.done := by
    rw [← all]
    exact List.mem_map_of_mem (List.mem_range.mpr inside)
  obtain ⟨status, -, same⟩ := List.mem_map.mp done
  rw [slotAt, if_pos ahead] at same
  cases same

theorem mem_dues_iff {due : Nat} :
    due ∈ (Phase.status deadline (slotsOf addresses (slotAt replies allowed began now))).dues ↔
      ∃ place ∈ unanswered replies allowed began addresses.length now,
        due = began + (replies place).wait allowed := by
  simp only [Phase.dues, List.mem_filterMap, slotsOf, List.mem_map, Prod.exists,
    List.mem_zipIdx_iff_getElem?, mem_unanswered_iff]
  constructor
  · rintro ⟨_, _, ⟨address, place, found, same⟩, its⟩
    cases same
    have inside := (List.getElem?_eq_some_iff.mp found).1
    by_cases ahead : now < began + (replies place).wait allowed
    · rw [slotAt, if_pos ahead] at its
      exact ⟨place, ⟨inside, ahead⟩, (Option.some.inj its).symm.trans due_scriptedFetch⟩
    · rw [slotAt, if_neg ahead] at its
      cases its
  · rintro ⟨place, ⟨inside, ahead⟩, rfl⟩
    refine ⟨_, _, ⟨addresses[place], place, List.getElem?_eq_getElem inside, rfl⟩, ?_⟩
    rw [slotAt, if_pos ahead]
    exact congrArg some due_scriptedFetch

/-- While replies are waited for, the phase goes on when the next of them has come. -/
theorem next_reply (waits : (unanswered replies allowed began addresses.length now).Nonempty) :
    ∃ due, (Phase.status deadline
        (slotsOf addresses (slotAt replies allowed began now))).dues.min? = some due ∧ now < due ∧
      (∃ place < addresses.length, due = began + (replies place).wait allowed) ∧
      (unanswered replies allowed began addresses.length due).card <
        (unanswered replies allowed began addresses.length now).card := by
  cases next : (Phase.status deadline
      (slotsOf addresses (slotAt replies allowed began now))).dues.min? with
  | none =>
    obtain ⟨place, its⟩ := waits
    have empty := List.eq_nil_iff_forall_not_mem.mp (List.min?_eq_none_iff.mp next)
    exact absurd (mem_dues_iff.mpr ⟨place, its, rfl⟩) (empty _)
  | some due =>
    obtain ⟨place, its, here⟩ := mem_dues_iff.mp (List.min?_eq_some_iff.mp next).1
    obtain ⟨inside, ahead⟩ := mem_unanswered_iff.mp its
    refine ⟨due, rfl, here ▸ ahead, ⟨place, inside, here⟩, ?_⟩
    -- The reply that is due now is not waited for any more.
    refine Finset.card_lt_card ((Finset.ssubset_iff_of_subset fun other still => ?_).mpr
      ⟨place, its, fun still => ?_⟩)
    · obtain ⟨known, later⟩ := mem_unanswered_iff.mp still
      exact mem_unanswered_iff.mpr ⟨known, by omega⟩
    · have later := (mem_unanswered_iff.mp still).2
      omega

end Standing

/-! ## The whole phase -/

/-- When the last of the replies to the first PoPs has come or has been given up. -/
def lastReply (replies : StatusReplies) (allowed began count : Nat) : Nat :=
  began + (Finset.range count).sup fun place => (replies place).wait allowed

section Whole

variable {plan : Plan} {began : Nat} {replies : StatusReplies} {store : Store}

variable (t plan began replies) in
/-- The scripted replies are given to all fetches of a phase, and no crash comes in time. -/
structure ScriptedStatus : Prop where
  said : ∀ place address, plan.addresses[place]? = some address →
    t.fetch began place address = replies place
  alive : ∀ place < plan.addresses.length, (replies place).duration ≤ plan.statusTimeout →
    (replies place).outcome ≠ .crash

/-- Every script can be given in which no crash comes in time, also where PoPs share an address. -/
theorem scriptedStatus_ofScript {latencies : Nat → Replies}
    (alive : ∀ place < plan.addresses.length, (replies place).duration ≤ plan.statusTimeout →
      (replies place).outcome ≠ .crash) :
    ScriptedStatus (.ofScript replies latencies) plan began replies :=
  ⟨fun _ _ _ => rfl, alive⟩

theorem scriptedRecords_fits (plan : Plan) (began : Nat) (replies : StatusReplies) :
    (Commit.status (scriptedRecords replies plan.statusTimeout began plan.addresses.length)).Fits
      plan.addresses.length plan.regionCount := by
  simp [Commit.Fits, scriptedRecords]

theorem le_lastReply {allowed count place : Nat} (inside : place < count) :
    began + (replies place).wait allowed ≤ lastReply replies allowed began count :=
  Nat.add_le_add_left (Finset.le_sup (f := fun place => (replies place).wait allowed)
    (Finset.mem_range.mpr inside)) began

theorem lastReply_le {allowed count now : Nat} (since : began ≤ now)
    (all : unanswered replies allowed began count now = ∅) :
    lastReply replies allowed began count ≤ now := by
  have each : (Finset.range count).sup (fun place => (replies place).wait allowed) ≤
      now - began := by
    refine Finset.sup_le fun place member => ?_
    have ended := ended_of_answered all (Finset.mem_range.mp member)
    omega
  rw [lastReply]
  omega

/-- A phase that begins, or in which replies are waited for, ends with the last reply. -/
theorem ScriptedStatus.follow (scripted : ScriptedStatus t plan began replies)
    (fits : plan.Fits store) {fuel now : Nat}
    {journal : List (Nat × Entry)} {before : Nat → Slot}
    (polled : ∀ x ∈ plan.addresses.zipIdx, ∃ entries,
      (before x.2).poll t now (began + plan.statusTimeout) x.2 x.1 =
        (entries, some (slotAt replies plan.statusTimeout began now x.2)))
    (since : began ≤ now)
    (reached : now ≤ lastReply replies plan.statusTimeout began plan.addresses.length)
    (enough : (unanswered replies plan.statusTimeout began plan.addresses.length now).card < fuel) :
    let last := lastReply replies plan.statusTimeout began plan.addresses.length
    let commit := Commit.status
      (scriptedRecords replies plan.statusTimeout began plan.addresses.length)
    ∃ calls : List (Nat × Entry), (∀ x ∈ calls, x.2.isCall = true) ∧
      (Phase.status (began + plan.statusTimeout) (slotsOf plan.addresses before)).followFrom t plan
        fuel now journal store =
      ⟨last, store.offer commit, journal ++ (calls ++ [(last, .committed commit)]), false⟩ := by
  intro last commit
  induction fuel generalizing now journal before with
  | zero => exact absurd enough (Nat.not_lt_zero _)
  | succ fuel ih =>
    obtain ⟨entries, calls, made⟩ := pollSlots_slotsOf polled
    have callsNow : ∀ x ∈ entries.map (now, ·), x.2.isCall = true := fun x member => by
      obtain ⟨entry, its, rfl⟩ := List.mem_map.mp member
      exact calls entry its
    simp only [Phase.followFrom, Phase.poll, made]
    rcases Finset.eq_empty_or_nonempty
      (unanswered replies plan.statusTimeout began plan.addresses.length now) with all | waits
    · have here : now = last := Nat.le_antisymm reached (lastReply_le since all)
      have accepted : tryCommit store commit = (.committed commit, store.offer commit) := by
        rw [tryCommit, fits.shaped.commit_fits (scriptedRecords_fits plan began replies)]
      refine ⟨entries.map (now, ·), callsNow, ?_⟩
      rw [statuses?_of_answered all]
      simp only [commit] at accepted
      simp only [accepted, List.map_append, List.map_cons, List.map_nil, here, commit]
    · obtain ⟨place, its⟩ := id waits
      obtain ⟨due, next, later, ⟨other, inside, here⟩, fewer⟩ :=
        @next_reply plan.addresses now (began + plan.statusTimeout) _ _ _ waits
      have polledNext : ∀ x ∈ plan.addresses.zipIdx, ∃ entries,
          (slotAt replies plan.statusTimeout began now x.2).poll t due
              (began + plan.statusTimeout) x.2 x.1 =
            (entries, some (slotAt replies plan.statusTimeout began due x.2)) := by
        intro x member
        have known := (List.getElem?_eq_some_iff.mp (List.mem_zipIdx_iff_getElem?.mp member)).1
        exact ⟨[], poll_slotAt (Nat.le_of_lt later) (scripted.alive x.2 known)⟩
      obtain ⟨more, callsLater, rest⟩ := @ih due (journal ++ entries.map (now, ·)) _ polledNext
        (by omega) (here ▸ le_lastReply inside) (by omega)
      refine ⟨entries.map (now, ·) ++ more, fun x member => ?_, ?_⟩
      · exact (List.mem_append.mp member).elim (callsNow x) (callsLater x)
      · simp only [statuses?_of_unanswered its, next, rest, List.append_assoc]

/-- When a phase begins, all PoPs are asked, and each fetch stands where its reply puts it. -/
theorem ScriptedStatus.poll_fresh (scripted : ScriptedStatus t plan began replies)
    {x : Net.Ipv4 × Nat} (member : x ∈ plan.addresses.zipIdx) :
    Slot.fresh.poll t began (began + plan.statusTimeout) x.2 x.1 =
      ([.fetched x.1], some (slotAt replies plan.statusTimeout began began x.2)) := by
  have found := List.mem_zipIdx_iff_getElem?.mp member
  have alive := scripted.alive x.2 (List.getElem?_eq_some_iff.mp found).1
  rw [Slot.poll, scripted.said x.2 x.1 found]
  exact congrArg _ (settle_scriptedFetch alive)

variable (plan began replies) in
/-- How a status phase ends that began on a state, in closed form. -/
structure StatusForm (store : Store) (finish : Finish) : Prop where
  alive : finish.crashed = false
  accepted : ∀ moment commit fault, (moment, .refused commit fault) ∉ finish.journal
  /-- It makes one commit, when the slowest reply has come or the timeout is over. -/
  commits : ∃ taken : Nat, finish.moment = began + taken ∧
    (taken : ℕ∞) = min ((Finset.range plan.addresses.length).sup fun place =>
      (replies place).duration) plan.statusTimeout ∧
    datedCommits finish.journal = [(began + taken, .status finish.store.state.popStatus)]
  length : finish.store.state.popStatus.length = plan.addresses.length
  records : ∀ place record, finish.store.state.popStatus[place]? = some record →
    (replies place).Makes plan.statusTimeout record
  version : finish.store.version = store.version + 1
  latencies : finish.store.state.regionLatency = store.state.regionLatency

theorem lastReply_eq_min (replies : StatusReplies) (allowed began count : Nat) : ∃ taken : Nat,
    lastReply replies allowed began count = began + taken ∧
    (taken : ℕ∞) =
      min ((Finset.range count).sup fun place => (replies place).duration) allowed := by
  refine ⟨_, rfl, ?_⟩
  rw [Finset.apply_sup_eq_sup_comp_of_linearOrder _ Nat.mono_cast Nat.cast_zero]
  simp only [Function.comp_def, Reply.wait_eq_min]
  exact (Finset.sup_inf_distrib_right _ _ _).symm

theorem datedCommits_of_calls {calls : List (Nat × Entry)}
    (areCalls : ∀ x ∈ calls, x.2.isCall = true) : datedCommits calls = [] := by
  refine List.eq_nil_iff_forall_not_mem.mpr fun commit member => ?_
  obtain ⟨⟨moment, entry⟩, among, found⟩ := List.mem_filterMap.mp member
  have call := areCalls _ among
  cases entry with
  | fetched _ => cases found
  | measured _ _ => cases found
  | committed _ => cases call
  | refused _ _ => cases call

/-- A phase that gets replies in which no crash comes in time ends in closed form. -/
theorem ScriptedStatus.statusForm (scripted : ScriptedStatus t plan began replies)
    (fits : plan.Fits store) :
    StatusForm plan began replies store
      ((Phase.beginStatus plan began).follow t plan began store) := by
  have few := Finset.card_filter_le (Finset.range plan.addresses.length) fun place =>
    began < began + (replies place).wait plan.statusTimeout
  rw [Finset.card_range] at few
  obtain ⟨calls, areCalls, follows⟩ := @ScriptedStatus.follow t plan began replies store scripted
    fits (plan.addresses.length + plan.regionCount * plan.endpoints.length + 1) began []
    (fun _ => .fresh) (fun x member => ⟨_, scripted.poll_fresh member⟩)
    (Nat.le_refl _) (Nat.le_add_right _ _) (by rw [unanswered]; omega)
  rw [slotsOf_const] at follows
  obtain ⟨taken, moment, least⟩ :=
    lastReply_eq_min replies plan.statusTimeout began plan.addresses.length
  have kept := fits.shaped.offer_status (scriptedRecords_fits plan began replies)
  rw [Phase.follow, Phase.beginStatus, follows, List.nil_append, kept]
  refine ⟨rfl, fun moment commit fault member => ?_, ⟨taken, moment, least, ?_⟩,
    scriptedRecords_fits plan began replies, fun place record found => ?_, rfl, rfl⟩
  · rcases List.mem_append.mp member with call | last
    · cases areCalls _ call
    · cases List.mem_singleton.mp last
  · rw [datedCommits_append, datedCommits_of_calls areCalls, moment]
    rfl
  · obtain ⟨inside, rfl⟩ := List.getElem?_eq_some_iff.mp found
    have known : place < plan.addresses.length :=
      (scriptedRecords_fits plan began replies) ▸ inside
    simp only [scriptedRecords, List.getElem_map, List.getElem_range]
    exact (makes_scriptedRecord (scripted.alive place known)).2

/-- The record of a PoP depends on the reply to its own fetch only. -/
theorem StatusForm.independent {otherReplies : StatusReplies} {otherStore : Store}
    {finish otherFinish : Finish} (ends : StatusForm plan began replies store finish)
    (otherEnds : StatusForm plan began otherReplies otherStore otherFinish) {place : Nat}
    (same : replies place = otherReplies place) :
    finish.store.state.popStatus[place]? = otherFinish.store.state.popStatus[place]? := by
  have lengths := ends.length.trans otherEnds.length.symm
  by_cases inside : place < finish.store.state.popStatus.length
  · have found := List.getElem?_eq_getElem inside
    have otherFound := List.getElem?_eq_getElem (lengths ▸ inside)
    have makes := ends.records place _ found
    rw [same] at makes
    rw [found, otherFound, makes.unique (otherEnds.records place _ otherFound)]
  · rw [List.getElem?_eq_none (Nat.le_of_not_lt inside),
      List.getElem?_eq_none (lengths ▸ Nat.le_of_not_lt inside)]

end Whole

end Steering.Refresh

namespace Steering.Engine

open Refresh

/-- A manual refresh of the statuses ends in closed form, whatever has been committed before: there
is one commit, when the last reply has come or the timeout is over. The replies to the other PoPs do
not influence the record of a PoP. The configuration need not even be an accepted one. -/
theorem status_closed_form (config : Config) (engine : Engine) (commits : List Commit)
    {t : Responder} {began : Nat} {replies : StatusReplies}
    (scripted : ScriptedStatus t (planOf config) began replies) :
    let served : Engine := { engine with
      plan := planOf config
      store := (Store.initial config.pops.length config.regions.length).replay commits }
    let refreshed := served.refreshStatus t began
    let finish :=
      (Phase.beginStatus (planOf config) began).follow t (planOf config) began served.store
    (∀ ownProbers names, build config ownProbers names = .ok engine →
      served = { engine with store := engine.store.replay commits }) ∧
    refreshed.crashed = false ∧ refreshed.engine.store = finish.store ∧
    (refreshed.elapsed : ℕ∞) = min ((Finset.range config.pops.length).sup fun place =>
      (replies place).duration) config.refresh.statusTimeout ∧
    StatusForm (planOf config) began replies served.store finish ∧
    ∀ (other : Responder) (otherReplies : StatusReplies),
      ScriptedStatus other (planOf config) began otherReplies →
      let otherFinish :=
        (Phase.beginStatus (planOf config) began).follow other (planOf config) began served.store
      ∀ place, replies place = otherReplies place →
        finish.store.state.popStatus[place]? = otherFinish.store.state.popStatus[place]? := by
  intro served refreshed finish
  have pops : (planOf config).addresses.length = config.pops.length := List.length_map _
  have fits : (planOf config).Fits served.store :=
    ⟨(List.length_map _).trans pops.symm, pops ▸ (Store.shaped_initial _ _).replay commits⟩
  have mine := scripted.statusForm fits
  obtain ⟨taken, moment, least, -⟩ := mine.commits
  refine ⟨fun ownProbers names built => ?_, mine.alive, rfl, ?_, mine, ?_⟩
  · have parts := builtFrom_of_build built
    simp only [served, ← parts.plan, ← parts.store]
  · have asked : refreshed.elapsed = finish.moment - began := rfl
    rw [asked, moment, Nat.add_sub_cancel_left, least, pops]
    rfl
  · intro other otherReplies otherScripted otherFinish place same
    exact mine.independent (otherScripted.statusForm fits) same

/-- The first PoP answers when the timeout is over, the second one a moment later. -/
def lastMoment : StatusReplies := fun place =>
  if place = 0 then ⟨some 10000, .success .blank⟩ else ⟨some 10001, .success .blank⟩

theorem status_closed_form_lastMoment : ∃ engine, build twoPops true = .ok engine ∧
    let t : Responder := .ofScript lastMoment fun _ _ => ⟨none, .crash⟩
    let refreshed := engine.refreshStatus t 100
    refreshed.elapsed = 10000 ∧
    refreshed.engine.store.state.popStatus = [.blank, .failed "deadline exceeded"] := by
  obtain ⟨engine, built⟩ := build_twoPops
  refine ⟨engine, built, ?_⟩
  intro t
  have scripted : ScriptedStatus t (planOf twoPops) 100 lastMoment := by
    refine scriptedStatus_ofScript fun place _ _ => ?_
    rw [lastMoment]
    split <;> nofun
  obtain ⟨serves, -, state, elapsed, closed, -⟩ := status_closed_form twoPops engine [] scripted
  intro refreshed
  have same : refreshed = _ := (congrArg (refreshStatus · t 100) (serves true _ built)).symm
  rw [same]
  constructor
  · have least : min ((Finset.range twoPops.pops.length).sup fun place =>
        (lastMoment place).duration) (twoPops.refresh.statusTimeout : ℕ∞) = (10000 : Nat) :=
      min_eq_right (Finset.le_sup (f := fun place => (lastMoment place).duration)
        (Finset.mem_range.mpr (by decide : 0 < twoPops.pops.length)))
    exact Nat.cast_inj.mp (elapsed.trans least)
  · obtain ⟨first, second, both⟩ := List.length_eq_two.mp closed.length
    have one := closed.records 0 first (by rw [both]; rfl)
    have two := closed.records 1 second (by rw [both]; rfl)
    have beyond : ((10000 : Nat) : ℕ∞) < (10001 : Nat) := Nat.cast_lt.mpr (by decide)
    have inTime : (lastMoment 0).duration ≤ (10000 : Nat) := le_refl _
    refine (congrArg (·.state.popStatus) state).trans (both.trans ?_)
    rw [one.unique (.reported inTime rfl), two.unique (.late beyond)]

end Steering.Engine
