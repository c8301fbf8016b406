import Mathlib.Data.List.Induction
import Mathlib.Data.List.TakeWhile
import Steering.Proofs.WaitAccess
/-! Waiting for the shutdown signal while the channel is in use by its sender and by any number of
receivers. What holds of a session in every history makes what a wait finds a matter of the latest
value and the sender alone. -/

namespace Steering.Shutdown

/-- A channel in use, and for each receiver its wait if it waits. -/
structure Session where
  channel : Channel
  waits : List (Option Wait)

/-- What can happen to a channel in use. -/
inductive Step where
  | send (value : Bool)
  | dropSender
  | clone (receiver : Nat)
  /-- A receiver begins to wait. -/
  | begin (receiver : Nat)
  /-- The wait of a receiver accesses the channel. -/
  | access (receiver : Nat)
  /-- The wait of a receiver is given up, whether it has ended or not. -/
  | abandon (receiver : Nat)
deriving DecidableEq, Repr

namespace Session

/-- A new channel, on which nobody waits. -/
def initial : Session := ⟨.initial, [none]⟩

/-- The session after a step. -/
def step (session : Session) : Step → Session
  | .send value => { session with channel := (session.channel.send? value).getD session.channel }
  | .dropSender => { session with channel := session.channel.dropSender }
  | .clone receiver => ⟨session.channel.cloneReceiver receiver, session.waits ++ [none]⟩
  | .begin receiver => { session with waits := session.waits.set receiver (some .looking) }
  | .access receiver =>
    match session.waits[receiver]? with
    | some (some wait) =>
      let (wait, channel) := session.channel.access receiver wait
      ⟨channel, session.waits.set receiver (some wait)⟩
    | _ => session
  | .abandon receiver => { session with waits := session.waits.set receiver none }

/-- The session after some steps. -/
def play (session : Session) (history : List Step) : Session :=
  history.foldl step session

theorem step_access {session : Session} {receiver : Nat} {wait : Wait}
    (found : session.waits[receiver]? = some (some wait)) :
    session.step (.access receiver) =
      ⟨(session.channel.access receiver wait).2,
        session.waits.set receiver (some (session.channel.access receiver wait).1)⟩ := by
  simp [step, found]

end Session

namespace Step

/-- The value that a step sends. -/
def sent? : Step → Option Bool
  | send value => some value
  | _ => none

/-- Whether a step adds a receiver. -/
def isClone : Step → Bool
  | clone _ => true
  | _ => false

end Step

/-- The latest value: the last that was sent while the sender was there. At first it is not set. -/
def latest (history : List Step) : Bool :=
  ((history.takeWhile (· ≠ .dropSender)).filterMap Step.sent?).getLast?.getD false

/-- How many receivers there are. -/
def receivers (history : List Step) : Nat :=
  1 + history.countP Step.isClone

/-- What there is to find for whoever waits at the end of a history. -/
def present (history : List Step) : Option Outcome :=
  if latest history then some .requested
  else if .dropSender ∈ history then some .lost
  else none

/-! ## Waits in a history -/

theorem latest_append_singleton (history : List Step) (step : Step) :
    latest (history ++ [step]) =
      if .dropSender ∈ history then latest history else step.sent?.getD (latest history) := by
  split
  · rename_i gone
    have short : (history.takeWhile (· ≠ .dropSender)).length ≠ history.length := by
      intro whole
      have all := List.takeWhile_eq_self_iff.mp
        ((List.takeWhile_prefix (l := history) (· ≠ .dropSender)).eq_of_length whole)
      simpa using all _ gone
    rw [latest, List.takeWhile_append, if_neg short, latest]
  · rename_i there
    have all : ∀ step ∈ history, decide (step ≠ .dropSender) = true := by
      intro step member
      have other : step ≠ .dropSender := fun same => there (same ▸ member)
      simpa using other
    rw [latest, latest, List.takeWhile_append_of_pos all, List.takeWhile_eq_self_iff.mpr all]
    cases step <;> simp [Step.sent?]

theorem latest_of_unsent {history : List Step} {step : Step} (unsent : step.sent? = none) :
    latest (history ++ [step]) = latest history := by
  rw [latest_append_singleton, unsent, Option.getD_none, ite_self]

theorem receivers_append_singleton (history : List Step) (step : Step) :
    receivers (history ++ [step]) = receivers history + if step.isClone then 1 else 0 := by
  rw [receivers, List.countP_append, List.countP_singleton, receivers, Nat.add_assoc]

/-- What holds of a session after a history. -/
structure Session.Sound (session : Session) (history : List Step) : Prop where
  value : session.channel.value = latest history
  sender : session.channel.senderAlive = true ↔ .dropSender ∉ history
  seen : ∀ seen ∈ session.channel.seen, seen ≤ session.channel.sends
  counted : session.channel.seen.length = receivers history
  waiting : session.waits.length = receivers history
  waits : ∀ (receiver : Nat) (wait : Wait), session.waits[receiver]? = some (some wait) →
    wait.Knows session.channel receiver

theorem sound_initial : Session.initial.Sound [] where
  value := rfl
  sender := by simp [Session.initial, Channel.initial]
  seen := by simp [Session.initial, Channel.initial]
  counted := rfl
  waiting := rfl
  waits := by
    intro receiver wait found
    cases receiver <;> simp [Session.initial] at found

/-- An access changes nothing but that its receiver may have seen the latest value. -/
theorem Channel.access_cases (channel : Channel) (receiver : Nat) (wait : Wait) :
    (channel.access receiver wait).2 = channel ∨
      (channel.access receiver wait).2 = channel.markSeen receiver := by
  cases wait with
  | looking => exact .inr rfl
  | closing | ended => exact .inl rfl
  | asking =>
    rw [access]
    split
    · exact .inr rfl
    · exact .inl rfl

/-- A receiver's own accesses do not count as another's. -/
theorem Channel.isUnseen_markSeen_of_ne {channel : Channel} {receiver other : Nat}
    (different : receiver ≠ other) :
    (channel.markSeen receiver).isUnseen other = channel.isUnseen other := by
  rw [isUnseen, isUnseen, markSeen, List.getElem?_set_ne different]

/-- What a wait knows depends on nothing of the channel but the value, the sender, and whether its
receiver has seen the value. -/
theorem Wait.Knows.congr {channel other : Channel} {receiver : Nat} {wait : Wait}
    (knows : wait.Knows channel receiver) (value : other.value = channel.value)
    (sender : other.senderAlive = channel.senderAlive)
    (unseen : other.isUnseen receiver = channel.isUnseen receiver) :
    wait.Knows other receiver := by
  cases wait with
  | looking | ended => trivial
  | asking => rwa [Knows, value, unseen]
  | closing => rwa [Knows, value, sender]

namespace Session.Sound

variable {session : Session} {history : List Step}

theorem outcome?_eq (sound : session.Sound history) :
    session.channel.outcome? = present history := by
  rw [Channel.outcome?, sound.value, present]
  split
  · rfl
  · split
    · rename_i alive
      rw [if_neg (sound.sender.mp alive)]
    · rename_i gone
      rw [if_pos (of_not_not (mt sound.sender.mpr gone))]

/-- A wait belongs to a receiver. -/
theorem inside (sound : session.Sound history) {receiver : Nat} {wait : Wait}
    (found : session.waits[receiver]? = some (some wait)) :
    receiver < session.channel.seen.length := by
  obtain ⟨within, -⟩ := List.getElem?_eq_some_iff.mp found
  rwa [sound.counted, ← sound.waiting]

theorem send (sound : session.Sound history) (value : Bool) :
    (session.step (.send value)).Sound (history ++ [.send value]) := by
  have latest := latest_append_singleton history (.send value)
  have count := receivers_append_singleton history (.send value)
  cases alive : session.channel.senderAlive with
  | true =>
    have there := sound.sender.mp alive
    have sent : session.step (.send value) =
        ⟨{ session.channel with value := value, sends := session.channel.sends + 1 },
          session.waits⟩ := by
      simp [Session.step, Channel.send?, alive]
    rw [sent]
    refine ⟨?_, ?_, fun seen member => Nat.le_succ_of_le (sound.seen seen member),
      sound.counted.trans count.symm, sound.waiting.trans count.symm, fun receiver wait found => ?_⟩
    · rw [latest, if_neg there]
      rfl
    · simp [alive, there]
    · cases wait with
      | looking | ended => trivial
      | asking =>
        -- Nobody has seen the new value yet.
        have within := sound.inside found
        have old := sound.seen _ (List.getElem_mem within)
        intro seen
        simp only [Channel.isUnseen, List.getElem?_eq_getElem within, Option.any_some,
          bne_eq_false_iff_eq] at seen
        omega
      | closing => exact absurd alive (by simp [(sound.waits receiver _ found).2])
  | false =>
    have gone : Step.dropSender ∈ history := by
      by_contra there
      exact absurd (sound.sender.mpr there) (by simp [alive])
    have same : session.step (.send value) = session := by
      simp [Session.step, Channel.send?, alive]
    rw [same]
    exact ⟨sound.value.trans (by rw [latest, if_pos gone]), by simp [alive, gone], sound.seen,
      sound.counted.trans count.symm, sound.waiting.trans count.symm, sound.waits⟩

theorem dropSender (sound : session.Sound history) :
    (session.step .dropSender).Sound (history ++ [.dropSender]) := by
  have count := receivers_append_singleton history .dropSender
  refine ⟨sound.value.trans (latest_of_unsent rfl).symm, by simp [Session.step, Channel.dropSender],
    sound.seen, sound.counted.trans count.symm, sound.waiting.trans count.symm,
    fun receiver wait found => ?_⟩
  have knows := sound.waits receiver wait found
  cases wait with
  | looking | ended => trivial
  | asking => exact knows
  | closing => exact ⟨knows.1, rfl⟩

theorem clone (sound : session.Sound history) (receiver : Nat) :
    (session.step (.clone receiver)).Sound (history ++ [.clone receiver]) := by
  have count := receivers_append_singleton history (.clone receiver)
  refine ⟨sound.value.trans (latest_of_unsent rfl).symm,
    by simpa [Session.step, Channel.cloneReceiver] using sound.sender, ?_, ?_, ?_, ?_⟩
  · intro seen member
    rcases List.mem_append.mp member with old | new
    · exact sound.seen seen old
    · rw [List.mem_singleton.mp new]
      cases found : session.channel.seen[receiver]? with
      | none => exact Nat.le_refl _
      | some own => exact sound.seen own (List.mem_of_getElem? found)
  · rw [count, ← sound.counted]
    exact List.length_append
  · rw [count, ← sound.waiting]
    exact List.length_append
  · intro other wait found
    have old : session.waits[other]? = some (some wait) := by
      change (session.waits ++ [none])[other]? = some (some wait) at found
      rw [List.getElem?_append] at found
      split at found
      · exact found
      · rw [List.getElem?_singleton] at found
        split at found <;> cases found
    refine (sound.waits other wait old).congr rfl rfl ?_
    rw [Channel.isUnseen, Channel.isUnseen, Session.step, Channel.cloneReceiver,
      List.getElem?_append_left (sound.inside old)]

/-- A step may be without effect. -/
theorem idle (sound : session.Sound history) {step : Step} (unsent : step.sent? = none)
    (stays : step ≠ .dropSender) (alone : step.isClone = false) :
    session.Sound (history ++ [step]) := by
  have count : receivers (history ++ [step]) = receivers history := by
    rw [receivers_append_singleton, alone]
    rfl
  refine ⟨sound.value.trans (latest_of_unsent unsent).symm, ?_, sound.seen,
    sound.counted.trans count.symm, sound.waiting.trans count.symm, sound.waits⟩
  simpa [stays.symm] using sound.sender

/-- A step of a receiver's own changes its wait, and the channel at most as an access does. -/
theorem own (sound : session.Sound history) {step : Step} {receiver : Nat} {wait : Option Wait}
    {channel : Channel} (unsent : step.sent? = none) (stays : step ≠ .dropSender)
    (alone : step.isClone = false)
    (accessed : channel = session.channel ∨ channel = session.channel.markSeen receiver)
    (knows : ∀ own, wait = some own → own.Knows channel receiver) :
    Session.Sound ⟨channel, session.waits.set receiver wait⟩ (history ++ [step]) := by
  have kept := sound.idle unsent stays alone
  have value : channel.value = session.channel.value := by
    rcases accessed with rfl | rfl <;> rfl
  have alive : channel.senderAlive = session.channel.senderAlive := by
    rcases accessed with rfl | rfl <;> rfl
  refine ⟨value.trans kept.value, by rw [alive, kept.sender], ?_, ?_,
    List.length_set.trans kept.waiting, fun other found its => ?_⟩
  · intro seen member
    rcases accessed with rfl | rfl
    · exact sound.seen seen member
    · rcases List.mem_or_eq_of_mem_set member with old | new
      · exact sound.seen seen old
      · exact Nat.le_of_eq new
  · rcases accessed with rfl | rfl
    · exact kept.counted
    · exact List.length_set.trans kept.counted
  · by_cases same : receiver = other
    · subst same
      rw [List.getElem?_set_self'] at its
      obtain ⟨old, -, new⟩ := Option.map_eq_some_iff.mp its
      exact knows found new
    · rw [List.getElem?_set_ne same] at its
      refine (sound.waits other found its).congr value alive ?_
      rcases accessed with rfl | rfl
      · rfl
      · exact Channel.isUnseen_markSeen_of_ne same

/-- Every step keeps what holds of a session. -/
theorem step (sound : session.Sound history) (step : Step) :
    (session.step step).Sound (history ++ [step]) := by
  cases step with
  | send value => exact sound.send value
  | dropSender => exact sound.dropSender
  | clone receiver => exact sound.clone receiver
  | begin receiver =>
    refine sound.own rfl (by simp) rfl (.inl rfl) fun own same => ?_
    cases same
    trivial
  | abandon receiver => exact sound.own rfl (by simp) rfl (.inl rfl) fun own same => nomatch same
  | access receiver =>
    cases found : session.waits[receiver]? with
    | none =>
      have same : session.step (.access receiver) = session := by simp [Session.step, found]
      rw [same]
      exact sound.idle rfl (by simp) rfl
    | some wait =>
      cases wait with
      | none =>
        have same : session.step (.access receiver) = session := by simp [Session.step, found]
        rw [same]
        exact sound.idle rfl (by simp) rfl
      | some wait =>
        rw [Session.step_access found]
        refine sound.own rfl (by simp) rfl (Channel.access_cases _ _ _) fun own same => ?_
        cases same
        exact (sound.waits receiver wait found).access

end Session.Sound

theorem sound_play (history : List Step) : (Session.initial.play history).Sound history := by
  induction history using List.reverseRecOn with
  | nil => exact sound_initial
  | append_singleton history step ih =>
    rw [Session.play, List.foldl_append]
    exact ih.step step

/-- The accesses of a wait are those that it makes with the channel to itself. -/
theorem Session.play_accesses {session : Session} {receiver : Nat} {wait : Wait}
    (under : session.waits[receiver]? = some (some wait)) (accesses : Nat) :
    session.play (List.replicate accesses (.access receiver)) =
      ⟨(session.channel.proceed receiver accesses wait).2,
        session.waits.set receiver (some (session.channel.proceed receiver accesses wait).1)⟩ := by
  obtain ⟨within, its⟩ := List.getElem?_eq_some_iff.mp under
  induction accesses generalizing session wait with
  | zero =>
    have same : session.waits.set receiver (some wait) = session.waits := by
      rw [← its, List.set_getElem_self]
    rw [Channel.proceed, same]
    rfl
  | succ accesses ih =>
    have next := List.getElem?_set_self (a := some (session.channel.access receiver wait).1) within
    rw [List.replicate_succ, play, List.foldl_cons, step_access under, Channel.proceed]
    refine (ih next (by rwa [List.length_set]) (List.getElem_set_self _)).trans ?_
    rw [List.set_set]

/-- A receiver that begins to wait and is not disturbed waits as the program does. -/
theorem Session.play_wait {session : Session} {receiver : Nat}
    (there : receiver < session.waits.length) {accesses : Nat} (enough : 3 ≤ accesses) :
    (session.step (.begin receiver)).play (List.replicate accesses (.access receiver)) =
      ⟨(session.channel.wait receiver).2,
        session.waits.set receiver (some (.found (session.channel.wait receiver).1))⟩ := by
  have begun : (session.step (.begin receiver)).waits[receiver]? = some (some .looking) :=
    List.getElem?_set_self there
  have channel : (session.step (.begin receiver)).channel = session.channel := rfl
  rw [play_accesses begun, channel, Channel.proceed_looking enough]
  exact congrArg _ (List.set_set ..)

/-- Whatever happened to the channel before, whoever waits finds what the latest value and the sender
make of it now: a receiver that waits now, be it the first or a clone, and one whose wait is under
way. A wait never ends in anything else, and if nothing comes in between it gets there with at most
four accesses and then stays. -/
theorem wait_finds_present (history : List Step) {receiver : Nat}
    (there : receiver < receivers history) :
    let session := Session.initial.play history
    (session.channel.wait receiver).1 = present history ∧
    (∀ accesses, 3 ≤ accesses →
      (session.step (.begin receiver)).play (List.replicate accesses (.access receiver)) =
        ⟨(session.channel.wait receiver).2,
          session.waits.set receiver (some (.found (present history)))⟩) ∧
    ∀ wait, session.waits[receiver]? = some (some wait) → (∀ outcome, wait ≠ .ended outcome) →
      (∀ outcome, (session.step (.access receiver)).waits[receiver]? = some (some (.ended outcome)) →
        present history = some outcome) ∧
      ∀ accesses, 4 ≤ accesses →
        (session.play (List.replicate accesses (.access receiver))).waits[receiver]? =
          some (some (.found (present history))) := by
  intro session
  have sound := sound_play history
  have outcome := sound.outcome?_eq
  have waits : (session.channel.wait receiver).1 = present history := by
    rw [Channel.wait_eq]
    exact outcome
  refine ⟨waits, fun accesses enough => ?_, fun wait under going => ?_⟩
  · rw [← waits]
    exact Session.play_wait (sound.waiting ▸ there) enough
  · have knows := sound.waits receiver wait under
    have within := (List.getElem?_eq_some_iff.mp under).1
    refine ⟨fun ending ends => ?_, fun accesses enough => ?_⟩
    · rw [Session.step_access under, List.getElem?_set_self within] at ends
      rw [← outcome]
      exact knows.outcome?_of_access going (by simpa using ends)
    · rw [Session.play_accesses under, List.getElem?_set_self within,
        knows.proceed (Nat.le_trans Wait.remaining_le enough), ← outcome]
      cases wait with
      | looking | asking | closing => rfl
      | ended other => exact absurd rfl (going other)

/-- The sender sets the value and goes while a clone asks for a change. The first receiver has given
up on a wait and not seen the value. -/
def overtaken : List Step :=
  [.send false, .begin 0, .access 0, .access 0, .abandon 0, .clone 0, .begin 1, .access 1, .access 1,
    .send false, .send true, .dropSender]

theorem wait_finds_present_overtaken : 1 < receivers overtaken ∧
    ((Session.initial.play overtaken).channel.wait 1).1 = some .requested ∧
    (Session.initial.play overtaken).waits[1]? = some (some .asking) ∧
    ((Session.initial.play overtaken).play (List.replicate 4 (.access 1))).waits[1]? =
      some (some (.ended .requested)) := by
  have there : 1 < receivers overtaken := by decide
  have set : present overtaken = some .requested := by decide
  have asks : (Session.initial.play overtaken).waits[1]? = some (some .asking) := by decide
  obtain ⟨waits, -, under⟩ := wait_finds_present overtaken there
  refine ⟨there, waits.trans set, asks, ?_⟩
  rw [(under .asking asks (by simp)).2 4 (Nat.le_refl 4), set]
  rfl

end Steering.Shutdown
