import Steering.Proofs.SignalWait
/-! A wait for the shutdown signal, access by access. Between two accesses the channel may change; if
it does not, the wait gets within four of them to what there is to find. -/

namespace Steering.Shutdown

/-- Where a wait has got to. -/
inductive Wait where
  /-- It is going to look at the value. -/
  | looking
  /-- The value was not set, and it asks for a change. -/
  | asking
  /-- The sender was gone, and it is going to look at the value for the last time. -/
  | closing
  | ended (outcome : Outcome)
deriving DecidableEq, Repr

namespace Channel

/-- One access of a wait to the channel. A wait that asks in vain goes on asking. -/
def access (channel : Channel) (receiver : Nat) : Wait → Wait × Channel
  | .looking =>
    let looked := channel.markSeen receiver
    (if looked.value then .ended .requested else .asking, looked)
  | .asking =>
    if channel.isUnseen receiver then (.looking, channel.markSeen receiver)
    else (if channel.senderAlive then .asking else .closing, channel)
  | .closing => (.ended (if channel.value then .requested else .lost), channel)
  | .ended outcome => (.ended outcome, channel)

/-- Some accesses of a wait, one after another. -/
def proceed (channel : Channel) (receiver : Nat) : Nat → Wait → Wait × Channel
  | 0, wait => (wait, channel)
  | accesses + 1, wait =>
    let (wait, channel) := channel.access receiver wait
    channel.proceed receiver accesses wait

end Channel

section Alone

variable {channel : Channel} {receiver : Nat} {wait : Wait}

/-- A wait knows what it acts on: unless there is a value that its receiver has not seen, the value
it has seen was not set, and it ends without the sender only where the sender is gone. -/
def Wait.Knows (channel : Channel) (receiver : Nat) : Wait → Prop
  | looking => True
  | asking => channel.isUnseen receiver = false → channel.value = false
  | closing => channel.value = false ∧ channel.senderAlive = false
  | ended _ => True

/-- Where a wait stays that has found an outcome, or that there is none yet. -/
def Wait.found : Option Outcome → Wait
  | some outcome => ended outcome
  | none => asking

/-- Where a wait gets if nothing comes in between. -/
def Wait.settled (channel : Channel) : Wait → Wait
  | ended outcome => ended outcome
  | _ => found channel.outcome?

/-- How many accesses a wait makes at most until nothing changes any more. -/
def Wait.remaining (channel : Channel) (receiver : Nat) : Wait → Nat
  | looking => 3
  | asking => if channel.isUnseen receiver then 4 else if channel.senderAlive then 0 else 2
  | closing => 1
  | ended _ => 0

theorem Wait.remaining_le : wait.remaining channel receiver ≤ 4 := by
  cases wait with
  | looking | closing | ended => simp [remaining]
  | asking =>
    rw [remaining]
    split
    · omega
    · split <;> omega

theorem Wait.Knows.access (knows : wait.Knows channel receiver) :
    (channel.access receiver wait).1.Knows (channel.access receiver wait).2 receiver := by
  cases wait with
  | looking =>
    cases latest : channel.value with
    | true => simp [Channel.access, Channel.markSeen, latest, Knows]
    | false => simp [Channel.access, Channel.markSeen, latest, Knows]
  | asking =>
    cases unseen : channel.isUnseen receiver with
    | true => simp [Channel.access, unseen, Knows]
    | false =>
      cases alive : channel.senderAlive with
      | true => simpa [Channel.access, unseen, alive] using knows
      | false => simpa [Channel.access, unseen, alive, Knows] using knows
  | closing => trivial
  | ended => trivial

theorem Wait.Knows.settled_access (knows : wait.Knows channel receiver) :
    (channel.access receiver wait).1.settled (channel.access receiver wait).2 =
      wait.settled channel := by
  cases wait with
  | looking =>
    cases latest : channel.value with
    | true => simp [Channel.access, Channel.markSeen, Channel.outcome?, latest, settled, found]
    | false => simp [Channel.access, Channel.markSeen, Channel.outcome?, latest, settled]
  | asking =>
    cases unseen : channel.isUnseen receiver with
    | true => simp [Channel.access, unseen, settled, Channel.outcome?, Channel.markSeen]
    | false =>
      cases alive : channel.senderAlive with
      | true => simp [Channel.access, unseen, alive]
      | false => simp [Channel.access, unseen, alive, settled]
  | closing =>
    obtain ⟨unset, gone⟩ := knows
    simp [Channel.access, settled, found, Channel.outcome?, unset, gone]
  | ended => rfl

theorem Wait.remaining_access :
    (channel.access receiver wait).1.remaining (channel.access receiver wait).2 receiver ≤
      wait.remaining channel receiver - 1 := by
  cases wait with
  | looking =>
    have unseen := Channel.isUnseen_markSeen channel receiver
    cases latest : (channel.markSeen receiver).value with
    | true => simp [Channel.access, latest, remaining]
    | false =>
      cases alive : (channel.markSeen receiver).senderAlive with
      | true => simp [Channel.access, latest, remaining, unseen, alive]
      | false => simp [Channel.access, latest, remaining, unseen, alive]
  | asking =>
    cases unseen : channel.isUnseen receiver with
    | true => simp [Channel.access, unseen, remaining]
    | false =>
      cases alive : channel.senderAlive with
      | true => simp [Channel.access, unseen, alive, remaining]
      | false => simp [Channel.access, unseen, alive, remaining]
  | closing => simp [Channel.access, remaining]
  | ended => simp [Channel.access, remaining]

theorem Wait.Knows.eq_settled (knows : wait.Knows channel receiver)
    (rests : wait.remaining channel receiver = 0) : wait = wait.settled channel := by
  cases wait with
  | looking => cases rests
  | closing => cases rests
  | ended => rfl
  | asking =>
    cases unseen : channel.isUnseen receiver with
    | true => simp [remaining, unseen] at rests
    | false =>
      cases alive : channel.senderAlive with
      | true => simp [settled, found, Channel.outcome?, knows unseen, alive]
      | false => simp [remaining, unseen, alive] at rests

/-- A wait gets where it settles. -/
theorem Wait.Knows.proceed (knows : wait.Knows channel receiver) {accesses : Nat}
    (enough : wait.remaining channel receiver ≤ accesses) :
    (channel.proceed receiver accesses wait).1 = wait.settled channel := by
  induction accesses generalizing channel wait with
  | zero => exact knows.eq_settled (Nat.le_zero.mp enough)
  | succ accesses ih =>
    rw [Channel.proceed, ← knows.settled_access]
    exact ih knows.access (Nat.le_trans Wait.remaining_access (by omega))

/-- A wait ends only in what there is to find. -/
theorem Wait.Knows.outcome?_of_access (knows : wait.Knows channel receiver)
    (going : ∀ outcome, wait ≠ .ended outcome) {outcome : Outcome}
    (ends : (channel.access receiver wait).1 = .ended outcome) :
    channel.outcome? = some outcome := by
  have settled : wait.settled channel = .ended outcome := by
    rw [← knows.settled_access, ends, settled]
  have found : Wait.found channel.outcome? = .ended outcome := by
    cases wait with
    | looking | asking | closing => exact settled
    | ended other => exact absurd rfl (going other)
  cases there : channel.outcome? with
  | none => simp [Wait.found, there] at found
  | some other => simpa [Wait.found, there] using found

/-- A receiver that has seen the value changes nothing when it asks. -/
theorem Channel.proceed_seen (seen : channel.isUnseen receiver = false) (started : wait ≠ .looking)
    (accesses : Nat) : (channel.proceed receiver accesses wait).2 = channel := by
  induction accesses generalizing wait with
  | zero => rfl
  | succ accesses ih =>
    rw [proceed]
    cases wait with
    | looking => exact absurd rfl started
    | asking =>
      rw [access, if_neg (by simp [seen])]
      refine ih ?_
      split <;> simp
    | closing => exact ih (by simp)
    | ended outcome => exact ih (by simp)

/-- The program waits as a wait does that has the channel to itself. -/
theorem Channel.proceed_looking {accesses : Nat} (enough : 3 ≤ accesses) :
    channel.proceed receiver accesses .looking =
      (.found (channel.wait receiver).1, (channel.wait receiver).2) := by
  have knows : Wait.Knows channel receiver .looking := trivial
  refine Prod.ext ?_ ?_
  · rw [knows.proceed enough, wait_eq]
    rfl
  · obtain ⟨rest, rfl⟩ := Nat.exists_eq_add_of_le' enough
    rw [wait_eq, proceed, access]
    refine proceed_seen (isUnseen_markSeen channel receiver) ?_ (rest + 2)
    split <;> simp

end Alone

end Steering.Shutdown
