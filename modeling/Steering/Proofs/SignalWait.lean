import Steering.Shutdown
/-! What a receiver finds that waits for the shutdown signal: only the latest value and the sender
count, however often the value was set before. -/

namespace Steering.Shutdown.Channel

/-- The outcome that is there for whoever waits now. -/
def outcome? (channel : Channel) : Option Outcome :=
  if channel.value then some .requested
  else if channel.senderAlive then none
  else some .lost

theorem isUnseen_markSeen (channel : Channel) (receiver : Nat) :
    (channel.markSeen receiver).isUnseen receiver = false := by
  cases found : channel.seen[receiver]? with
  | none =>
    have outside := List.getElem?_eq_none_iff.mp found
    simp [isUnseen, markSeen, outside]
  | some seen =>
    obtain ⟨inside, -⟩ := List.getElem?_eq_some_iff.mp found
    simp [isUnseen, markSeen, inside]

/-- Waiting finds the outcome that is there, and the receiver has seen the latest value. -/
theorem wait_eq (channel : Channel) (receiver : Nat) :
    channel.wait receiver = (channel.outcome?, channel.markSeen receiver) := by
  have unseen := isUnseen_markSeen channel receiver
  have value : (channel.markSeen receiver).value = channel.value := rfl
  have sender : (channel.markSeen receiver).senderAlive = channel.senderAlive := rfl
  cases latest : channel.value with
  | true => simp [wait, waitFor, turn, outcome?, value, latest]
  | false =>
    cases alive : channel.senderAlive with
    | true => simp [wait, waitFor, turn, outcome?, unseen, value, latest, sender, alive]
    | false => simp [wait, waitFor, turn, outcome?, unseen, value, latest, sender, alive]

theorem outcome?_eq_requested_iff {channel : Channel} :
    channel.outcome? = some .requested ↔ channel.value = true := by
  unfold outcome?
  split
  · simp_all
  · split <;> simp_all

theorem outcome?_eq_lost_iff {channel : Channel} :
    channel.outcome? = some .lost ↔ channel.value = false ∧ channel.senderAlive = false := by
  unfold outcome?
  split
  · simp_all
  · split <;> simp_all

theorem outcome?_eq_none_iff {channel : Channel} :
    channel.outcome? = none ↔ channel.value = false ∧ channel.senderAlive = true := by
  unfold outcome?
  split
  · simp_all
  · split <;> simp_all

end Steering.Shutdown.Channel
