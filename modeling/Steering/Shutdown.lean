/-! The shutdown signal: a channel that holds one flag, its sender, and any number of receivers.
Each receiver remembers which value it saw last, and waiting is a sequence of turns. -/

namespace Steering.Shutdown

/-- The channel: the latest value, how often it was set, whether the sender is still there, and
for each receiver how often the value had been set when it last looked. -/
structure Channel where
  value : Bool
  sends : Nat
  senderAlive : Bool
  seen : List Nat
deriving DecidableEq, Repr

/-- How waiting for the signal ends. -/
inductive Outcome where
  /-- Shutdown was requested. -/
  | requested
  /-- The sender is gone and never requested it. -/
  | lost
deriving DecidableEq, Repr

/-- The wording of a lost signal. -/
def lostMessage : String :=
  "shutdown signal dropped without being triggered"

namespace Channel

/-- A new channel with its sender and one receiver. -/
def initial : Channel := ⟨false, 0, true, [0]⟩

/-- Sends a value; nothing if the sender is gone. -/
def send? (channel : Channel) (value : Bool) : Option Channel :=
  if channel.senderAlive then some { channel with value := value, sends := channel.sends + 1 }
  else none

/-- Drops the sender. -/
def dropSender (channel : Channel) : Channel :=
  { channel with senderAlive := false }

/-- Adds a receiver that has seen what a given one has. -/
def cloneReceiver (channel : Channel) (receiver : Nat) : Channel :=
  { channel with seen := channel.seen ++ [channel.seen[receiver]?.getD channel.sends] }

/-- Whether a receiver has not seen the latest value. -/
def isUnseen (channel : Channel) (receiver : Nat) : Bool :=
  channel.seen[receiver]?.any (· != channel.sends)

/-- Notes that a receiver has seen the latest value. -/
def markSeen (channel : Channel) (receiver : Nat) : Channel :=
  { channel with seen := channel.seen.set receiver channel.sends }

/-- What a turn of waiting comes to. -/
inductive Turn where
  | done (outcome : Outcome)
  | again
  | pending
deriving DecidableEq, Repr

/-- One turn of waiting: the receiver looks at the value, and unless it is set, asks for a
change. An unseen value makes another turn, a dropped sender ends the wait, and otherwise the
receiver has to wait. -/
def turn (channel : Channel) (receiver : Nat) : Turn × Channel :=
  let looked := channel.markSeen receiver
  if looked.value then (.done .requested, looked)
  else if looked.isUnseen receiver then (.again, looked.markSeen receiver)
  else if looked.senderAlive then (.pending, looked)
  else (.done (if looked.value then .requested else .lost), looked)

/-- Takes turns until the wait ends or has to go on later. Nothing comes in between the turns,
so two of them are enough. -/
def waitFor : Nat → Channel → Nat → Option Outcome × Channel
  | 0, channel, _ => (none, channel)
  | turns + 1, channel, receiver =>
    match channel.turn receiver with
    | (.done outcome, channel) => (some outcome, channel)
    | (.pending, channel) => (none, channel)
    | (.again, channel) => waitFor turns channel receiver

/-- What a receiver finds that waits now: the outcome, or nothing if it has to wait. -/
def wait (channel : Channel) (receiver : Nat) : Option Outcome × Channel :=
  channel.waitFor 2 receiver

end Channel

end Steering.Shutdown
