import Steering.Report.PopStatus
import Steering.Report.Probe
/-! Calls to PoPs and probers on virtual time: when a call ends and with what. A call that is
due exactly at its deadline still counts, and one that is answered at once counts even after
it. -/

namespace Steering.Refresh

/-- How a call ends. -/
inductive Outcome (ε α : Type) where
  | success (value : α)
  | failure (reason : ε)
  /-- The task that made the call dies. -/
  | crash
deriving DecidableEq, Repr

/-- What a transport does with a call: how many milliseconds it takes, or that it never ends,
and how the call ends. -/
structure Reply (ε α : Type) where
  delay : Option Nat
  outcome : Outcome ε α
deriving DecidableEq, Repr

/-- A call that has been made: when it ends, and how. -/
structure Call (ε α : Type) where
  due : Nat
  outcome : Outcome ε α
deriving DecidableEq, Repr

/-- The call that is made now under a deadline, where `late` is the reason of a call that is
given up. -/
def Reply.call {ε α : Type} (reply : Reply ε α) (late : ε) (now deadline : Nat) : Call ε α :=
  let givenUp : Call ε α := ⟨max now deadline, .failure late⟩
  match reply.delay with
  | some delay =>
    if delay = 0 ∨ now + delay ≤ deadline then ⟨now + delay, reply.outcome⟩ else givenUp
  | none => givenUp

/-- The transports of an engine: what they do with each call, by the moment at which it is
made. A measurement is asked of the prober of a region. -/
structure Transports where
  fetch : Nat → Net.Ipv4 → Reply FetchFailure PopStatus
  measure : Nat → Nat → String → Reply MeasureFailure Binary64

/-- What becomes of the calls of a phase. The calls for two PoPs may be answered differently even if
they are the same request at the same moment, so the place of the PoP stands before what is asked
for. -/
structure Responder where
  fetch : Nat → Nat → Net.Ipv4 → Reply FetchFailure PopStatus
  measure : Nat → Nat → Nat → String → Reply MeasureFailure Binary64

/-- Transports answer without regard to the places of PoPs. -/
def Transports.responder (t : Transports) : Responder where
  fetch now _ address := t.fetch now address
  measure now region _ endpoint := t.measure now region endpoint

instance : Coe Transports Responder where
  coe := Transports.responder

end Steering.Refresh
