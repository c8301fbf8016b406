import Steering.Refresh.Loop
/-! Calls whose replies are not known when they are made. Such a call ends at the deadline unless
its reply arrives before; an arrival for a call that nobody waits for any more changes
nothing. -/

namespace Steering.Refresh

/-- Nobody answers: the calls never end by themselves. -/
def Responder.silent : Responder where
  fetch _ _ _ := ⟨none, .crash⟩
  measure _ _ _ _ := ⟨none, .crash⟩

/-- A call that is waited for, by the deadline of its phase and its place there. -/
inductive Awaited where
  | fetch (deadline place : Nat) (address : Net.Ipv4)
  | measure (deadline region place : Nat) (endpoint : String)
deriving DecidableEq, Repr

/-- The deadline of a call. -/
def Awaited.deadline : Awaited → Nat
  | fetch deadline _ _ => deadline
  | measure deadline _ _ _ => deadline

/-- The calls that a phase waits for. -/
def Phase.awaited (plan : Plan) : Phase → List Awaited
  | status deadline slots => slots.zipIdx.filterMap fun
      | ((address, .waiting _), place) => some (.fetch deadline place address)
      | _ => none
  | latency deadline passes => passes.zipIdx.filterMap fun
      | (.waiting latencies _ _, region) =>
        plan.endpoints[latencies.length]?.map (.measure deadline region latencies.length)
      | _ => none

/-- A reply that has arrived, for the call at a place. -/
inductive Arrival where
  | fetched (deadline place : Nat) (outcome : Outcome FetchFailure PopStatus)
  | measured (deadline region place : Nat) (outcome : Outcome MeasureFailure Binary64)

/-- Ends the fetch that a reply is for. -/
def Slot.arrive (now : Nat) (outcome : Outcome FetchFailure PopStatus) : Slot → Slot
  | waiting _ => waiting ⟨now, outcome⟩
  | slot => slot

/-- Ends the measurement that a reply is for. -/
def Pass.arrive (now place : Nat) (outcome : Outcome MeasureFailure Binary64) : Pass → Pass
  | waiting latencies call remaining =>
    waiting latencies (if latencies.length = place then ⟨now, outcome⟩ else call) remaining
  | pass => pass

/-- A phase after an arrival. -/
def Phase.arrive (now : Nat) : Arrival → Phase → Phase
  | .fetched deadline place outcome, status d slots =>
    if d = deadline then
      status d (slots.modify place fun (address, slot) => (address, slot.arrive now outcome))
    else status d slots
  | .measured deadline region place outcome, latency d passes =>
    if d = deadline then latency d (passes.modify region (Pass.arrive now place outcome))
    else latency d passes
  | _, phase => phase

namespace Loop

/-- The calls that the loop waits for. -/
def awaited (plan : Plan) (loop : Loop) : List Awaited :=
  match loop.ending, loop.stage with
  | none, .working phase => phase.awaited plan
  | _, _ => []

/-- The loop after an arrival, before it is looked at again. -/
def arrive (now : Nat) (arrival : Arrival) (loop : Loop) : Loop :=
  match loop.stage with
  | .working phase => { loop with stage := .working (phase.arrive now arrival) }
  | .sleeping _ => loop

end Loop

end Steering.Refresh
