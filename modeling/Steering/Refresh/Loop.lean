import Steering.Refresh.Phase
import Steering.Shutdown
/-! The refresh loop: a status phase, a latency phase and a pause, again and again, until the
shutdown signal ends it. The signal is looked at before anything else, whenever the loop is
looked at, and a phase that it interrupts commits nothing more. -/

namespace Steering.Refresh

/-- What the loop is doing. -/
inductive Stage where
  | working (phase : Phase)
  | sleeping (wakeUp : Nat)
deriving DecidableEq, Repr

/-- How the loop ended. -/
inductive Ending where
  | shutdown (outcome : Shutdown.Outcome)
  | crashed
deriving DecidableEq, Repr

/-- The loop: what it is doing, the state that it keeps fresh, what it has done and when, and
how and when it ended. -/
structure Loop where
  stage : Stage
  store : Store
  journal : List (Nat × Entry)
  ending : Option (Nat × Ending)
deriving DecidableEq, Repr

namespace Loop

/-- The loop before it is looked at for the first time, which makes it begin. -/
def start (now : Nat) (store : Store) : Loop :=
  ⟨.sleeping now, store, [], none⟩

/-- Ends the loop. -/
def finish (loop : Loop) (now : Nat) (ending : Ending) : Loop :=
  { loop with ending := some (now, ending) }

/-- Begins a status phase when the pause is over. -/
def wake (plan : Plan) (now : Nat) (loop : Loop) : Loop :=
  match loop.stage with
  | .sleeping wakeUp =>
    if wakeUp ≤ now then { loop with stage := .working (.beginStatus plan now) } else loop
  | .working _ => loop

/-- Looks at a phase and goes on to `next` when it has ended. -/
def work (t : Responder) (plan : Plan) (now : Nat) (loop : Loop) (phase : Phase)
    (next : Stage) : Loop :=
  let (entries, store, progress) := phase.poll t plan now loop.store
  let worked := { loop with store, journal := loop.journal ++ entries.map (now, ·) }
  match progress with
  | .waiting phase => { worked with stage := .working phase }
  | .finished => { worked with stage := next }
  | .crashed phase => { worked with stage := .working phase }.finish now .crashed

/-- Looks at the status phase, if that is what the loop is doing. -/
def workStatus (t : Responder) (plan : Plan) (now : Nat) (loop : Loop) : Loop :=
  match loop.stage with
  | .working (.status deadline slots) =>
    loop.work t plan now (.status deadline slots) (.working (.beginLatency plan now))
  | _ => loop

/-- Looks at the latency phase, if that is what the loop is doing. -/
def workLatency (t : Responder) (plan : Plan) (now : Nat) (loop : Loop) : Loop :=
  match loop.stage with
  | .working (.latency deadline passes) =>
    loop.work t plan now (.latency deadline passes) (.sleeping (now + plan.interval))
  | _ => loop

/-- Goes as far as the loop can now. -/
def proceed (t : Responder) (plan : Plan) (now : Nat) (loop : Loop) : Loop :=
  let loop := (loop.wake plan now).workStatus t plan now
  if loop.ending.isSome then loop else loop.workLatency t plan now

section Proceed

variable {t : Responder} {plan : Plan} {now wakeUp : Nat} {loop : Loop}

/-- A loop whose pause is over goes on from the beginning of a status phase. -/
theorem proceed_of_awake (stage : loop.stage = .sleeping wakeUp) (passed : wakeUp ≤ now) :
    loop.proceed t plan now =
      { loop with stage := .working (.beginStatus plan now) }.proceed t plan now := by
  have awake : loop.wake plan now = { loop with stage := .working (.beginStatus plan now) } := by
    simp only [wake, stage, passed, if_true]
  rw [proceed, proceed, awake]
  rfl

theorem proceed_of_asleep (stage : loop.stage = .sleeping wakeUp) (early : ¬ wakeUp ≤ now)
    (going : loop.ending = none) : loop.proceed t plan now = loop := by
  simp only [proceed, wake, stage, early, if_false, workStatus, going, Option.isSome_none,
    Bool.false_eq_true, workLatency]

theorem proceed_of_latency {deadline : Nat} {passes : List Pass}
    (stage : loop.stage = .working (.latency deadline passes)) (going : loop.ending = none) :
    loop.proceed t plan now = loop.workLatency t plan now := by
  simp only [proceed, wake, stage, workStatus, going, Option.isSome_none, Bool.false_eq_true,
    if_false]

end Proceed

/-- Looks at the loop, which first looks at the shutdown signal as a receiver of it. -/
def poll (t : Responder) (plan : Plan) (now : Nat) (receiver : Nat)
    (channel : Shutdown.Channel) (loop : Loop) : Loop × Shutdown.Channel :=
  if loop.ending.isSome then (loop, channel)
  else
    match channel.wait receiver with
    | (some outcome, channel) => (loop.finish now (.shutdown outcome), channel)
    | (none, channel) => (loop.proceed t plan now, channel)

/-- The next moment that the loop waits for. -/
def nextDue? (loop : Loop) : Option Nat :=
  if loop.ending.isSome then none
  else
    match loop.stage with
    | .working phase => phase.dues.min?
    | .sleeping wakeUp => some wakeUp

/-- Looks at the loop at every moment it waits for before a limit, while nothing happens to the
signal. The moments grow, so as many looks as milliseconds are enough. -/
def runUntil (t : Responder) (plan : Plan) (receiver limit : Nat) :
    Nat → Loop × Shutdown.Channel → Loop × Shutdown.Channel
  | 0, state => state
  | fuel + 1, (loop, channel) =>
    match loop.nextDue? with
    | none => (loop, channel)
    | some due =>
      if due < limit then
        runUntil t plan receiver limit fuel (loop.poll t plan due receiver channel)
      else (loop, channel)

end Loop

end Steering.Refresh
