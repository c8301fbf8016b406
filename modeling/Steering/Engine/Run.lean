import Steering.Engine.Basic
import Steering.Refresh.Loop
/-! Running an engine on virtual time: it begins to listen if it has a dashboard, and then its
refresh loop goes on beside a schedule of things that happen to it. -/

namespace Steering

/-- Why an engine does not run, or stopped without having been asked to. -/
inductive EngineFailure where
  | bind (address detail : String)
  | crashed
  | shutdownLost
deriving DecidableEq, Repr

/-- The wording of a failure. -/
def EngineFailure.message : EngineFailure → String
  | bind address detail =>
    "failed to bind observability server on " ++ address ++ ": " ++ detail
  | crashed => "engine task failed: task panicked"
  | shutdownLost => Shutdown.lostMessage

/-- How a loop that has ended came out. -/
def Refresh.Ending.result : Refresh.Ending → Except EngineFailure Unit
  | .shutdown .requested => .ok ()
  | .shutdown .lost => .error .shutdownLost
  | .crashed => .error .crashed

namespace Engine

open Refresh (Responder)

/-- What the system says to listening on an endpoint: the address that it comes to, or the
reason if it refuses. -/
abbrev Listener := Net.Endpoint → Except String String

/-- Listens on the first endpoint that the system does not refuse. If it refuses all of them, the last
reason counts; the first reason is for the case that there is none. -/
def listenOn (listener : Listener) : String → List Net.Endpoint → Except String String
  | reason, [] => .error reason
  | _, endpoint :: others =>
    match listener endpoint with
    | .ok address => .ok address
    | .error reason => listenOn listener reason others

/-- Begins to listen if there is a dashboard, and gives the address of it. -/
def listen (engine : Engine) (listener : Listener) (names : Net.NameService) :
    Except EngineFailure (Option String) :=
  match engine.observability with
  | none => .ok none
  | some o =>
    match (Net.Endpoint.resolve names o.bindAddress).bind
        (listenOn listener "could not resolve to any address") with
    | .error detail => .error (.bind o.bindAddress detail)
    | .ok address => .ok (some address)

/-- What happens while an engine runs. -/
inductive Happening where
  /-- Somebody looks at the state. -/
  | look
  | send (value : Bool)
  | dropSender
deriving DecidableEq, Repr

/-- The loop, the signal that it listens to, the address of the dashboard if there is one, and
the states that have been seen. -/
structure Running where
  loop : Refresh.Loop
  channel : Shutdown.Channel
  dashboard : Option String
  seen : List Store
deriving DecidableEq, Repr

/-- The engine after a run. -/
def afterRun (engine : Engine) (running : Running) : Engine :=
  { engine with store := running.loop.store }

/-- Starts an engine: once it listens, its loop is looked at for the first time. -/
def start (engine : Engine) (t : Responder) (listener : Listener) (channel : Shutdown.Channel)
    (names : Net.NameService := .offline) : Except EngineFailure Running := do
  let dashboard ← engine.listen listener names
  let (loop, channel) :=
    (Refresh.Loop.start 0 engine.store).poll t engine.plan 0 0 channel
  return ⟨loop, channel, dashboard, []⟩

/-- What joining the tasks of an engine comes to; nothing as long as it has to wait. A shutdown is
waited for until the task of the dashboard has stopped as well, if there is one, and any other end
of the loop aborts that task. -/
def join? (loop : Refresh.Loop) (served : Bool) : Option (Except EngineFailure Unit) :=
  match loop.ending with
  | none => none
  | some (_, ending) =>
    match ending.result with
    | .ok () => if served then some (.ok ()) else none
    | .error failure => some (.error failure)

/-- Lets time pass up to a moment. -/
def passUntil (engine : Engine) (t : Responder) (moment : Nat) (running : Running) : Running :=
  let (loop, channel) :=
    Refresh.Loop.runUntil t engine.plan 0 moment (moment + 1) (running.loop, running.channel)
  { running with loop, channel }

/-- What happens at a moment. A change of the signal makes the loop look at it. -/
def happen (engine : Engine) (t : Responder) (moment : Nat) (running : Running) :
    Happening → Running
  | .look => { running with seen := running.seen ++ [running.loop.store] }
  | .send value =>
    let channel := (running.channel.send? value).getD running.channel
    let (loop, channel) := running.loop.poll t engine.plan moment 0 channel
    { running with loop, channel }
  | .dropSender =>
    let (loop, channel) := running.loop.poll t engine.plan moment 0 running.channel.dropSender
    { running with loop, channel }

/-- Plays a schedule in its order. -/
def play (engine : Engine) (t : Responder) (schedule : List (Nat × Happening))
    (running : Running) : Running :=
  schedule.foldl (fun running (moment, happening) =>
    engine.happen t moment (engine.passUntil t moment running) happening) running

end Engine

end Steering
