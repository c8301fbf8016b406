import Steering.Refresh.Arrival
/-! The course of everything that refreshes one state: the loop, and phases that are asked for by
hand beside it. Time passes, and then one of them is looked at, a reply arrives, or something
happens to the shutdown signal. -/

namespace Steering.Refresh

/-- Who refreshes the state. -/
inductive Actor where
  | loop
  /-- The refresh by hand at a place in the order in which they began. -/
  | byHand (place : Nat)
deriving DecidableEq, Repr

/-- What was done, by whom and when. -/
structure Deed where
  actor : Actor
  moment : Nat
  entry : Entry
deriving DecidableEq, Repr

/-- A refresh by hand. It is broken off when a call crashes or its caller gives it up. -/
inductive Manual where
  | going (phase : Phase)
  | finished
  | brokenOff (phase : Phase)
deriving DecidableEq, Repr

/-- A refresh by hand after its phase has been looked at. -/
def Manual.ofProgress : Progress → Manual
  | .waiting phase => going phase
  | .finished => finished
  | .crashed phase => brokenOff phase

/-- A refresh by hand that nobody waits for any more. -/
def Manual.giveUp : Manual → Manual
  | going phase => brokenOff phase
  | manual => manual

/-- What can happen. The loop is the first receiver of the signal. -/
inductive Event where
  /-- The loop is looked at. -/
  | poll
  /-- A reply arrives for a call of the loop. -/
  | arrive (arrival : Arrival)
  | send (value : Bool)
  | dropSender
  | cloneReceiver (receiver : Nat)
  /-- A receiver of the signal waits for it. -/
  | await (receiver : Nat)
  /-- A status phase is asked for by hand. -/
  | beginStatus
  /-- A latency phase is asked for by hand. -/
  | beginLatency
  /-- A refresh by hand is looked at. -/
  | look (place : Nat)
  /-- A refresh by hand is given up. -/
  | giveUp (place : Nat)

/-- Whether an event belongs to a refresh by hand. -/
def Event.isByHand : Event → Bool
  | beginStatus | beginLatency | look _ | giveUp _ => true
  | _ => false

/-- How far things have come. The state that everybody refreshes is the one of the loop. -/
structure Course where
  clock : Nat
  loop : Loop
  channel : Shutdown.Channel
  manuals : List Manual
  /-- What was done so far, in its order. -/
  history : List Deed
  /-- The replies that have arrived for the loop so far. -/
  heard : List Arrival

namespace Course

/-- The course before anything has happened. -/
def start (store : Store) (channel : Shutdown.Channel) : Course :=
  ⟨0, .start 0 store, channel, [], [], []⟩

/-- Looks at the loop. -/
def poll (t : Responder) (plan : Plan) (course : Course) : Course :=
  let (loop, channel) := course.loop.poll t plan course.clock 0 course.channel
  let news := loop.journal.drop course.loop.journal.length
  { course with
    loop, channel
    history := course.history ++ news.map fun (moment, entry) => ⟨.loop, moment, entry⟩ }

/-- Looks at the phase of a refresh by hand. -/
def look (t : Responder) (plan : Plan) (place : Nat) (phase : Phase) (course : Course) : Course :=
  let (entries, store, progress) := phase.poll t plan course.clock course.loop.store
  { course with
    loop := { course.loop with store }
    manuals := course.manuals.set place (.ofProgress progress)
    history := course.history ++ entries.map fun entry => ⟨.byHand place, course.clock, entry⟩ }

/-- Begins a refresh by hand, which is looked at at once. -/
def begin (t : Responder) (plan : Plan) (phase : Phase) (course : Course) : Course :=
  { course with manuals := course.manuals ++ [Manual.going phase] }.look
    t plan course.manuals.length phase

/-- What an event makes of a course. -/
def happen (t : Responder) (plan : Plan) (course : Course) : Event → Course
  | .poll => course.poll t plan
  | .arrive arrival =>
    { course with
      loop := course.loop.arrive course.clock arrival
      heard := course.heard ++ [arrival] }
  | .send value => { course with channel := (course.channel.send? value).getD course.channel }
  | .dropSender => { course with channel := course.channel.dropSender }
  | .cloneReceiver receiver => { course with channel := course.channel.cloneReceiver receiver }
  | .await receiver => { course with channel := (course.channel.wait receiver).2 }
  | .beginStatus => course.begin t plan (.beginStatus plan course.clock)
  | .beginLatency => course.begin t plan (.beginLatency plan course.clock)
  | .look place =>
    match course.manuals[place]? with
    | some (.going phase) => course.look t plan place phase
    | _ => course
  | .giveUp place => { course with manuals := course.manuals.modify place .giveUp }

/-- The course after some milliseconds and an event at their end. -/
def step (t : Responder) (plan : Plan) (course : Course) : Nat × Event → Course
  | (elapsed, event) => { course with clock := course.clock + elapsed }.happen t plan event

/-- The course after events, each some milliseconds after the one before. -/
def run (t : Responder) (plan : Plan) (course : Course) (events : List (Nat × Event)) : Course :=
  events.foldl (step t plan) course

variable {t : Responder} {plan : Plan} {course : Course}

@[simp] theorem run_nil : course.run t plan [] = course := rfl

theorem run_cons {event : Nat × Event} {events : List (Nat × Event)} :
    course.run t plan (event :: events) = (course.step t plan event).run t plan events := rfl

@[simp] theorem run_singleton {event : Nat × Event} :
    course.run t plan [event] = course.step t plan event := rfl

@[simp] theorem run_append {before after : List (Nat × Event)} :
    course.run t plan (before ++ after) = (course.run t plan before).run t plan after :=
  List.foldl_append

end Course

end Steering.Refresh
