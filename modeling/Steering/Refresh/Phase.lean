import Steering.Refresh.Reply
import Steering.Store
/-! The two phases of a refresh. In the status phase all PoPs are asked at once and their records
are committed together. In the latency phase the regions work side by side; each measures the
PoPs one after another and commits its vector when it is complete. -/

namespace Steering.Refresh

/-- What is refreshed: the PoPs by address and by the URL that is measured, in the order of the
configuration, the number of regions, and the time allowed in milliseconds. -/
structure Plan where
  addresses : List Net.Ipv4
  endpoints : List String
  regionCount : Nat
  statusTimeout : Nat
  latencyTimeout : Nat
  interval : Nat
deriving DecidableEq, Repr

/-- What a refresh does that others can see. -/
inductive Entry where
  | fetched (address : Net.Ipv4)
  | measured (region : Nat) (endpoint : String)
  | committed (commit : Commit)
  | refused (commit : Commit) (fault : StoreFault)
deriving DecidableEq, Repr

/-- The record of a PoP whose fetch has ended; nothing if it has crashed. -/
def recordOf : Outcome FetchFailure PopStatus → Option PopStatus
  | .success status => some status
  | .failure reason => some (.failed reason.message)
  | .crash => none

/-- The latency of a measurement that has ended; nothing if it has crashed. Only a finite number
that is not negative is accepted. -/
def latencyOf : Outcome MeasureFailure Binary64 → Option Binary64
  | .success x => some (if x.isFinite && x.isNonneg then x else unreachableLatency)
  | .failure _ => some unreachableLatency
  | .crash => none

/-- The fetch of one PoP. -/
inductive Slot where
  | fresh
  | waiting (call : Call FetchFailure PopStatus)
  | done (status : PopStatus)
deriving DecidableEq, Repr

/-- The fetch after looking at its call; nothing if it has crashed. -/
def Slot.settle (now : Nat) (call : Call FetchFailure PopStatus) : Option Slot :=
  if now < call.due then some (.waiting call) else (recordOf call.outcome).map .done

/-- Looks at the fetch of one PoP, which begins if it is fresh. -/
def Slot.poll (t : Responder) (now deadline place : Nat) (address : Net.Ipv4) :
    Slot → List Entry × Option Slot
  | fresh =>
    ([.fetched address],
      settle now ((t.fetch now place address).call .deadlineExceeded now deadline))
  | waiting call => ([], settle now call)
  | done status => ([], some (.done status))

/-- Looks at the fetches of the PoPs from `place` on in order, up to one that crashes. -/
def pollSlots (t : Responder) (now deadline : Nat) :
    Nat → List (Net.Ipv4 × Slot) → List Entry × Option (List (Net.Ipv4 × Slot))
  | _, [] => ([], some [])
  | place, (address, slot) :: rest =>
    match slot.poll t now deadline place address with
    | (entries, none) => (entries, none)
    | (entries, some slot) =>
      let (more, rest) := pollSlots t now deadline (place + 1) rest
      (entries ++ more, rest.map ((address, slot) :: ·))

/-- The measurements of one region. -/
inductive Pass where
  | fresh
  /-- The latencies so far, the call that is waited for, and the PoPs after it. -/
  | waiting (latencies : List Binary64) (call : Call MeasureFailure Binary64)
      (remaining : List String)
  | finished (latencies : List Binary64)
deriving DecidableEq, Repr

/-- Measures PoPs one after another until one has to be waited for. The place of each is the number of
the latencies before it. -/
def Pass.measure (t : Responder) (region now deadline : Nat) :
    List Binary64 → List String → List Entry × Option Pass
  | latencies, [] => ([], some (.finished latencies))
  | latencies, endpoint :: remaining =>
    let call :=
      (t.measure now region latencies.length endpoint).call .deadlineExceeded now deadline
    if now < call.due then ([.measured region endpoint], some (.waiting latencies call remaining))
    else
      match latencyOf call.outcome with
      | none => ([.measured region endpoint], none)
      | some latency =>
        let (entries, pass) := measure t region now deadline (latencies ++ [latency]) remaining
        (.measured region endpoint :: entries, pass)

/-- Looks at the measurements of one region, which begin if they are fresh. -/
def Pass.poll (t : Responder) (endpoints : List String) (region now deadline : Nat) :
    Pass → List Entry × Option Pass
  | fresh => measure t region now deadline [] endpoints
  | waiting latencies call remaining =>
    if now < call.due then ([], some (.waiting latencies call remaining))
    else
      match latencyOf call.outcome with
      | none => ([], none)
      | some latency => measure t region now deadline (latencies ++ [latency]) remaining
  | finished latencies => ([], some (.finished latencies))

/-- Whether the measurements of a region are complete. -/
def Pass.isFinished : Pass → Bool
  | finished _ => true
  | _ => false

/-- Makes a commit, unless the store refuses. -/
def tryCommit (store : Store) (commit : Commit) : Entry × Store :=
  match store.commit commit with
  | .ok store => (.committed commit, store)
  | .error fault => (.refused commit fault, store)

/-- Commits the latencies of a region if they have just become complete. -/
def commitPass (store : Store) (region : Nat) (before after : Pass) : List Entry × Store :=
  match before, after with
  | .finished _, _ => ([], store)
  | _, .finished latencies =>
    let (entry, store) := tryCommit store (.latency region latencies)
    ([entry], store)
  | _, _ => ([], store)

/-- Looks at the measurements of the regions from `region` on in order, up to one that crashes,
and says whether none did. A region commits as soon as it is complete. -/
def pollPasses (t : Responder) (endpoints : List String) (now deadline : Nat) :
    Nat → List Pass → Store → List Entry × Store × List Pass × Bool
  | _, [], store => ([], store, [], true)
  | region, pass :: rest, store =>
    match pass.poll t endpoints region now deadline with
    | (entries, none) => (entries, store, pass :: rest, false)
    | (entries, some after) =>
      let (commits, store) := commitPass store region pass after
      let (more, store, rest, alive) := pollPasses t endpoints now deadline (region + 1) rest store
      (entries ++ commits ++ more, store, after :: rest, alive)

/-- A phase that has begun. -/
inductive Phase where
  | status (deadline : Nat) (slots : List (Net.Ipv4 × Slot))
  | latency (deadline : Nat) (passes : List Pass)
deriving DecidableEq, Repr

/-- A status phase that begins now. -/
def Phase.beginStatus (plan : Plan) (now : Nat) : Phase :=
  .status (now + plan.statusTimeout) (plan.addresses.map (·, .fresh))

/-- A latency phase that begins now. -/
def Phase.beginLatency (plan : Plan) (now : Nat) : Phase :=
  .latency (now + plan.latencyTimeout) (List.replicate plan.regionCount .fresh)

/-- Where a phase stands after it has been looked at. A crash leaves it as far as it has come. -/
inductive Progress where
  | waiting (phase : Phase)
  | finished
  | crashed (phase : Phase)
deriving DecidableEq, Repr

/-- The statuses of a phase in which every fetch is done. -/
def statuses? (slots : List (Net.Ipv4 × Slot)) : Option (List PopStatus) :=
  slots.mapM fun
    | (_, .done status) => some status
    | _ => none

/-- Looks at a phase: what it does, the state after that, and where it stands. -/
def Phase.poll (t : Responder) (plan : Plan) (now : Nat) (store : Store) :
    Phase → List Entry × Store × Progress
  | status deadline slots =>
    match pollSlots t now deadline 0 slots with
    | (entries, none) => (entries, store, .crashed (.status deadline slots))
    | (entries, some slots) =>
      match statuses? slots with
      | none => (entries, store, .waiting (.status deadline slots))
      | some statuses =>
        let (entry, store) := tryCommit store (.status statuses)
        (entries ++ [entry], store, .finished)
  | latency deadline passes =>
    let (entries, store, passes, alive) :=
      pollPasses t plan.endpoints now deadline 0 passes store
    (entries, store,
      if !alive then .crashed (.latency deadline passes)
      else if passes.all Pass.isFinished then .finished
      else .waiting (.latency deadline passes))

/-- The moments that a phase waits for. -/
def Phase.dues : Phase → List Nat
  | status _ slots => slots.filterMap fun
      | (_, .waiting call) => some call.due
      | _ => none
  | latency _ passes => passes.filterMap fun
      | .waiting _ call _ => some call.due
      | _ => none

/-- How a phase on its own ends. -/
structure Finish where
  moment : Nat
  store : Store
  journal : List (Nat × Entry)
  crashed : Bool

/-- Follows a phase on its own to its end, from one moment that it waits for to the next. -/
def Phase.followFrom (t : Responder) (plan : Plan) :
    Nat → Nat → List (Nat × Entry) → Store → Phase → Finish
  | 0, now, journal, store, _ => ⟨now, store, journal, false⟩
  | fuel + 1, now, journal, store, phase =>
    let (entries, store, progress) := phase.poll t plan now store
    let journal := journal ++ entries.map (now, ·)
    match progress with
    | .finished => ⟨now, store, journal, false⟩
    | .crashed _ => ⟨now, store, journal, true⟩
    | .waiting phase =>
      match phase.dues.min? with
      | some due => followFrom t plan fuel due journal store phase
      | none => ⟨now, store, journal, false⟩

/-- Follows a phase on its own to its end. Every look after the first ends a call, and there is
one call per PoP in the status phase, one per PoP and region in the latency phase. -/
def Phase.follow (t : Responder) (plan : Plan) (now : Nat) (store : Store) (phase : Phase) :
    Finish :=
  phase.followFrom t plan
    (plan.addresses.length + plan.regionCount * plan.endpoints.length + 1) now [] store

end Steering.Refresh
