import Std.Async.Signal
import Std.Sync.Channel
import Std.Time.DateTime.Timestamp
import Steering.Dashboard.Routes
import Steering.Engine.Transports
import Steering.Log.Time
import Steering.Network
import Steering.Program
import Steering.Refresh.Arrival
/-! The command line program. It waits for what happens (replies, moments that are due, signals)
and leaves to the library what follows from it. -/

namespace Steering.Main

open Std.Async

/-- A fault as the system words it, from its number and a text that need not be capitalised.
Some layers count the numbers of faults downwards from zero. -/
def faultText (code : UInt32) (detail : String) : String :=
  detail.capitalize ++ " (os error " ++ toString (min code (0 - code)) ++ ")"

/-- The wording of the system for a fault. -/
def systemDetail : IO.Error → String
  | .noFileOrDirectory _ code detail | .interrupted _ code detail
  | .alreadyExists _ code detail | .invalidArgument _ code detail
  | .permissionDenied _ code detail | .resourceExhausted _ code detail
  | .inappropriateType _ code detail | .noSuchThing _ code detail
  | .otherError code detail | .resourceBusy code detail | .resourceVanished code detail
  | .unsupportedOperation code detail | .hardwareFault code detail
  | .unsatisfiedConstraints code detail | .illegalOperation code detail
  | .protocolError code detail | .timeExpired code detail =>
    faultText code detail
  | fault => toString fault

/-- What came of an action, with the wording of the system if it failed. -/
def attempt {α : Type} (action : IO α) : IO (Except String α) := do
  try return .ok (← action)
  catch fault => return .error (systemDetail fault)

/-- The time now, as it is written to a log. -/
def timeNow : IO String := do
  return Log.timeText (← Std.Time.Timestamp.now).toSecondsSinceUnixEpoch.val.toNat

/-- What the program waits for. -/
inductive Event where
  | arrived (arrival : Refresh.Arrival)
  | due
  | signalled (signal : Program.Signal)

instance : Inhabited Event := ⟨.due⟩

/-- What a running program works with. Moments are counted from `origin`. -/
structure Service where
  engine : Engine
  statusPort : Nat
  origin : Nat
  events : Std.Channel Event
  /-- The engine as the dashboard shows it. -/
  shown : IO.Ref Engine
  log : List Log.Record → IO Unit

namespace Service

/-- The moment now. -/
def now (service : Service) : IO Nat := do
  return (← IO.monoMsNow) - service.origin

/-- Sends an event when an action has ended. -/
def notify (service : Service) (action : Async Event) : IO Unit := do
  let sending : Async Unit := do discard <| service.events.send (← action)
  let task ← Async.toIO sending
  discard <| IO.mapTask (fun _ => pure ()) task

/-- Makes a call. -/
def call (service : Service) (awaited : Refresh.Awaited) : IO Unit := do
  let limit := Http.defaultBodyLimit
  let deadline := service.origin + awaited.deadline
  match awaited with
  | .fetch phase place address =>
    service.notify do
      let result ←
        Network.exchange (PopStatus.request address service.statusPort) limit deadline
      return .arrived
        (.fetched phase place (.ofExchange .http (PopStatus.ofResponse limit) result))
  | .measure phase region place endpoint =>
    if let some prober := service.engine.probers[region]? then
      service.notify do
        let result ← Network.exchange (prober.request endpoint) limit deadline
        return .arrived (.measured phase region place
          (.ofExchange .http (ProbeResult.latencyOfResponse limit) result))

/-- Waits for events until the loop ends, and gives the exit code. `asked` holds the calls that
have been made, and `alarm` the moment that the program is going to be woken up at. -/
partial def attend (service : Service) (loop : Refresh.Loop) (channel : Shutdown.Channel)
    (asked : List Refresh.Awaited) (alarm : Option Nat) : IO UInt32 := do
  service.shown.set { service.engine with store := loop.store }
  match loop.ending with
  | some (_, ending) =>
    let (record, code) := Program.farewell ending.result
    service.log [record]
    return .ofNat code
  | none =>
    let plan := service.engine.plan
    let awaited := loop.awaited plan
    for call in awaited do
      if !asked.contains call then service.call call
    let due := loop.nextDue?
    if due != alarm then
      if let some due := due then
        let patience := due - (← service.now)
        service.notify do
          sleep (.ofNat patience)
          return .due
    let event ← service.events.sync.recv
    let now ← service.now
    let (loop, channel) ← match event with
      | .due => pure (loop, channel)
      | .arrived arrival => pure (loop.arrive now arrival, channel)
      | .signalled signal =>
        service.log [signal.receipt]
        pure (loop, (channel.send? true).getD channel)
    let (loop, channel) := loop.poll .silent plan now 0 channel
    attend service { loop with journal := [] } channel awaited due

/-- Waits for a signal of the system. -/
def await (service : Service) (signal : Std.Async.Signal) (meaning : Program.Signal) : IO Unit := do
  let waiter ← Signal.Waiter.mk signal false
  service.notify do
    discard <| Async.ofAsyncTask (← waiter.wait)
    return .signalled meaning

/-- The page for a request, with the files of a directory. -/
def page (service : Service) (visit : Dashboard.Visit) : IO Dashboard.Page := do
  let engine ← service.shown.get
  let files ← (engine.observability.bind (·.staticDir)).mapM fun directory => do
    match Dashboard.requestedFile? visit.target with
    | none => return FileTree.mk []
    | some path =>
      match ← attempt (IO.FS.readBinFile (directory ++ "/" ++ path)) with
      | .ok content => return ⟨[(FileTree.names path, .file content.toList)]⟩
      | .error _ => return ⟨[]⟩
  return Dashboard.answer engine files visit.method visit.target

end Service

/-- Opens the log. -/
def openLog (settings : LogSettings) : IO (Except String (List Log.Record → IO Unit)) := do
  IO.eprint (Program.logNotice settings)
  let opened ← attempt do
    match settings.file with
    | none => IO.getStderr
    | some path =>
      let parent := (FileTree.parts path).dropLast
      if parent ≠ [] then IO.FS.createDirAll ("/".intercalate parent)
      return IO.FS.Stream.ofHandle (← IO.FS.Handle.mk path .append)
  return opened.map fun stream records => do
    stream.putStr (Log.write (Program.logLevel settings) (← timeNow) records)
    stream.flush

/-- What the system says of the host of a listening address. It is asked once, so every other host is
taken for the same one. -/
def askNames (observability : Option Observability) : IO Net.NameService := do
  match observability.bind fun o => Net.Endpoint.splitPort? o.bindAddress with
  | none => return .offline
  | some (host, _) =>
    let found ← attempt (Network.lookup (String.ofList host)).block
    return fun _ => found

/-- Listens on the first endpoint that is free: the answers of the system on the way there, and the
server. -/
def listenOn : List Net.Endpoint →
    IO (List (Net.Endpoint × Except String String) × Option Std.Async.TCP.Socket.Server)
  | [] => return ([], none)
  | endpoint :: others => do
    match ← attempt (Network.listen endpoint) with
    | .ok server => return ([(endpoint, .ok (toString (← server.getSockName)))], some server)
    | .error detail =>
      let (answers, server?) ← listenOn others
      return ((endpoint, .error detail) :: answers, server?)

/-- Runs an engine until it ends. -/
def operate (config : Config) (names : Net.NameService) (engine : Engine)
    (log : List Log.Record → IO Unit) : IO UInt32 := do
  log [Program.announcement engine]
  let endpoints := match engine.observability.map fun o =>
      Net.Endpoint.resolve names o.bindAddress with
    | some (.ok endpoints) => endpoints
    | _ => []
  let (answers, server?) ← listenOn endpoints
  let listener : Engine.Listener := fun endpoint => (answers.lookup endpoint).getD (.error "")
  match engine.start .silent listener .initial names with
  | .error failure =>
    log [Program.startFailure failure]
    return 1
  | .ok running =>
    let service : Service :=
      ⟨engine, config.refresh.statusPort.toNat, ← IO.monoMsNow, ← Std.Channel.new,
        ← IO.mkRef engine, log⟩
    service.await .sigterm .terminate
    service.await .sigint .interrupt
    if let some server := server? then
      discard <| Async.toIO (Network.serve service.page server)
    log [Program.readiness running.dashboard]
    service.attend running.loop running.channel [] none

/-- Runs with the configuration at a path. -/
def run (path : String) : IO UInt32 := do
  let content ← attempt (IO.FS.readBinFile path)
  match Program.load path (content.map (·.toList)) with
  | .error failure =>
    IO.eprintln ("Error loading config: " ++ failure.message)
    return 1
  | .ok config =>
    match ← openLog config.log with
    | .error detail =>
      IO.eprintln ("Error initializing logger: " ++ detail)
      return 1
    | .ok log =>
      let names ← askNames config.observability
      log (Program.checkRecords names config)
      match Engine.build config true names with
      | .error violation =>
        log [Program.refusal violation]
        return 1
      | .ok engine => operate config names engine log

end Steering.Main

open Steering in
def main (arguments : List String) : IO UInt32 := do
  match CommandLine.read arguments with
  | .error fault =>
    IO.eprintln ("error: " ++ fault.message)
    return 2
  | .ok .showHelp =>
    IO.print Program.helpText
    return 0
  | .ok .showVersion =>
    IO.print Program.versionText
    return 0
  | .ok (.run path) => Main.run path
