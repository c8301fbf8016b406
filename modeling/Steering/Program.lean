import Steering.CommandLine
import Steering.Config.Document
import Steering.Engine.Run
import Steering.FileTree
import Steering.Log.Record
/-! A run of the program: what it reads, logs and prints on a given host, and the code that it
exits with. -/

namespace Steering.Program

open CommandLine (Command UsageFault)
open Log (Level Record)

/-- The name of the program and its version. -/
def versionText : String := "gslb 0.1.0\n"

/-- How the program is used. -/
def helpText : String :=
  "Usage: gslb [OPTIONS]\n\nOptions:\n  -c, --config <CONFIG>\n  -h, --help             Print help\n"
    ++ "  -V, --version          Print version\n"

/-- A record of the program itself. -/
def record (level : Level) (message : String) : Record :=
  ⟨level, "gslb", message⟩

/-- A record of the checks of a configuration. -/
def checkRecord (level : Level) (message : String) : Record :=
  ⟨level, "gslb_config::validator", message⟩

/-- Why there is no configuration. -/
inductive LoadFailure where
  | read (path detail : String)
  | document (path : String) (fault : DocumentFault)
deriving DecidableEq, Repr

/-- The wording of a failure to load. -/
def LoadFailure.message : LoadFailure → String
  | read path detail => "failed to read config file '" ++ path ++ "': " ++ detail
  | document path fault => "could not parse YAML from '" ++ path ++ "': " ++ fault.message

/-- The configuration in a file, given what came of reading it: its bytes or the reason why
there are none. -/
def load (path : String) (content : Except String (List UInt8)) : Except LoadFailure Config :=
  match content with
  | .error detail => .error (.read path detail)
  | .ok bytes =>
    match Text.decode bytes with
    | .error _ => .error (.read path "stream did not contain valid UTF-8")
    | .ok text =>
      match Config.parse text with
      | .error fault => .error (.document path fault)
      | .ok config => .ok config

/-- The level of the log. -/
def logLevel (settings : LogSettings) : Level :=
  (Level.ofText? settings.level).getD .info

/-- What is printed when the log is opened: a level that is none is replaced. -/
def logNotice (settings : LogSettings) : String :=
  match Level.ofText? settings.level with
  | some _ => ""
  | none => "Invalid log level '" ++ settings.level ++ "', defaulting to 'info'\n"

/-- What is logged of the checks of a configuration. -/
def checkRecords (names : Net.NameService) (config : Config) : List Record :=
  checkRecord .info "Starting configuration validation..." ::
    match config.validate names with
    | .ok () => [checkRecord .info "Configuration validation passed successfully"]
    | .error violation => [checkRecord .error violation.message]

/-- What is logged of a configuration that is refused. -/
def refusal (violation : Violation) : Record :=
  record .error ("Configuration validation failed: " ++ violation.report ++ ". Exiting...")

/-- What is logged before an engine starts. -/
def announcement (engine : Engine) : Record :=
  record .info ("GSLB is starting: " ++ toString engine.pops.length ++ " PoPs, "
    ++ toString engine.regions.length ++ " regions, ranking " ++ engine.ranking.name)

/-- What is logged of an engine that did not start. -/
def startFailure (failure : EngineFailure) : Record :=
  record .error ("Failed to start: " ++ failure.message)

/-- What is logged once an engine has started. -/
def readiness (dashboard : Option String) : Record :=
  record .info <| match dashboard with
    | some address => "GSLB is ready, dashboard at http://" ++ address
    | none => "GSLB is ready"

/-- What asks the program to stop. -/
inductive Signal where
  | terminate
  | interrupt
deriving DecidableEq, Repr

/-- What is logged of a signal. -/
def Signal.receipt (signal : Signal) : Record :=
  record .info <| match signal with
    | terminate => "Received SIGTERM, shutting down"
    | interrupt => "Received Ctrl+C, shutting down"

/-- What is logged at the end, and the exit code. -/
def farewell : Except EngineFailure Unit → Record × Nat
  | .ok () => (record .info "GSLB stopped", 0)
  | .error failure => (record .error ("GSLB stopped with error: " ++ failure.message), 1)

/-- What the program finds around it: files, the time that is written to the log, the system's
answer to listening, transports, and the signal that comes at some moment. -/
structure Host where
  files : FileTree
  time : String
  listener : Engine.Listener
  transports : Refresh.Transports
  signal : Option (Nat × Signal)

/-- What is seen of a run: the exit code unless it goes on, what is printed, and the files after
it. -/
structure Report where
  exit : Option Nat
  output : String
  errors : String
  files : FileTree

/-- What an engine logs, and the exit code unless it goes on. -/
def operate (host : Host) (names : Net.NameService) (engine : Engine) : List Record × Option Nat :=
  let announced := [announcement engine]
  match engine.start host.transports host.listener .initial names with
  | .error failure => (announced ++ [startFailure failure], some 1)
  | .ok running =>
    let ready := announced ++ [readiness running.dashboard]
    match host.signal with
    | none => (ready, none)
    | some (moment, signal) =>
      let running := engine.passUntil host.transports moment running
      let (received, running) := if running.loop.ending.isSome then ([], running) else
        ([signal.receipt], engine.happen host.transports moment running (.send true))
      match Engine.join? running.loop true with
      | none => (ready ++ received, none)
      | some result =>
        let (last, code) := farewell result
        (ready ++ received ++ [last], some code)

/-- What a configuration leads to: what is logged, and the exit code unless the run goes on. -/
def serve (host : Host) (names : Net.NameService) (config : Config) : List Record × Option Nat :=
  match Engine.build config true names with
  | .error violation => (checkRecords names config ++ [refusal violation], some 1)
  | .ok engine =>
    let (records, code) := operate host names engine
    (checkRecords names config ++ records, code)

/-- A run with a configuration, whose log goes to a file or to the errors. -/
def runConfig (host : Host) (names : Net.NameService) (config : Config) : Report :=
  let notice := logNotice config.log
  let (records, code) := serve host names config
  let logged := Log.write (logLevel config.log) host.time records
  match config.log.file with
  | none => ⟨code, "", notice ++ logged, host.files⟩
  | some path =>
    match host.files.append path (Text.encode logged) with
    | .error fault =>
      ⟨some 1, "", notice ++ "Error initializing logger: " ++ fault.message ++ "\n", host.files⟩
    | .ok files => ⟨code, "", notice, files⟩

/-- A run of the program. -/
def run (host : Host) (arguments : List String) (names : Net.NameService := .offline) : Report :=
  match CommandLine.read arguments with
  | .error fault => ⟨some 2, "", "error: " ++ fault.message ++ "\n", host.files⟩
  | .ok .showHelp => ⟨some 0, helpText, "", host.files⟩
  | .ok .showVersion => ⟨some 0, versionText, "", host.files⟩
  | .ok (.run path) =>
    match load path ((host.files.read path).mapError FileFault.message) with
    | .error failure =>
      ⟨some 1, "", "Error loading config: " ++ failure.message ++ "\n", host.files⟩
    | .ok config => runConfig host names config

end Steering.Program
