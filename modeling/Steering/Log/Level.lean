import Steering.Text.Blank
import Steering.Text.Lowercase
/-! Log levels. -/

namespace Steering.Log

/-- How important a log record is, and which records a log keeps. -/
inductive Level where
  | off
  | error
  | warn
  | info
  | debug
  | trace
deriving DecidableEq, Repr

namespace Level

/-- The name of a level. -/
def name : Level → String
  | off => "OFF"
  | error => "ERROR"
  | warn => "WARN"
  | info => "INFO"
  | debug => "DEBUG"
  | trace => "TRACE"

/-- How many kinds of record a log at this level keeps. -/
def rank : Level → Nat
  | off => 0
  | error => 1
  | warn => 2
  | info => 3
  | debug => 4
  | trace => 5

/-- Whether a log at a level keeps a record. -/
def keeps (limit record : Level) : Bool :=
  record.rank ≤ limit.rank

/-- The level of a configured text: blanks around it and the case of its letters do not
count. -/
def ofText? (s : String) : Option Level :=
  match Text.lower (Text.trim s) with
  | "trace" => some trace
  | "debug" => some debug
  | "info" => some info
  | "warn" => some warn
  | "error" => some error
  | "off" => some off
  | _ => none

end Level

end Steering.Log
