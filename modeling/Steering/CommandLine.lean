/-! The command line: an option for the path of the configuration, and two that only print
something. Arguments are read in order, and the first that decides anything decides. -/

namespace Steering.CommandLine

/-- What the program is asked to do. -/
inductive Command where
  /-- To run with the configuration at a path. -/
  | run (path : String)
  | showHelp
  | showVersion
deriving DecidableEq, Repr

/-- Why a command line is refused. -/
inductive UsageFault where
  | unknown (argument : String)
  | repeated
  | valueMissing
deriving DecidableEq, Repr

/-- The wording of a refusal. -/
def UsageFault.message : UsageFault → String
  | unknown argument => "unexpected argument '" ++ argument ++ "' found"
  | repeated => "the option for the configuration cannot be used more than once"
  | valueMissing => "the option for the configuration needs a value"

/-- The path of the configuration unless another is given. -/
def defaultPath : String := "./config/config.yaml"

/-- What one argument means by itself. -/
inductive Word where
  /-- The option for the configuration, with its value if the argument holds it. -/
  | config (value : Option String)
  | help
  | version
  /-- From here on nothing is an option. -/
  | endOfOptions
  | unknown
deriving DecidableEq, Repr

/-- The value behind a letter, with or without an equals sign; nothing if the letter ends the
argument. -/
def attachedValue? : List Char → Option String
  | [] => none
  | '=' :: value => some (String.ofList value)
  | value => some (String.ofList value)

/-- Reads one argument. The first of several letters decides. -/
def Word.ofArgument (argument : String) : Word :=
  match argument.toList with
  | ['-', '-'] => endOfOptions
  | '-' :: '-' :: long =>
    if long = "config".toList then config none
    else if "config=".toList.isPrefixOf long then config (some (String.ofList (long.drop 7)))
    else if long = "help".toList then help
    else if long = "version".toList then version
    else unknown
  | '-' :: 'c' :: value => config (attachedValue? value)
  | '-' :: 'h' :: _ => help
  | '-' :: 'V' :: _ => version
  | _ => unknown

/-- Whether an argument can be the value of the option before it. -/
def isValue (argument : String) : Bool :=
  argument.toList.head? ≠ some '-' || argument == "-"

/-- Reads arguments, given the path that has been read before them. -/
def readFrom (path : Option String) : List String → Except UsageFault Command
  | [] => .ok (.run (path.getD defaultPath))
  | argument :: rest =>
    match Word.ofArgument argument with
    | .help => .ok .showHelp
    | .version => .ok .showVersion
    | .unknown => .error (.unknown argument)
    | .endOfOptions =>
      match rest with
      | [] => .ok (.run (path.getD defaultPath))
      | extra :: _ => .error (.unknown extra)
    | .config (some value) =>
      if path.isSome then .error .repeated else readFrom (some value) rest
    | .config none =>
      match rest with
      | [] => .error .valueMissing
      | value :: rest =>
        if !isValue value then .error .valueMissing
        else if path.isSome then .error .repeated
        else readFrom (some value) rest

/-- Reads a command line. -/
def read (arguments : List String) : Except UsageFault Command :=
  readFrom none arguments

end Steering.CommandLine
