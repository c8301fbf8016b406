import Steering.Log.Level
/-! Log records and the lines that they are written as. -/

namespace Steering.Log

/-- A record: how important it is, which part of the program it comes from, and what it says. -/
structure Record where
  level : Level
  target : String
  message : String
deriving DecidableEq, Repr

namespace Record

/-- The message as it is written: its lines after the first are indented. -/
def indented (record : Record) : String :=
  "\n    ".intercalate (record.message.splitOn "\n")

/-- The name of the level with blanks up to the width of the longest name. -/
def paddedLevel (record : Record) : String :=
  String.ofList (record.level.name.toList ++ List.replicate (5 - record.level.name.length) ' ')

/-- The record as it is written at a time. -/
def written (record : Record) (time : String) : String :=
  "[" ++ time ++ " " ++ record.paddedLevel ++ " " ++ record.target ++ "] " ++ record.indented
    ++ "\n"

end Record

/-- What a log at a level writes of some records at a time. -/
def write (limit : Level) (time : String) (records : List Record) : String :=
  String.join ((records.filter fun record => limit.keeps record.level).map (·.written time))

end Steering.Log
