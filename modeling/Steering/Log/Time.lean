/-! The times in a log: dates and times of day in UTC, to the second. -/

namespace Steering.Log

/-- A day of the calendar. -/
structure Date where
  year : Nat
  month : Nat
  day : Nat
deriving DecidableEq, Repr

/-- The date that comes a number of days after the first of January 1970. Years are counted from
the first of March, so that a leap day ends its year, and in spans of four hundred, which have
the same number of days. -/
def Date.ofDays (days : Nat) : Date :=
  let fromMarch := days + 719468
  let span := fromMarch / 146097
  let inSpan := fromMarch % 146097
  let yearInSpan := (inSpan - inSpan / 1460 + inSpan / 36524 - inSpan / 146096) / 365
  let inYear := inSpan - (365 * yearInSpan + yearInSpan / 4 - yearInSpan / 100)
  let monthFromMarch := (5 * inYear + 2) / 153
  let month := if monthFromMarch < 10 then monthFromMarch + 3 else monthFromMarch - 9
  ⟨span * 400 + yearInSpan + (if month ≤ 2 then 1 else 0), month,
    inYear - (153 * monthFromMarch + 2) / 5 + 1⟩

/-- A number with zeros in front up to a width. -/
def padded (width n : Nat) : String :=
  let digits := toString n
  String.ofList (List.replicate (width - digits.length) '0') ++ digits

/-- The text of the time that comes a number of seconds after the start of 1970. -/
def timeText (seconds : Nat) : String :=
  let date := Date.ofDays (seconds / 86400)
  padded 4 date.year ++ "-" ++ padded 2 date.month ++ "-" ++ padded 2 date.day ++ "T"
    ++ padded 2 (seconds / 3600 % 24) ++ ":" ++ padded 2 (seconds / 60 % 60) ++ ":"
    ++ padded 2 (seconds % 60) ++ "Z"

end Steering.Log
