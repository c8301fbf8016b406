import Steering.Text.CaseRuns
/-! Lower case, in all of Unicode for names that are read leniently, and in ASCII alone for
names that are compared without regard to case. -/

namespace Steering.Text

/-- The lower case of one character. Only `İ` becomes two characters, an `i` and the dot above
it; a final sigma is written like any other. -/
def lowerChar (c : Char) : List Char :=
  if c.toNat = 0x130 then ['i', Char.ofNat 0x307]
  else match caseRuns.find? (·.covers c.toNat) with
    | some run => [Char.ofNat (c.toNat + run.shift).toNat]
    | none => [c]

/-- The text in lower case. -/
def lower (s : String) : String :=
  String.ofList (s.toList.flatMap lowerChar)

/-- Lower case for the 26 letters of ASCII, all other characters as they are. -/
def asciiLower (c : Char) : Char :=
  c.toLower

/-- Whether two texts differ in the case of ASCII letters only. -/
def sameIgnoringCase (s t : String) : Bool :=
  s.toList.map asciiLower == t.toList.map asciiLower

end Steering.Text
