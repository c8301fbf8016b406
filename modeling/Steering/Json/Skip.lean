import Steering.Json.Text
import Steering.Json.Number
/-! Skipping values that nobody asked for. Their form is checked but not what they stand for:
a string may hold any bytes, a number may be of any size, and values may nest to any depth. -/

namespace Steering.Json

/-- Skips an escape after its backslash. -/
def skipEscape (c : Cursor) : Except Fault Cursor :=
  match c.peek? with
  | none => .error (c.fault .endInString)
  | some b =>
    if (shortEscape? b).isSome then .ok c.advance
    else if b = 0x75 then (readUnit c.advance).map (·.2)
    else .error (c.advance.fault .invalidEscape)

/-- Skips the rest of a string after its opening quote. -/
def skipTextFrom : Nat → Cursor → Except Fault Cursor
  | 0, c => .error (c.fault .endInString)
  | fuel + 1, c =>
    match c.peek? with
    | none => .error (c.fault .endInString)
    | some b =>
      if b = 0x22 then .ok c.advance
      else if b = 0x5C then
        match skipEscape c.advance with
        | .ok c => skipTextFrom fuel c
        | .error fault => .error fault
      else if b < 0x20 then .error (c.fault .controlCharacter)
      else skipTextFrom fuel c.advance

/-- Skips the rest of a string after its opening quote. -/
def skipText (c : Cursor) : Except Fault Cursor :=
  skipTextFrom (c.rest.length + 1) c

/-- Skips an exponent, from the letter on. -/
def skipExponent (c : Cursor) : Except Fault Cursor :=
  let c := c.advance
  let c := if c.peek? == some 0x2B || c.peek? == some 0x2D then c.advance else c
  if c.peek?.any isDigit then .ok (c.skip (digitsAhead c).length)
  else .error (c.advance.fault .invalidNumber)

/-- Skips a number after its sign. -/
def skipNumber (c : Cursor) : Except Fault Cursor :=
  let digits := digitsAhead c
  if digits = [] then .error (c.advance.fault .invalidNumber)
  else if digits.head? = some 0 ∧ 1 < digits.length then
    .error (c.advance.faultAhead .invalidNumber)
  else
    let c := c.skip digits.length
    if c.peek? == some 0x2E then
      let fraction := digitsAhead c.advance
      let c := c.advance.skip fraction.length
      if fraction = [] then .error (c.faultAhead .invalidNumber)
      else if exponentAhead c then skipExponent c
      else .ok c
    else if exponentAhead c then skipExponent c
    else .ok c

/-- A list or an object that has been opened and not closed. -/
inductive Frame where
  | list
  | object
deriving DecidableEq, Repr

/-- The fault when the document ends inside a frame. -/
def Frame.endCause : Frame → Cause
  | list => .endInList
  | object => .endInObject

/-- The fault when something other than a comma follows a value in a frame. -/
def Frame.separatorCause : Frame → Cause
  | list => .expectedListSeparator
  | object => .expectedObjectSeparator

/-- The byte that closes a frame. -/
def Frame.closing : Frame → UInt8
  | list => 0x5D
  | object => 0x7D

/-- Skips a key and its colon. -/
def skipKey (c : Cursor) : Except Fault Cursor := do
  let c := c.skipBlanks
  match c.peek? with
  | none => .error (c.faultAhead .endInObject)
  | some b =>
    if b = 0x22 then
      let c ← skipText c.advance
      let c := c.skipBlanks
      match c.peek? with
      | none => .error (c.faultAhead .endInObject)
      | some b => if b = 0x3A then .ok c.advance else .error (c.faultAhead .expectedColon)
    else .error (c.faultAhead .keyNotString)

/-- What a skip expects next: a value, or in a frame a separator or its end. -/
inductive Expected where
  | value
  | first (frame : Frame)
  | more (frame : Frame)
deriving DecidableEq, Repr

/-- What comes after a value inside the given frames, innermost first. -/
def afterValue : List Frame → Option (Expected × List Frame)
  | [] => none
  | frame :: outer => some (.more frame, outer)

/-- Skips a scalar or the opening of a list or an object. -/
def skipOne (frames : List Frame) (c : Cursor) :
    Except Fault (Option (Expected × List Frame) × Cursor) :=
  match c.peek? with
  | none => .error (c.faultAhead .endInValue)
  | some b =>
    let scalar (skipped : Except Fault Cursor) := skipped.map (afterValue frames, ·)
    if b = 0x6E then scalar (c.advance.readWord restOfNull)
    else if b = 0x74 then scalar (c.advance.readWord restOfTrue)
    else if b = 0x66 then scalar (c.advance.readWord restOfFalse)
    else if b = 0x2D then scalar (skipNumber c.advance)
    else if isDigit b then scalar (skipNumber c)
    else if b = 0x22 then scalar (skipText c.advance)
    else if b = 0x5B then .ok (some (.first .list, frames), c.advance)
    else if b = 0x7B then .ok (some (.first .object, frames), c.advance)
    else .error (c.faultAhead .expectedValue)

/-- Goes on to the next value of a frame, through the key in an object. -/
def enterMember (frame : Frame) (outer : List Frame) (c : Cursor) :
    Except Fault (Option (Expected × List Frame) × Cursor) :=
  match frame with
  | .list => .ok (some (.value, .list :: outer), c)
  | .object => (skipKey c).map (some (.value, .object :: outer), ·)

/-- One step of a skip: what is expected after it, or nothing when the value has ended. -/
def skipStep (expected : Expected) (frames : List Frame) (c : Cursor) :
    Except Fault (Option (Expected × List Frame) × Cursor) :=
  let c := c.skipBlanks
  match expected with
  | .value => skipOne frames c
  | .first frame =>
    match c.peek? with
    | none => .error (c.faultAhead frame.endCause)
    | some b =>
      if b = frame.closing then .ok (afterValue frames, c.advance)
      else enterMember frame frames c
  | .more frame =>
    match c.peek? with
    | none => .error (c.faultAhead frame.endCause)
    | some b =>
      if b = 0x2C then enterMember frame frames c.advance
      else if b = frame.closing then .ok (afterValue frames, c.advance)
      else .error (c.faultAhead frame.separatorCause)

/-- Takes steps until the value has ended. -/
def skipFrom : Nat → Expected → List Frame → Cursor → Except Fault Cursor
  | 0, _, _, c => .error (c.fault .endInValue)
  | fuel + 1, expected, frames, c =>
    match skipStep expected frames c with
    | .error fault => .error fault
    | .ok (none, c) => .ok c
    | .ok (some (expected, frames), c) => skipFrom fuel expected frames c

/-- Skips a value. Every two steps take a byte, so they come to an end. -/
def skipValue (c : Cursor) : Except Fault Cursor :=
  skipFrom (2 * c.rest.length + 2) .value [] c

end Steering.Json
