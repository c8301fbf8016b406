import Steering.Json.Skip
/-! Documents as values: lists, objects and scalars, written compactly and read back. An object
keeps its members in the order in which they are written. -/

namespace Steering.Json

/-- The value of a document. -/
inductive Value where
  | null
  | boolean (value : Bool)
  | number (value : Number)
  | text (value : String)
  | list (elements : List Value)
  | object (members : List (String × Value))

namespace Value

instance : Inhabited Value := ⟨null⟩

/-- A natural number as a value. -/
def natural (n : Nat) : Value := number (.natural n)

/-- A double as a value; one that is not finite has no number form and becomes `null`. -/
def double (x : Binary64) : Value :=
  if x.isFinite then number (.float x) else null

mutual

/-- The compact form of a value. -/
def write : Value → String
  | null => "null"
  | boolean true => "true"
  | boolean false => "false"
  | number n => n.write
  | text s => writeText s
  | list elements => "[" ++ ",".intercalate (writeElements elements) ++ "]"
  | object members => "\x7b" ++ ",".intercalate (writeMembers members) ++ "\x7d"

/-- The compact forms of the elements of a list. -/
def writeElements : List Value → List String
  | [] => []
  | value :: rest => value.write :: writeElements rest

/-- The compact forms of the members of an object. -/
def writeMembers : List (String × Value) → List String
  | [] => []
  | (key, value) :: rest => (writeText key ++ ":" ++ value.write) :: writeMembers rest

end

/-- A list or an object whose end has not been read: its parts so far, the last one first. -/
inductive Partial where
  | list (elements : List Value)
  | object (members : List (String × Value)) (key : String)

/-- Adds a value to the innermost open part, or ends the document. -/
def close (value : Value) : List Partial → List Partial × Option Value
  | [] => ([], some value)
  | .list elements :: outer => (.list (value :: elements) :: outer, none)
  | .object members key :: outer => (.object ((key, value) :: members) "" :: outer, none)

/-- Reads a key and its colon. -/
def readKey (c : Cursor) : Except Fault (String × Cursor) := do
  let c := c.skipBlanks
  if c.peek? = some 0x22 then
    let (key, c) ← readText c.advance
    let c := c.skipBlanks
    if c.peek? = some 0x3A then .ok (key, c.advance) else .error (c.faultAhead .expectedColon)
  else .error (c.faultAhead .keyNotString)

/-- Reads a scalar. -/
def readScalar (b : UInt8) (c : Cursor) : Except Fault (Value × Cursor) :=
  if b = 0x6E then (c.advance.readWord restOfNull).map (null, ·)
  else if b = 0x74 then (c.advance.readWord restOfTrue).map (boolean true, ·)
  else if b = 0x66 then (c.advance.readWord restOfFalse).map (boolean false, ·)
  else if b = 0x2D then (readNumber false c.advance).map fun (n, c) => (number n, c)
  else if isDigit b then (readNumber true c).map fun (n, c) => (number n, c)
  else if b = 0x22 then (readText c.advance).map fun (s, c) => (text s, c)
  else .error (c.faultAhead .expectedValue)

/-- One step of reading: what is open after it, and the value if it has ended. `ready` says that
a value must come next; otherwise a comma or the end of the innermost part does. -/
def readStep (ready : Bool) (parts : List Partial) (c : Cursor) :
    Except Fault ((Bool × List Partial) × Option Value × Cursor) := do
  let c := c.skipBlanks
  let some b := c.peek? | .error (c.faultAhead .endInValue)
  let ended (value : Value) (outer : List Partial) (c : Cursor) :
      (Bool × List Partial) × Option Value × Cursor :=
    let (parts, done) := value.close outer
    ((false, parts), done, c)
  if ready then
    let ahead := c.advance.skipBlanks
    if b = 0x5B then
      if ahead.peek? = some 0x5D then return ended (list []) parts ahead.advance
      else return ((true, .list [] :: parts), none, c.advance)
    else if b = 0x7B then
      if ahead.peek? = some 0x7D then return ended (object []) parts ahead.advance
      else
        let (key, c) ← readKey c.advance
        return ((true, .object [] key :: parts), none, c)
    else
      let (value, c) ← readScalar b c
      return ended value parts c
  else
    match parts with
    | [] => .error (c.faultAhead .trailingCharacters)
    | .list elements :: outer =>
      if b = 0x2C then return ((true, parts), none, c.advance)
      else if b = 0x5D then return ended (list elements.reverse) outer c.advance
      else .error (c.faultAhead .expectedListSeparator)
    | .object members _ :: outer =>
      if b = 0x2C then
        let (key, c) ← readKey c.advance
        return ((true, .object members key :: outer), none, c)
      else if b = 0x7D then return ended (object members.reverse) outer c.advance
      else .error (c.faultAhead .expectedObjectSeparator)

/-- Takes steps until the value has ended. -/
def readFrom : Nat → Bool → List Partial → Cursor → Except Fault (Value × Cursor)
  | 0, _, _, c => .error (c.fault .endInValue)
  | fuel + 1, ready, parts, c =>
    match readStep ready parts c with
    | .error fault => .error fault
    | .ok (_, some value, c) => .ok (value, c)
    | .ok ((ready, parts), none, c) => readFrom fuel ready parts c

/-- Reads a whole document. Every step takes a byte, so they come to an end. -/
def decode (document : List UInt8) : Except Fault Value := do
  let (value, c) ← readFrom (document.length + 1) true [] (.start document)
  let c := c.skipBlanks
  if c.rest = [] then .ok value else .error (c.faultAhead .trailingCharacters)

/-- The member of a given name; the last one, if there are several. -/
def member? : Value → String → Option Value
  | object members, name => (members.reverse.find? (·.1 == name)).map (·.2)
  | _, _ => none

end Value

end Steering.Json
