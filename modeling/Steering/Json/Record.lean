import Steering.Json.Skip
/-! Reading records: values with a fixed set of fields. A record is an object, whose members may
come in any order and among unknown ones, or a list of its fields in order. -/

namespace Steering.Json

/-- A field of a record: its name, whether it must be there, and how it is read into the
record. -/
structure Field (α : Type) where
  name : String
  required : Bool
  read : α → Cursor → Except Fault (α × Cursor)

/-- A kind of record: what it is called, the record with every field at its default, and its
fields in order. -/
structure Schema (α : Type) where
  title : String
  initial : α
  fields : List (Field α)

/-- The fault of a value of the wrong kind. The value is read to its end if it is a scalar, so
that a fault inside it comes first. -/
def wrongType (expected : String) (c : Cursor) : Fault :=
  let after (found : Found) (read : Except Fault Cursor) : Fault :=
    match read with
    | .ok c => c.fault (.invalidType found expected)
    | .error fault => fault
  let number (read : Except Fault (Number × Cursor)) : Fault :=
    match read with
    | .ok (n, c) => c.fault (.invalidType n.found expected)
    | .error fault => fault
  match c.peek? with
  | none => c.faultAhead .endInValue
  | some b =>
    if b = 0x6E then after .null (c.advance.readWord restOfNull)
    else if b = 0x74 then after (.boolean true) (c.advance.readWord restOfTrue)
    else if b = 0x66 then after (.boolean false) (c.advance.readWord restOfFalse)
    else if b = 0x2D then number (readNumber false c.advance)
    else if isDigit b then number (readNumber true c)
    else if b = 0x22 then
      match readText c.advance with
      | .ok (s, c) => c.fault (.invalidType (.text s) expected)
      | .error fault => fault
    else if b = 0x5B then c.fault (.invalidType .sequence expected)
    else if b = 0x7B then c.fault (.invalidType .map expected)
    else c.faultAhead .expectedValue

/-- Reads a string value. -/
def readTextValue (c : Cursor) : Except Fault (String × Cursor) :=
  let c := c.skipBlanks
  if c.peek? = some 0x22 then readText c.advance else .error (wrongType "a string" c)

/-- Reads a number value. -/
def readNumberValue (expected : String) (c : Cursor) : Except Fault (Number × Cursor) :=
  let c := c.skipBlanks
  match c.peek? with
  | some b =>
    if b = 0x2D then readNumber false c.advance
    else if isDigit b then readNumber true c
    else .error (wrongType expected c)
  | none => .error (wrongType expected c)

/-- Reads a number value as a double. -/
def readDouble (c : Cursor) : Except Fault (Binary64 × Cursor) :=
  (readNumberValue "f64" c).map fun (n, c) => (n.toBinary64, c)

/-- Reads a number value as an integer between two bounds. -/
def readInteger (expected : String) (low high : Int) (c : Cursor) :
    Except Fault (Int × Cursor) := do
  let (n, c) ← readNumberValue expected c
  let bounded (value : Int) : Except Fault (Int × Cursor) :=
    if low ≤ value ∧ value ≤ high then .ok (value, c)
    else .error (c.fault (.invalidValue (.integer value) expected))
  match n with
  | .natural value => bounded value
  | .negative value => bounded value
  | .float _ => .error (c.fault (.invalidType n.found expected))

namespace Schema

variable {α : Type}

/-- How a kind of record is named in messages. -/
def expected (schema : Schema α) : String :=
  "struct " ++ schema.title

/-- How a record with all its fields is named in messages. -/
def expectedElements (schema : Schema α) : String :=
  schema.expected ++ " with " ++ toString schema.fields.length
    ++ (if schema.fields.length = 1 then " element" else " elements")

/-- The field of a given name. -/
def field? (schema : Schema α) (name : String) : Option (Field α) :=
  schema.fields.find? (·.name == name)

/-- The first required field that has not been seen. -/
def missing? (schema : Schema α) (seen : List String) : Option (Field α) :=
  schema.fields.find? fun field => field.required && !seen.contains field.name

/-- Moves to the next key of an object, past the comma before it; nothing at the end of the
object. -/
def nextKey (first : Bool) (c : Cursor) : Except Fault (Option Cursor) :=
  let c := c.skipBlanks
  match c.peek? with
  | none => .error (c.faultAhead .endInObject)
  | some b =>
    if b = 0x7D then .ok none
    else if first then
      if b = 0x22 then .ok (some c.advance) else .error (c.faultAhead .keyNotString)
    else if b = 0x2C then
      let c := c.advance.skipBlanks
      match c.peek? with
      | none => .error (c.faultAhead .endInValue)
      | some b =>
        if b = 0x22 then .ok (some c.advance)
        else if b = 0x7D then .error (c.faultAhead .trailingComma)
        else .error (c.faultAhead .keyNotString)
    else .error (c.faultAhead .expectedObjectSeparator)

/-- Reads the colon after a key. -/
def readColon (c : Cursor) : Except Fault Cursor :=
  let c := c.skipBlanks
  match c.peek? with
  | none => .error (c.faultAhead .endInObject)
  | some b => if b = 0x3A then .ok c.advance else .error (c.faultAhead .expectedColon)

/-- The fault of a key that names a field again: it is found where the object could end. -/
def repeated (name : String) (c : Cursor) : Fault :=
  let c := c.skipBlanks
  (if c.peek? = some 0x7D then c.advance else c).fault (.duplicateField name)

/-- Reads one member after the quote of its key, into a record in which some fields have been
seen. An unknown member is skipped. -/
def readMember (schema : Schema α) (record : α) (seen : List String) (c : Cursor) :
    Except Fault (α × List String × Cursor) := do
  let (key, c) ← readText c
  match schema.field? key with
  | some field =>
    if seen.contains key then .error (repeated key c)
    else
      let (record, c) ← field.read record (← readColon c)
      return (record, key :: seen, c)
  | none => return (record, seen, ← skipValue (← readColon c))

/-- The record at the end of an object, if no required field is missing. -/
def finishObject (schema : Schema α) (record : α) (seen : List String) (c : Cursor) :
    Except Fault (α × Cursor) :=
  let c := c.skipBlanks.advance
  match schema.missing? seen with
  | some field => .error (c.fault (.missingField field.name))
  | none => .ok (record, c)

/-- Reads the members of an object up to its end. -/
def readMembers (schema : Schema α) :
    Nat → Bool → α → List String → Cursor → Except Fault (α × Cursor)
  | 0, _, _, _, c => .error (c.fault .endInObject)
  | fuel + 1, first, record, seen, c =>
    match nextKey first c with
    | .error fault => .error fault
    | .ok none => schema.finishObject record seen c
    | .ok (some key) =>
      match schema.readMember record seen key with
      | .error fault => .error fault
      | .ok (record, seen, c) => schema.readMembers fuel false record seen c

/-- Moves to the next element of a list, past the comma before it; nothing at the end of the
list. -/
def nextElement (first : Bool) (c : Cursor) : Except Fault (Option Cursor) :=
  let c := c.skipBlanks
  match c.peek? with
  | none => .error (c.faultAhead .endInList)
  | some b =>
    if b = 0x5D then .ok none
    else if first then .ok (some c)
    else if b = 0x2C then
      let c := c.advance.skipBlanks
      match c.peek? with
      | none => .error (c.faultAhead .endInValue)
      | some b => if b = 0x5D then .error (c.faultAhead .trailingComma) else .ok (some c)
    else .error (c.faultAhead .expectedListSeparator)

/-- Reads the fields of a list in order; those after its end keep their defaults, and none of
them may be required. -/
def readElements (schema : Schema α) :
    Nat → List (Field α) → α → Cursor → Except Fault (α × Cursor)
  | _, [], record, c => .ok (record, c)
  | position, field :: fields, record, c =>
    match nextElement (position == 0) c with
    | .error fault => .error fault
    | .ok (some c) =>
      match field.read record c with
      | .error fault => .error fault
      | .ok (record, c) => schema.readElements (position + 1) fields record c
    | .ok none =>
      let absent := (field :: fields).findIdx? (·.required)
      match absent with
      | some i =>
        .error (c.skipBlanks.advance.fault
          (.invalidLength (position + i) schema.expectedElements))
      | none => .ok (record, c)

/-- Reads the end of a list after its last field. -/
def finishList (c : Cursor) : Except Fault Cursor :=
  let c := c.skipBlanks
  match c.peek? with
  | none => .error (c.faultAhead .endInList)
  | some b =>
    if b = 0x5D then .ok c.advance
    else if b = 0x2C then
      let c := c.advance.skipBlanks
      .error (c.faultAhead (if c.peek? = some 0x5D then .trailingComma else .trailingCharacters))
    else .error (c.faultAhead .trailingCharacters)

/-- Reads a record. -/
def read (schema : Schema α) (c : Cursor) : Except Fault (α × Cursor) :=
  let c := c.skipBlanks
  match c.peek? with
  | none => .error (c.faultAhead .endInValue)
  | some b =>
    if b = 0x7B then
      schema.readMembers (c.rest.length + 1) true schema.initial [] c.advance
    else if b = 0x5B then do
      let (record, c) ← schema.readElements 0 schema.fields schema.initial c.advance
      return (record, ← finishList c)
    else .error (wrongType schema.expected c)

/-- Reads a whole document as one record. -/
def decode (schema : Schema α) (text : List UInt8) : Except Fault α := do
  let (record, c) ← schema.read (.start text)
  let c := c.skipBlanks
  if c.rest = [] then .ok record else .error (c.faultAhead .trailingCharacters)

end Schema

end Steering.Json
