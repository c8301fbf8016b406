import Steering.Binary64.Shortest
import Steering.Text.Quoted
/-! What can be wrong with a document, and how it is said. A fault is a cause and an offset in
the text; its line and column are found when it is worded. -/

namespace Steering.Json

/-- The kinds of value that a reader can meet where it wants another one. -/
inductive Found where
  | null
  | boolean (value : Bool)
  | integer (value : Int)
  | float (value : Binary64)
  | text (value : String)
  | sequence
  | map

/-- The wording of a value that was met. -/
def Found.message : Found → String
  | null => "null"
  | boolean value => "boolean `" ++ (if value then "true" else "false") ++ "`"
  | integer value => "integer `" ++ toString value ++ "`"
  | float value => "floating point `" ++ value.write Binary64.documentNotation ++ "`"
  | text value => "string " ++ Text.quoted value
  | sequence => "sequence"
  | map => "map"

/-- Why a document is refused. -/
inductive Cause where
  | endInList
  | endInObject
  | endInString
  | endInValue
  | expectedColon
  | expectedListSeparator
  | expectedObjectSeparator
  | expectedWord
  | expectedValue
  | invalidEscape
  | invalidNumber
  | numberOutOfRange
  | invalidCharacter
  | controlCharacter
  | keyNotString
  | loneSurrogate
  | unfinishedSurrogate
  | trailingComma
  | trailingCharacters
  | invalidType (found : Found) (expected : String)
  | invalidValue (found : Found) (expected : String)
  | invalidLength (length : Nat) (expected : String)
  | missingField (name : String)
  | duplicateField (name : String)

/-- The wording of a cause. -/
def Cause.message : Cause → String
  | endInList => "EOF while parsing a list"
  | endInObject => "EOF while parsing an object"
  | endInString => "EOF while parsing a string"
  | endInValue => "EOF while parsing a value"
  | expectedColon => "expected `:`"
  | expectedListSeparator => "expected `,` or `]`"
  | expectedObjectSeparator => "expected `,` or `\x7d`"
  | expectedWord => "expected ident"
  | expectedValue => "expected value"
  | invalidEscape => "invalid escape"
  | invalidNumber => "invalid number"
  | numberOutOfRange => "number out of range"
  | invalidCharacter => "invalid unicode code point"
  | controlCharacter =>
    "control character (\\u0000-\\u001F) found while parsing a string"
  | keyNotString => "key must be a string"
  | loneSurrogate => "lone leading surrogate in hex escape"
  | unfinishedSurrogate => "unexpected end of hex escape"
  | trailingComma => "trailing comma"
  | trailingCharacters => "trailing characters"
  | invalidType found expected => "invalid type: " ++ found.message ++ ", expected " ++ expected
  | invalidValue found expected =>
    "invalid value: " ++ found.message ++ ", expected " ++ expected
  | invalidLength length expected =>
    "invalid length " ++ toString length ++ ", expected " ++ expected
  | missingField name => "missing field `" ++ name ++ "`"
  | duplicateField name => "duplicate field `" ++ name ++ "`"

/-- A cause and how many bytes of the text had been taken, the offending one included where
one byte is to blame. -/
structure Fault where
  cause : Cause
  index : Nat

/-- The line of the first `index` bytes' end: one more than the line feeds among them. -/
def lineAt (text : List UInt8) (index : Nat) : Nat :=
  1 + (text.take index).countP (· == 0x0A)

/-- The bytes between the last line feed and the first `index` bytes' end. -/
def columnAt (text : List UInt8) (index : Nat) : Nat :=
  ((text.take index).reverse.takeWhile (· != 0x0A)).length

/-- The wording of a fault in a text. -/
def Fault.message (fault : Fault) (text : List UInt8) : String :=
  fault.cause.message ++ " at line " ++ toString (lineAt text fault.index) ++ " column "
    ++ toString (columnAt text fault.index)

end Steering.Json
