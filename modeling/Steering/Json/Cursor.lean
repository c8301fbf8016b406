import Steering.Json.Fault
/-! A place in a document: what is left to read and how much has been read. -/

namespace Steering.Json

/-- What is left of a document, and the number of bytes before it. -/
structure Cursor where
  rest : List UInt8
  index : Nat
deriving DecidableEq, Repr

/-- A reader takes part of a document or finds a fault. -/
abbrev Reader (α : Type) := Cursor → Except Fault (α × Cursor)

namespace Cursor

/-- The start of a document. -/
def start (text : List UInt8) : Cursor := ⟨text, 0⟩

/-- The next byte. -/
def peek? (c : Cursor) : Option UInt8 := c.rest.head?

/-- The cursor after the next byte; at the end, the same cursor. -/
def advance (c : Cursor) : Cursor :=
  match c.rest with
  | [] => c
  | _ :: rest => ⟨rest, c.index + 1⟩

/-- The cursor after some bytes. -/
def skip (c : Cursor) (count : Nat) : Cursor :=
  ⟨c.rest.drop count, c.index + min count c.rest.length⟩

/-- A fault of what has been read. -/
def fault (c : Cursor) (cause : Cause) : Fault := ⟨cause, c.index⟩

/-- A fault of the next byte. -/
def faultAhead (c : Cursor) (cause : Cause) : Fault := ⟨cause, c.advance.index⟩

/-- Whether a byte may stand between the parts of a document. -/
def isBlankByte (b : UInt8) : Bool :=
  b == 0x20 || b == 0x0A || b == 0x09 || b == 0x0D

/-- The cursor after the blanks ahead. -/
def skipBlanks (c : Cursor) : Cursor :=
  c.skip (c.rest.takeWhile isBlankByte).length

/-- Reads the rest of a word whose first letter has been read. -/
def readWord (c : Cursor) : List UInt8 → Except Fault Cursor
  | [] => .ok c
  | expected :: word =>
    match c.rest with
    | [] => .error (c.fault .endInValue)
    | b :: _ =>
      if b == expected then c.advance.readWord word else .error (c.advance.fault .expectedWord)

end Cursor

/-- What follows the first letter of each of the three words. -/
def restOfNull : List UInt8 := [0x75, 0x6C, 0x6C]
def restOfTrue : List UInt8 := [0x72, 0x75, 0x65]
def restOfFalse : List UInt8 := [0x61, 0x6C, 0x73, 0x65]

end Steering.Json
