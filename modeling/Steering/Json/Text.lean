import Steering.Json.Cursor
import Steering.Text.Utf8
/-! Strings in documents: how they are written, and how they are read and checked. -/

namespace Steering.Json

/-- The digit that stands for a number below sixteen. -/
def hexDigit (n : Nat) : Char :=
  if n < 10 then Char.ofNat (0x30 + n) else Char.ofNat (0x57 + n)

/-- A character inside a string: quote, backslash and control characters are escaped, by a
short escape where there is one. -/
def escapeChar (c : Char) : List Char :=
  if c = '"' ∨ c = '\\' then ['\\', c]
  else if c = '\x08' then ['\\', 'b']
  else if c = '\x0c' then ['\\', 'f']
  else if c = '\n' then ['\\', 'n']
  else if c = '\r' then ['\\', 'r']
  else if c = '\t' then ['\\', 't']
  else if c.toNat < 0x20 then
    ['\\', 'u', '0', '0', hexDigit (c.toNat / 16), hexDigit (c.toNat % 16)]
  else [c]

/-- The written form of a string. -/
def writeText (s : String) : String :=
  String.ofList ('"' :: s.toList.flatMap escapeChar ++ ['"'])

/-- The value of a hexadecimal digit. -/
def hexValue? (b : UInt8) : Option Nat :=
  if 0x30 ≤ b ∧ b ≤ 0x39 then some (b.toNat - 0x30)
  else if 0x41 ≤ b ∧ b ≤ 0x46 then some (b.toNat - 0x37)
  else if 0x61 ≤ b ∧ b ≤ 0x66 then some (b.toNat - 0x57)
  else none

/-- Reads the four hexadecimal digits of an escape. -/
def readUnit (c : Cursor) : Except Fault (Nat × Cursor) :=
  match c.rest with
  | a :: b :: d :: e :: _ =>
    match hexValue? a, hexValue? b, hexValue? d, hexValue? e with
    | some a, some b, some d, some e => .ok (((a * 16 + b) * 16 + d) * 16 + e, c.skip 4)
    | _, _, _, _ => .error ((c.skip 4).fault .invalidEscape)
  | _ => .error ((c.skip 4).fault .endInString)

/-- Reads one byte that must come between the halves of a pair of surrogates. -/
def readPairByte (expected : UInt8) (c : Cursor) : Except Fault Cursor :=
  match c.peek? with
  | none => .error (c.fault .endInString)
  | some b => if b = expected then .ok c.advance else .error (c.advance.fault .unfinishedSurrogate)

/-- Reads the character that an escape names by its code point, in one unit or in two. -/
def readCodePoint (c : Cursor) : Except Fault (Char × Cursor) := do
  let (high, c) ← readUnit c
  if 0xDC00 ≤ high ∧ high ≤ 0xDFFF then .error (c.fault .loneSurrogate)
  else if high < 0xD800 ∨ 0xDBFF < high then .ok (Char.ofNat high, c)
  else
    let c ← readPairByte 0x5C c
    let c ← readPairByte 0x75 c
    let (low, c) ← readUnit c
    if low < 0xDC00 ∨ 0xDFFF < low then .error (c.fault .loneSurrogate)
    else .ok (Char.ofNat (0x10000 + (high - 0xD800) * 0x400 + (low - 0xDC00)), c)

/-- The character of a short escape, by the letter after the backslash. -/
def shortEscape? (b : UInt8) : Option Char :=
  if b = 0x22 then some '"'
  else if b = 0x5C then some '\\'
  else if b = 0x2F then some '/'
  else if b = 0x62 then some '\x08'
  else if b = 0x66 then some '\x0c'
  else if b = 0x6E then some '\n'
  else if b = 0x72 then some '\r'
  else if b = 0x74 then some '\t'
  else none

/-- Reads an escape after its backslash. -/
def readEscape (c : Cursor) : Except Fault (Char × Cursor) :=
  match c.peek? with
  | none => .error (c.fault .endInString)
  | some b =>
    match shortEscape? b with
    | some x => .ok (x, c.advance)
    | none => if b = 0x75 then readCodePoint c.advance else .error (c.advance.fault .invalidEscape)

/-- Reads one character of a string, which is not its closing quote. -/
def readChar (c : Cursor) : Except Fault (Char × Cursor) :=
  match c.peek? with
  | none => .error (c.fault .endInString)
  | some b =>
    if b = 0x5C then readEscape c.advance
    else if b < 0x20 then .error (c.advance.fault .controlCharacter)
    else
      match Text.firstChar? c.rest with
      | some x => .ok (x, c.skip x.utf8Size)
      | none => .error (c.advance.fault .invalidCharacter)

/-- Reads the rest of a string after its opening quote; `read` holds its characters so far, the
last one first. -/
def readCharsFrom : Nat → List Char → Cursor → Except Fault (String × Cursor)
  | 0, _, c => .error (c.fault .endInString)
  | fuel + 1, read, c =>
    if c.peek? = some 0x22 then .ok (String.ofList read.reverse, c.advance)
    else
      match readChar c with
      | .ok (x, c) => readCharsFrom fuel (x :: read) c
      | .error fault => .error fault

/-- Reads the rest of a string after its opening quote. -/
def readText (c : Cursor) : Except Fault (String × Cursor) :=
  readCharsFrom (c.rest.length + 1) [] c

end Steering.Json
