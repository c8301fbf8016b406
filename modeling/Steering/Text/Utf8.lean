/-! Texts as bytes. Encoding and decoding go through the characters one by one, on lists, so
that both can be followed by induction; decoding reports the offset of the first byte that
starts no character. -/

namespace Steering.Text

/-- The UTF-8 bytes of some characters. -/
def encodeChars (cs : List Char) : List UInt8 :=
  cs.flatMap String.utf8EncodeChar

/-- The UTF-8 bytes of a text. -/
def encode (s : String) : List UInt8 :=
  encodeChars s.toList

/-- The first character of some bytes, or nothing if they start no character. -/
def firstChar? : List UInt8 → Option Char
  | [] => none
  | b :: rest =>
    if b < 0x80 then some (Char.ofNat b.toNat)
    else ((b :: rest).take 4).toByteArray.utf8DecodeChar? 0

/-- Reads characters until the bytes end or start no character. `offset` is the position of
the first byte; the error is the position of the first byte that starts no character. -/
def decodeFrom (offset : Nat) : Nat → List UInt8 → Except Nat (List Char)
  | _, [] => .ok []
  | 0, _ :: _ => .error offset
  | fuel + 1, bytes =>
    match firstChar? bytes with
    | none => .error offset
    | some c => (decodeFrom (offset + c.utf8Size) fuel (bytes.drop c.utf8Size)).map (c :: ·)

/-- The text that some bytes spell in UTF-8, or the offset of the first byte in error. -/
def decode (bytes : List UInt8) : Except Nat String :=
  (decodeFrom 0 bytes.length bytes).map String.ofList

/-- The second bytes that may follow a first byte of a character of three or four bytes. -/
def secondByteRange (first : UInt8) : UInt8 × UInt8 :=
  if first = 0xE0 then (0xA0, 0xBF)
  else if first = 0xED then (0x80, 0x9F)
  else if first = 0xF0 then (0x90, 0xBF)
  else if first = 0xF4 then (0x80, 0x8F)
  else (0x80, 0xBF)

/-- How many bytes at the front, which start no character, are the beginning of one: at least
one byte is always counted. -/
def brokenLength : List UInt8 → Nat
  | first :: second :: rest =>
    let range := secondByteRange first
    if 0xE0 ≤ first && first ≤ 0xF4 && range.1 ≤ second && second ≤ range.2 then
      match rest with
      | third :: _ => if 0xF0 ≤ first && 0x80 ≤ third && third ≤ 0xBF then 3 else 2
      | [] => 2
    else 1
  | _ => 1

/-- Reads characters, with `U+FFFD` in the place of each broken one. -/
def decodeLossyChars : Nat → List UInt8 → List Char
  | _, [] => []
  | 0, _ :: _ => []
  | fuel + 1, bytes =>
    match firstChar? bytes with
    | none => Char.ofNat 0xFFFD :: decodeLossyChars fuel (bytes.drop (brokenLength bytes))
    | some c => c :: decodeLossyChars fuel (bytes.drop c.utf8Size)

/-- The text of some bytes, with `U+FFFD` in the place of each broken character. -/
def decodeLossy (bytes : List UInt8) : String :=
  String.ofList (decodeLossyChars bytes.length bytes)

end Steering.Text
