import Steering.Json.Text
/-! Form parameters: names and values joined by `=` and `&`, with blanks as `+` and any byte as
a percent sign and two digits. -/

namespace Steering.Http.Form

/-- Undoes the escapes of one name or value. A percent sign without two digits stays. -/
def decodeBytes : List UInt8 → List UInt8
  | [] => []
  | 0x2B :: rest => 0x20 :: decodeBytes rest
  | 0x25 :: a :: b :: rest =>
    match Json.hexValue? a, Json.hexValue? b with
    | some high, some low => UInt8.ofNat (high * 16 + low) :: decodeBytes rest
    | _, _ => 0x25 :: decodeBytes (a :: b :: rest)
  | b :: rest => b :: decodeBytes rest

/-- The text of one name or value. -/
def decodeText (bytes : List UInt8) : String :=
  Text.decodeLossy (decodeBytes bytes)

/-- The name and the value of one pair: without a `=` the value is empty. -/
def decodePair (pair : List UInt8) : String × String :=
  (decodeText (pair.takeWhile (· != 0x3D)), decodeText ((pair.dropWhile (· != 0x3D)).drop 1))

/-- The pairs of a query, in order. Empty pairs are left out. -/
def decode (query : List UInt8) : List (String × String) :=
  ((query.splitOn 0x26).filter (· != [])).map decodePair

/-- The value of a name: the last one, if there are several. -/
def value? (pairs : List (String × String)) (name : String) : Option String :=
  (pairs.reverse.find? (·.1 == name)).map (·.2)

end Steering.Http.Form
