import Steering.Net.Address
/-! Identifiers of web resources: which texts are one, and the scheme and authority they name.
A text is a path, an authority alone, or a scheme, an authority and perhaps a path. -/

namespace Steering.Net

/-- An identifier. What follows a `#` is not part of it. -/
structure Uri where
  scheme : Option String
  authority : Option String
  /-- The path with its query, as it was written. -/
  path : String
deriving DecidableEq, Repr

/-- Why a text is no identifier. -/
inductive UriFault where
  | empty
  | tooLong
  | badCharacter
  | badAuthority
  | schemeTooLong
  | badFormat
deriving DecidableEq, Repr

/-- The wording of a fault. -/
def UriFault.message : UriFault → String
  | empty => "empty string"
  | tooLong => "uri too long"
  | badCharacter => "invalid uri character"
  | badAuthority => "invalid authority"
  | schemeTooLong => "scheme too long"
  | badFormat => "invalid format"

namespace Uri

/-- The most bytes an identifier may have. -/
def maxLength : Nat := 65534

/-- The most characters a scheme may have. -/
def maxSchemeLength : Nat := 64

/-- Whether a character may stand in a scheme. -/
def isSchemeChar (c : Char) : Bool :=
  c.isAlphanum || ['+', '-', '.', '~'].contains c

/-- Whether a character may stand in an authority as it is. -/
def isAuthorityChar (c : Char) : Bool :=
  c.isAlphanum || "!$&\x27()*+,-.:;=@[]_~".toList.contains c

/-- Whether a character ends an authority. -/
def endsAuthority (c : Char) : Bool :=
  ['/', '?', '#'].contains c

/-- Whether a character may stand in a path: any visible one but those that end the path, the
angle brackets and the grave accent. -/
def isPathChar (c : Char) : Bool :=
  '!' ≤ c && !(['#', '<', '>', '?', '\x60', '\x7f'].contains c)

/-- Whether a character may stand in a query: any visible one but the double quote, the angle
brackets and the one that ends the query. -/
def isQueryChar (c : Char) : Bool :=
  '!' ≤ c && !(['"', '#', '<', '>', '\x7f'].contains c)

/-- What has been seen of an authority. The user part before an `@` and an address in brackets
may hold colons and percent signs that do not count. -/
structure AuthorityScan where
  colons : Nat
  opened : Bool
  closed : Bool
  percent : Bool
  endsWithAt : Bool

/-- The scan before the first character. -/
def AuthorityScan.start : AuthorityScan :=
  ⟨0, false, false, false, false⟩

/-- The scan after one more character. -/
def AuthorityScan.step (scan : AuthorityScan) (c : Char) : Except UriFault AuthorityScan :=
  let scan := { scan with endsWithAt := c == '@' }
  if c = ':' then
    if 8 ≤ scan.colons then .error .badAuthority else .ok { scan with colons := scan.colons + 1 }
  else if c = '[' then
    if scan.percent || scan.opened then .error .badAuthority else .ok { scan with opened := true }
  else if c = ']' then
    if !scan.opened || scan.closed then .error .badAuthority
    else .ok { scan with closed := true, colons := 0, percent := false }
  else if c = '@' then .ok { scan with colons := 0, percent := false }
  else if c = '%' then .ok { scan with percent := true }
  else if isAuthorityChar c then .ok scan
  else .error .badCharacter

/-- Whether a scanned authority is complete: brackets in a pair, at most the colon of a port,
a host behind the `@`, and no percent sign in the host. -/
def AuthorityScan.complete (scan : AuthorityScan) : Bool :=
  scan.opened == scan.closed && scan.colons ≤ 1 && !scan.endsWithAt && !scan.percent

/-- Checks an authority. -/
def checkAuthority (cs : List Char) : Except UriFault Unit := do
  let scan ← cs.foldlM AuthorityScan.step .start
  if scan.complete then .ok () else .error .badAuthority

/-- Checks a path and its query, and gives them without what follows a `#`. -/
def checkPath (cs : List Char) : Except UriFault String := do
  let kept := cs.takeWhile (· ≠ '#')
  let path := kept.takeWhile (· ≠ '?')
  let query := (kept.dropWhile (· ≠ '?')).drop 1
  if path.all isPathChar && query.all isQueryChar then .ok (String.ofList kept)
  else .error .badCharacter

/-- The scheme of a text and what follows its `://`, if the text has a scheme. -/
def splitScheme? (cs : List Char) : Option (String × List Char) :=
  match cs.dropWhile isSchemeChar with
  | ':' :: '/' :: '/' :: rest => some (String.ofList (cs.takeWhile isSchemeChar), rest)
  | _ => none

/-- Reads a text as an identifier. -/
def parse (s : String) : Except UriFault Uri := do
  let cs := s.toList
  if maxLength < s.utf8ByteSize then .error .tooLong
  else if cs = [] then .error .empty
  else if cs = ['*'] then .ok ⟨none, none, "*"⟩
  else if cs = ['?'] || cs = ['#'] then .error .badCharacter
  else if cs.head? = some '/' then .ok ⟨none, none, ← checkPath cs⟩
  else match splitScheme? cs with
    | some (scheme, rest) =>
      if maxSchemeLength < scheme.length then .error .schemeTooLong
      else
        let authority := rest.takeWhile fun c => !endsAuthority c
        checkAuthority authority
        if authority = [] then .error .badFormat
        else
          let path ← checkPath (rest.dropWhile fun c => !endsAuthority c)
          .ok ⟨some scheme, some (String.ofList authority), path⟩
    | none =>
      checkAuthority (cs.takeWhile fun c => !endsAuthority c)
      if cs.any endsAuthority then .error .badFormat else .ok ⟨none, some s, ""⟩

/-- Whether a text is an identifier with a scheme and an authority. -/
def isAbsolute (s : String) : Bool :=
  match parse s with
  | .ok uri => uri.scheme.isSome && uri.authority.isSome
  | .error _ => false

/-- Whether an identifier has the scheme of unencrypted web traffic, in any case of letters. -/
def isHttp (uri : Uri) : Bool :=
  uri.scheme.any fun scheme => scheme.toLower == "http"

end Uri

end Steering.Net
