/-! Text in the block format: characters with a position, and the classes that its rules speak
of. A line may end in five ways. -/

namespace Steering.Yaml

/-- A position: characters, lines and columns before it. -/
structure Mark where
  index : Nat
  line : Nat
  column : Nat
deriving DecidableEq, Repr

/-- What can be wrong with a text. -/
inductive Cause where
  | forbiddenCharacter
  | unexpectedCharacter
  | unexpectedEnd
  | badDirective
  | badAnchor
  | badTag
  | badEscape
  | badIndentation
  | badBlockHeader
  | missingColon
  | misplacedEntry
  | misplacedKey
  | misplacedValue
  | unexpectedToken
  | unknownTagHandle
  | unknownAnchor
  | severalDocuments
deriving DecidableEq, Repr

/-- A cause and where it was found. -/
structure Fault where
  cause : Cause
  mark : Mark
deriving DecidableEq, Repr

/-- The wording of a cause. -/
def Cause.message : Cause → String
  | forbiddenCharacter => "control characters are not allowed"
  | unexpectedCharacter => "found an unexpected character"
  | unexpectedEnd => "found an unexpected end of the text"
  | badDirective => "found a directive that is not well formed"
  | badAnchor => "found an anchor that is not well formed"
  | badTag => "found a tag that is not well formed"
  | badEscape => "found an unknown escape"
  | badIndentation => "found a tab where indentation is expected"
  | badBlockHeader => "found a block header that is not well formed"
  | missingColon => "could not find the colon of a key"
  | misplacedEntry => "block sequence entries are not allowed here"
  | misplacedKey => "mapping keys are not allowed here"
  | misplacedValue => "mapping values are not allowed here"
  | unexpectedToken => "did not find what is expected here"
  | unknownTagHandle => "found an undefined tag handle"
  | unknownAnchor => "found a reference to an unknown anchor"
  | severalDocuments => "found more than one document"

/-- The wording of a fault, with its line and column counted from one. -/
def Fault.message (fault : Fault) : String :=
  fault.cause.message ++ " at line " ++ toString (fault.mark.line + 1) ++ " column "
    ++ toString (fault.mark.column + 1)

/-- Whether a character may occur in a text at all. -/
def isAllowed (c : Char) : Bool :=
  let n := c.toNat
  n == 0x09 || n == 0x0A || n == 0x0D || (0x20 ≤ n && n ≤ 0x7E) || n == 0x85
    || (0xA0 ≤ n && n ≤ 0xFFFD) || 0x10000 ≤ n

/-- Whether a character ends a line. -/
def isBreak (c : Char) : Bool :=
  ['\r', '\n', Char.ofNat 0x85, Char.ofNat 0x2028, Char.ofNat 0x2029].contains c

/-- Whether a character is a space or a tab. -/
def isSpaceOrTab (c : Char) : Bool :=
  c == ' ' || c == '\t'

/-- Whether a character may be part of an anchor, a directive or a handle. -/
def isWordChar (c : Char) : Bool :=
  c.isAlphanum || c == '_' || c == '-'

/-- Whether what comes next, if anything, ends a line. -/
def endsLine : Option Char → Bool
  | none => true
  | some c => isBreak c

/-- Whether what comes next, if anything, is a space, a tab or the end of a line. -/
def endsWord : Option Char → Bool
  | none => true
  | some c => isSpaceOrTab c || isBreak c

/-- What is left of a text, and its position. -/
structure Cursor where
  rest : List Char
  mark : Mark
deriving DecidableEq, Repr

namespace Cursor

/-- The start of a text. -/
def start (text : List Char) : Cursor := ⟨text, ⟨0, 0, 0⟩⟩

/-- The character a number of places ahead. -/
def ahead? (c : Cursor) (places : Nat) : Option Char := c.rest[places]?

/-- The next character. -/
def peek? (c : Cursor) : Option Char := c.rest.head?

/-- Whether a given character comes next. -/
def isAt (c : Cursor) (expected : Char) : Bool := c.peek? == some expected

/-- The cursor after a number of characters on one line. -/
def skip (c : Cursor) (count : Nat) : Cursor :=
  let taken := min count c.rest.length
  ⟨c.rest.drop count,
    { c.mark with index := c.mark.index + taken, column := c.mark.column + taken }⟩

/-- The cursor after the next character of a line. -/
def advance (c : Cursor) : Cursor := c.skip 1

/-- The cursor after the characters ahead that have a property. -/
def skipWhile (c : Cursor) (p : Char → Bool) : Cursor :=
  c.skip (c.rest.takeWhile p).length

/-- Reads the end of a line, if it is next. The separators of Unicode stay what they are; all
other ends become a line feed. -/
def readBreak (c : Cursor) : List Char × Cursor :=
  let next (count : Nat) (rest : List Char) : Cursor :=
    ⟨rest, ⟨c.mark.index + count, c.mark.line + 1, 0⟩⟩
  match c.rest with
  | '\r' :: '\n' :: rest => (['\n'], next 2 rest)
  | x :: rest =>
    if !isBreak x then ([], c)
    else if x.toNat = 0x2028 ∨ x.toNat = 0x2029 then ([x], next 1 rest)
    else (['\n'], next 1 rest)
  | [] => ([], c)

/-- The cursor after a comment, if one is next. -/
def skipComment (c : Cursor) : Cursor :=
  if c.isAt '#' then c.skipWhile fun x => !isBreak x else c

/-- The cursor after the rest of a line that may hold only blanks and a comment. -/
def finishLine (c : Cursor) (cause : Cause) : Except Fault Cursor :=
  let c := (c.skipWhile isSpaceOrTab).skipComment
  if endsLine c.peek? then .ok c.readBreak.2 else .error ⟨cause, c.mark⟩

/-- Whether one of the two lines that bound documents starts here. -/
def isAtDocumentMark (c : Cursor) : Bool :=
  c.mark.column == 0 && endsWord (c.ahead? 3)
    && (c.rest.take 3 == ['-', '-', '-'] || c.rest.take 3 == ['.', '.', '.'])

end Cursor

end Steering.Yaml
