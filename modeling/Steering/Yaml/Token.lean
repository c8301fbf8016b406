import Steering.Yaml.Scalar
/-! Tokens: the marks and scalars of a text, with the bounds of its blocks made explicit. A key
is known to be one only when its colon comes, so its token is put in front of what has already
been read. -/

namespace Steering.Yaml

/-- The parts of a text. -/
inductive Token where
  | versionDirective (major minor : Nat)
  | tagDirective (handle head : String)
  | documentStart
  | documentEnd
  | blockSequenceStart
  | blockMappingStart
  | blockEnd
  | flowSequenceStart
  | flowSequenceEnd
  | flowMappingStart
  | flowMappingEnd
  | blockEntry
  | flowEntry
  | key
  | value
  | alias (name : String)
  | anchor (name : String)
  | tag (handle suffix : String)
  | scalar (style : Style) (text : String)
deriving DecidableEq, Repr

/-- A place where a key may have started: the number of its token, and whether the text is
wrong if no colon follows. -/
structure KeyStart where
  required : Bool
  number : Nat
  mark : Mark
deriving Repr

/-- The state of reading tokens. -/
structure Scan where
  cursor : Cursor
  /-- The tokens so far. -/
  tokens : Array Token
  /-- The column of the innermost block, and those of the blocks around it. -/
  indent : Int
  indents : List Int
  /-- Where a key may have started, on each level of brackets, the innermost first. -/
  keys : List (Option KeyStart)
  /-- Whether a key may start here. -/
  keyAllowed : Bool

namespace Scan

/-- The state at the start of a text. -/
def start (text : List Char) : Scan :=
  ⟨.start text, #[], -1, [], [none], true⟩

/-- Whether the scan is between brackets. -/
def inFlow (s : Scan) : Bool := 1 < s.keys.length

/-- Adds a token. -/
def emit (s : Scan) (token : Token) : Scan :=
  { s with tokens := s.tokens.push token }

/-- A fault at the cursor. -/
def fault (s : Scan) (cause : Cause) : Fault := ⟨cause, s.cursor.mark⟩

/-- Puts a token in front of one that has been added. -/
def insert (s : Scan) (number : Nat) (token : Token) : Scan :=
  { s with tokens := s.tokens.insertIdxIfInBounds number token }

/-- Opens a block if the column is right of the innermost one. -/
def openBlock (s : Scan) (column : Nat) (number : Nat) (token : Token) : Scan :=
  if !s.inFlow && s.indent < column then
    { s.insert number token with indent := column, indents := s.indent :: s.indents }
  else s

/-- Closes the blocks right of a column. -/
def closeBlocks (column : Int) : Nat → Scan → Scan
  | 0, s => s
  | fuel + 1, s =>
    match s.indents with
    | [] => s
    | outer :: rest =>
      if column < s.indent then
        closeBlocks column fuel { s.emit .blockEnd with indent := outer, indents := rest }
      else s

/-- Closes the blocks right of a column; between brackets there are none. -/
def unrollTo (s : Scan) (column : Int) : Scan :=
  if s.inFlow then s else closeBlocks column s.indents.length s

/-- Gives up the key that may have started on the innermost level. -/
def dropKey (s : Scan) : Except Fault Scan :=
  match s.keys with
  | some key :: outer =>
    if key.required then .error ⟨.missingColon, key.mark⟩
    else .ok { s with keys := none :: outer }
  | _ => .ok s

/-- Notes that a key may start at the cursor. -/
def noteKey (s : Scan) : Except Fault Scan :=
  if s.keyAllowed then do
    let required := !s.inFlow && s.indent == s.cursor.mark.column
    let s ← s.dropKey
    return { s with
      keys := some ⟨required, s.tokens.size, s.cursor.mark⟩ :: s.keys.drop 1 }
  else .ok s

/-- Gives up the keys that started too far back: on an earlier line, or more than 1024
characters before. -/
def dropStaleKeys (s : Scan) : Except Fault Scan := do
  let keys ← s.keys.mapM fun
    | some key =>
      if key.mark.line < s.cursor.mark.line || key.mark.index + 1024 < s.cursor.mark.index then
        if key.required then .error ⟨.missingColon, key.mark⟩ else .ok none
      else .ok (some key)
    | none => .ok none
  return { s with keys }

/-- Moves past blanks, comments and ends of lines to the next token. Where a key may start in a
block, a tab is no blank. -/
def skipToToken : Nat → Scan → Scan
  | 0, s => s
  | fuel + 1, s =>
    let c := s.cursor
    let c := if c.mark.index = 0 && c.isAt (Char.ofNat 0xFEFF) then c.advance else c
    let tabs := s.inFlow || !s.keyAllowed
    let c := (c.skipWhile fun x => x == ' ' || (tabs && x == '\t')).skipComment
    if c.peek?.any isBreak then
      skipToToken fuel
        { s with cursor := c.readBreak.2, keyAllowed := s.keyAllowed || !s.inFlow }
    else { s with cursor := c }

/-- Reads a number of at most nine digits in a directive. -/
def readVersionNumber (c : Cursor) : Except Fault (Nat × Cursor) :=
  let digits := c.rest.takeWhile Char.isDigit
  if digits = [] ∨ 9 < digits.length then .error ⟨.badDirective, c.mark⟩
  else
    .ok (Net.ofDigits 10 (digits.filterMap (Net.digitValue? 10)), c.skip digits.length)

/-- Reads the handle of a tag. In a directive it must be complete. -/
def readHandle (inDirective : Bool) (c : Cursor) : Except Fault (String × Cursor) :=
  if !c.isAt '!' then .error ⟨.badTag, c.mark⟩
  else
    let word := (c.rest.drop 1).takeWhile isWordChar
    let after := c.skip (1 + word.length)
    if after.isAt '!' then .ok (String.ofList ('!' :: word ++ ['!']), after.advance)
    else if inDirective && word ≠ [] then .error ⟨.badTag, after.mark⟩
    else .ok (String.ofList ('!' :: word), after)

/-- Whether a character may be part of a tag; commas and square brackets only in a whole
identifier. -/
def isTagChar (whole : Bool) (c : Char) : Bool :=
  isWordChar c || ";/?:@&=+$.%!~*'()".toList.contains c || (whole && ",[]".toList.contains c)

/-- Reads one escaped byte of a tag. -/
def readTagByte (c : Cursor) : Except Fault (Nat × Cursor) :=
  match c.rest with
  | '%' :: a :: b :: _ =>
    match Net.digitValue? 16 a, Net.digitValue? 16 b with
    | some a, some b => .ok (a * 16 + b, c.skip 3)
    | _, _ => .error ⟨.badTag, c.mark⟩
  | _ => .error ⟨.badTag, c.mark⟩

/-- How many bytes follow the first byte of an encoded character. -/
def followingBytes? (byte : Nat) : Option Nat :=
  if byte < 0x80 then some 0
  else if 0xC0 ≤ byte ∧ byte < 0xE0 then some 1
  else if 0xE0 ≤ byte ∧ byte < 0xF0 then some 2
  else if 0xF0 ≤ byte ∧ byte < 0xF8 then some 3
  else none

/-- Reads the bytes that follow the first byte of an encoded character. -/
def readTagBytes : Nat → Nat → Cursor → Except Fault (Nat × Cursor)
  | 0, point, c => .ok (point, c)
  | count + 1, point, c => do
    let (byte, c) ← readTagByte c
    if 0x80 ≤ byte ∧ byte < 0xC0 then readTagBytes count (point * 64 + byte % 64) c
    else throw ⟨.badTag, c.mark⟩

/-- Reads an escaped character of a tag. -/
def readTagEscape (c : Cursor) : Except Fault (Char × Cursor) := do
  let (byte, c) ← readTagByte c
  match followingBytes? byte with
  | none => throw ⟨.badTag, c.mark⟩
  | some 0 => return (Char.ofNat byte, c)
  | some count =>
    let (point, c) ← readTagBytes count (byte % Nat.pow 2 (6 - count)) c
    return (Char.ofNat point, c)

/-- Reads the characters of a tag; `text` holds what has been read, last character first. -/
def readTagTextFrom (whole : Bool) :
    Nat → List Char → Cursor → Except Fault (List Char × Cursor)
  | 0, text, c => .ok (text, c)
  | fuel + 1, text, c =>
    match c.peek? with
    | some '%' => do
      let (x, c) ← readTagEscape c
      readTagTextFrom whole fuel (x :: text) c
    | some x =>
      if isTagChar whole x then readTagTextFrom whole fuel (x :: text) c.advance
      else .ok (text, c)
    | none => .ok (text, c)

/-- Reads the characters of a tag. -/
def readTagText (whole : Bool) (c : Cursor) : Except Fault (String × Cursor) :=
  (readTagTextFrom whole (c.rest.length + 1) [] c).map fun (text, c) =>
    (String.ofList text.reverse, c)

/-- Reads a tag: a whole identifier in angle brackets, a handle and a suffix, or a suffix of
the primary handle. The bare mark has an empty handle. -/
def readTag (c : Cursor) : Except Fault (Token × Cursor) := do
  if c.ahead? 1 == some '<' then
    let (suffix, c) ← readTagText true (c.skip 2)
    if suffix = "" ∨ !c.isAt '>' then throw ⟨.badTag, c.mark⟩
    return (.tag "" suffix, c.advance)
  else
    let (handle, c) ← readHandle false c
    let (suffix, c) ← readTagText false c
    if 1 < handle.length ∧ handle.endsWith "!" then
      if suffix = "" then throw ⟨.badTag, c.mark⟩
      return (.tag handle suffix, c)
    else
      let suffix := (handle.drop 1).toString ++ suffix
      return (if suffix = "" then .tag "" "!" else .tag "!" suffix, c)

/-- Reads a directive, which fills a line. -/
def readDirective (c : Cursor) : Except Fault (Token × Cursor) := do
  let name := c.advance.rest.takeWhile isWordChar
  let c := c.skip (1 + name.length)
  if name = [] ∨ !endsWord c.peek? then throw ⟨.badDirective, c.mark⟩
  let c := c.skipWhile isSpaceOrTab
  match String.ofList name with
  | "YAML" =>
    let (major, c) ← readVersionNumber c
    if !c.isAt '.' then throw ⟨.badDirective, c.mark⟩
    let (minor, c) ← readVersionNumber c.advance
    return (.versionDirective major minor, ← c.finishLine .badDirective)
  | "TAG" =>
    let (handle, c) ← readHandle true c
    if !c.peek?.any isSpaceOrTab then throw ⟨.badDirective, c.mark⟩
    let (head, c) ← readTagText true (c.skipWhile isSpaceOrTab)
    if head = "" ∨ !endsWord c.peek? then throw ⟨.badDirective, c.mark⟩
    return (.tagDirective handle head, ← c.finishLine .badDirective)
  | _ => throw ⟨.badDirective, c.mark⟩

/-- Reads a directive or a line that bounds documents, after which no block is open. -/
def fetchBoundary (s : Scan) (read : Cursor → Except Fault (Token × Cursor)) :
    Except Fault Scan := do
  let s ← (s.unrollTo (-1)).dropKey
  let (token, cursor) ← read s.cursor
  return { s.emit token with cursor, keyAllowed := false }

/-- Reads an opening bracket. -/
def fetchOpening (s : Scan) (token : Token) : Except Fault Scan := do
  let s ← s.noteKey
  return { s.emit token with cursor := s.cursor.advance, keys := none :: s.keys, keyAllowed := true }

/-- Reads a closing bracket. -/
def fetchClosing (s : Scan) (token : Token) : Except Fault Scan := do
  let s ← s.dropKey
  return { s.emit token with
    cursor := s.cursor.advance
    keys := if s.inFlow then s.keys.drop 1 else s.keys
    keyAllowed := false }

/-- Reads a comma between brackets. -/
def fetchFlowEntry (s : Scan) : Except Fault Scan := do
  let s ← s.dropKey
  return { s.emit .flowEntry with cursor := s.cursor.advance, keyAllowed := true }

/-- Reads the dash of an entry. -/
def fetchBlockEntry (s : Scan) : Except Fault Scan := do
  if !s.inFlow && !s.keyAllowed then throw (s.fault .misplacedEntry)
  let s ← (s.openBlock s.cursor.mark.column s.tokens.size .blockSequenceStart).dropKey
  return { s.emit .blockEntry with cursor := s.cursor.advance, keyAllowed := true }

/-- Reads the question mark of a key. -/
def fetchKey (s : Scan) : Except Fault Scan := do
  if !s.inFlow && !s.keyAllowed then throw (s.fault .misplacedKey)
  let s ← (s.openBlock s.cursor.mark.column s.tokens.size .blockMappingStart).dropKey
  return { s.emit .key with cursor := s.cursor.advance, keyAllowed := !s.inFlow }

/-- Reads the colon of a value. If a key may have started, its token goes in front of it. -/
def fetchValue (s : Scan) : Except Fault Scan := do
  match s.keys with
  | some key :: outer =>
    let s := (s.insert key.number .key).openBlock key.mark.column key.number .blockMappingStart
    return { s.emit .value with
      cursor := s.cursor.advance, keys := none :: outer, keyAllowed := false }
  | _ =>
    if !s.inFlow && !s.keyAllowed then throw (s.fault .misplacedValue)
    let s := s.openBlock s.cursor.mark.column s.tokens.size .blockMappingStart
    return { s.emit .value with cursor := s.cursor.advance, keyAllowed := !s.inFlow }

/-- Reads an anchor or an alias. -/
def fetchAnchor (s : Scan) (token : String → Token) : Except Fault Scan := do
  let s ← s.noteKey
  let name := s.cursor.advance.rest.takeWhile isWordChar
  let cursor := s.cursor.skip (1 + name.length)
  let ended := endsWord cursor.peek? || cursor.peek?.any "?:,]\x7d%@`".toList.contains
  if name = [] ∨ !ended then throw ⟨.badAnchor, cursor.mark⟩
  return { s.emit (token (String.ofList name)) with cursor, keyAllowed := false }

/-- Reads a tag. -/
def fetchTag (s : Scan) : Except Fault Scan := do
  let s ← s.noteKey
  let (token, cursor) ← readTag s.cursor
  if !endsWord cursor.peek? && !(s.inFlow && cursor.isAt ',') then throw ⟨.badTag, cursor.mark⟩
  return { s.emit token with cursor, keyAllowed := false }

/-- Reads a block scalar. -/
def fetchBlockScalar (s : Scan) (folded : Bool) : Except Fault Scan := do
  let s ← s.dropKey
  let (text, cursor) ← readBlock folded s.indent s.cursor
  return { s.emit (.scalar (if folded then .folded else .literal) text) with
    cursor, keyAllowed := true }

/-- Reads a quoted scalar. -/
def fetchQuoted (s : Scan) (single : Bool) : Except Fault Scan := do
  let s ← s.noteKey
  let (text, cursor) ← readQuoted single s.cursor
  return { s.emit (.scalar (if single then .singleQuoted else .doubleQuoted) text) with
    cursor, keyAllowed := false }

/-- Reads a plain scalar. A key may start after it if it was followed by the end of a line. -/
def fetchPlain (s : Scan) : Except Fault Scan := do
  let s ← s.noteKey
  let (text, broken, cursor) ← readPlain s.inFlow s.indent s.cursor
  return { s.emit (.scalar .plain text) with cursor, keyAllowed := broken }

/-- Whether a plain scalar may start with a character, given the next one. -/
def startsPlain (flow : Bool) (x : Char) (next : Option Char) : Bool :=
  if x == '-' then !next.any isSpaceOrTab
  else if x == '?' || x == ':' then !flow && !endsWord next
  else !",[]\x7b\x7d#&*!|>'\"%@`".toList.contains x && !isSpaceOrTab x && !isBreak x

/-- Reads the token at the cursor, which is not at the end of the text. -/
def fetchAt (s : Scan) (x : Char) : Except Fault Scan :=
  let c := s.cursor
  let next := c.ahead? 1
  if c.mark.column = 0 ∧ x = '%' then s.fetchBoundary readDirective
  else if c.isAtDocumentMark then
    let token := if x = '-' then Token.documentStart else .documentEnd
    s.fetchBoundary fun c => .ok (token, c.skip 3)
  else if x = '[' then s.fetchOpening .flowSequenceStart
  else if x = '\x7b' then s.fetchOpening .flowMappingStart
  else if x = ']' then s.fetchClosing .flowSequenceEnd
  else if x = '\x7d' then s.fetchClosing .flowMappingEnd
  else if x = ',' then s.fetchFlowEntry
  else if x = '-' ∧ endsWord next then s.fetchBlockEntry
  else if x = '?' ∧ (s.inFlow ∨ endsWord next) then s.fetchKey
  else if x = ':' ∧ (s.inFlow ∨ endsWord next) then s.fetchValue
  else if x = '*' then s.fetchAnchor .alias
  else if x = '&' then s.fetchAnchor .anchor
  else if x = '!' then s.fetchTag
  else if x = '|' ∧ !s.inFlow then s.fetchBlockScalar false
  else if x = '>' ∧ !s.inFlow then s.fetchBlockScalar true
  else if x = '\'' then s.fetchQuoted true
  else if x = '"' then s.fetchQuoted false
  else if startsPlain s.inFlow x next then s.fetchPlain
  else .error (s.fault .unexpectedCharacter)

/-- Reads tokens up to the end of the text. Each takes a character, so there are no more tokens
to fetch than characters. -/
def run : Nat → Scan → Except Fault Scan
  | 0, s => .ok s
  | fuel + 1, s => do
    let s := s.skipToToken (s.cursor.rest.length + 1)
    let s ← s.dropStaleKeys
    let s := s.unrollTo s.cursor.mark.column
    match s.cursor.peek? with
    | none => (s.unrollTo (-1)).dropKey
    | some x => run fuel (← s.fetchAt x)

end Scan

/-- The tokens of a text. -/
def Token.scan (text : String) : Except Fault (List Token) :=
  let cs := text.toList
  if cs.all isAllowed then
    ((Scan.start cs).run (cs.length + 1)).map (·.tokens.toList)
  else .error ⟨.forbiddenCharacter, ⟨(cs.takeWhile isAllowed).length, 0, 0⟩⟩

end Steering.Yaml
