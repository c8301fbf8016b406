import Steering.Yaml.Source
import Steering.Net.Numeral
/-! Scalars: plain, quoted and block texts, and how their lines are joined. -/

namespace Steering.Yaml

/-- How a scalar is written. -/
inductive Style where
  | plain
  | singleQuoted
  | doubleQuoted
  | literal
  | folded
deriving DecidableEq, Repr

/-- What stands between two words of a scalar: blanks on one line, or ends of lines, the first
of them apart. -/
structure Gap where
  broken : Bool
  blanks : List Char
  first : List Char
  more : List Char

/-- Nothing between two words. -/
def Gap.none : Gap := ⟨false, [], [], []⟩

/-- What a gap becomes in the scalar. One end of a line becomes a space, and of several the
first is dropped; blanks next to the end of a line do not count. -/
def Gap.text (gap : Gap) : List Char :=
  if !gap.broken then gap.blanks
  else if gap.first = ['\n'] then if gap.more = [] then [' '] else gap.more
  else gap.first ++ gap.more

/-- Reads a gap. With `indent`, a tab left of that column on a new line is a fault. -/
def readGap (indent : Option Int) : Nat → Gap → Cursor → Except Fault (Gap × Cursor)
  | 0, gap, c => .ok (gap, c)
  | fuel + 1, gap, c =>
    match c.peek? with
    | .none => .ok (gap, c)
    | some x =>
      if isSpaceOrTab x then
        if gap.broken && x == '\t' && indent.any ((c.mark.column : Int) < ·) then
          .error ⟨.badIndentation, c.mark⟩
        else
          readGap indent fuel
            (if gap.broken then gap else { gap with blanks := gap.blanks ++ [x] }) c.advance
      else if isBreak x then
        let (text, c) := c.readBreak
        readGap indent fuel
          (if gap.broken then { gap with more := gap.more ++ text }
            else { gap with broken := true, blanks := [], first := text }) c
      else .ok (gap, c)

/-- The characters ahead up to a blank or what else ends a plain scalar: a colon before a
blank, and between brackets a bracket or a comma. A colon right before one of these, or before
a question mark, is a fault there. -/
def plainWord (flow : Bool) (mark : Mark) : List Char → Except Fault (List Char)
  | [] => .ok []
  | x :: rest =>
    if isSpaceOrTab x || isBreak x then .ok []
    else if flow && x == ':' && rest.head?.any [',', '?', '[', ']', '\x7b', '\x7d'].contains then
      .error ⟨.unexpectedCharacter, mark⟩
    else if x == ':' && endsWord rest.head? then .ok []
    else if flow && [',', '[', ']', '\x7b', '\x7d'].contains x then .ok []
    else (plainWord flow mark rest).map (x :: ·)

/-- Reads words and gaps of a plain scalar. Gives the text, whether the scalar was followed by
the end of a line, and the cursor. `text` holds what has been read, last character first. -/
def readPlainFrom (flow : Bool) (indent : Int) :
    Nat → List Char → Gap → Cursor → Except Fault (String × Bool × Cursor)
  | 0, text, gap, c => .ok (String.ofList text.reverse, gap.broken, c)
  | fuel + 1, text, gap, c => do
    let ended := (String.ofList text.reverse, gap.broken, c)
    if c.isAtDocumentMark || c.isAt '#' then return ended
    let word ← plainWord flow c.mark c.rest
    let (text, gap) :=
      if word = [] then (text, gap) else (word.reverse ++ gap.text.reverse ++ text, Gap.none)
    let c := c.skip word.length
    if !c.peek?.any fun x => isSpaceOrTab x || isBreak x then
      return (String.ofList text.reverse, gap.broken, c)
    let (gap, c) ← readGap (some indent) c.rest.length Gap.none c
    if !flow && c.mark.column < indent then return (String.ofList text.reverse, gap.broken, c)
    readPlainFrom flow indent fuel text gap c

/-- Reads a plain scalar inside a block of the given indentation. -/
def readPlain (flow : Bool) (indent : Int) (c : Cursor) : Except Fault (String × Bool × Cursor) :=
  readPlainFrom flow (indent + 1) (c.rest.length + 1) [] Gap.none c

/-- The character of a one-letter escape. -/
def escapedChar? (x : Char) : Option Char :=
  [('0', 0), ('a', 0x07), ('b', 0x08), ('t', 0x09), ('\t', 0x09), ('n', 0x0A), ('v', 0x0B),
    ('f', 0x0C), ('r', 0x0D), ('e', 0x1B), (' ', 0x20), ('"', 0x22), ('/', 0x2F), ('\\', 0x5C),
    ('N', 0x85), ('_', 0xA0), ('L', 0x2028), ('P', 0x2029)].lookup x |>.map Char.ofNat

/-- How many hexadecimal digits an escape by code point has. -/
def escapeDigits? (x : Char) : Option Nat :=
  [('x', 2), ('u', 4), ('U', 8)].lookup x

/-- Reads an escape of a double-quoted scalar, from the backslash on. -/
def readEscape (c : Cursor) : Except Fault (Char × Cursor) :=
  match c.ahead? 1 with
  | none => .error ⟨.badEscape, c.mark⟩
  | some x =>
    match escapedChar? x, escapeDigits? x with
    | some y, _ => .ok (y, c.skip 2)
    | none, none => .error ⟨.badEscape, c.mark⟩
    | none, some count =>
      let digits := (c.rest.drop 2).take count
      match digits.mapM (Net.digitValue? 16) with
      | none => .error ⟨.badEscape, c.mark⟩
      | some values =>
        let point := Net.ofDigits 16 values
        if values.length < count || !point.isValidChar then .error ⟨.badEscape, c.mark⟩
        else .ok (Char.ofNat point, c.skip (2 + count))

/-- Reads the characters of a quoted scalar up to a blank or the closing quote. Gives also
whether an escaped end of a line was read last. `text` holds what has been read, last
character first. -/
def readQuotedWord (single : Bool) :
    Nat → List Char → Cursor → Except Fault (List Char × Bool × Cursor)
  | 0, text, c => .ok (text, false, c)
  | fuel + 1, text, c =>
    let quote := if single then '\'' else '"'
    match c.rest with
    | [] => .ok (text, false, c)
    | x :: rest =>
      if isSpaceOrTab x || isBreak x then .ok (text, false, c)
      else if single && x == quote && rest.head? == some quote then
        readQuotedWord single fuel (quote :: text) (c.skip 2)
      else if x == quote then .ok (text, false, c)
      else if !single && x == '\\' then
        if rest.head?.any isBreak then .ok (text, true, c.advance.readBreak.2)
        else
          match readEscape c with
          | .ok (y, c) => readQuotedWord single fuel (y :: text) c
          | .error fault => .error fault
      else readQuotedWord single fuel (x :: text) c.advance

/-- Reads words and gaps of a quoted scalar up to and with its closing quote. -/
def readQuotedFrom (single : Bool) :
    Nat → List Char → Cursor → Except Fault (String × Cursor)
  | 0, _, c => .error ⟨.unexpectedEnd, c.mark⟩
  | fuel + 1, text, c => do
    if c.isAtDocumentMark then throw ⟨.unexpectedCharacter, c.mark⟩
    if c.rest = [] then throw ⟨.unexpectedEnd, c.mark⟩
    let (text, continued, c) ← readQuotedWord single (c.rest.length + 1) text c
    if c.isAt (if single then '\'' else '"') then
      return (String.ofList text.reverse, c.advance)
    let (gap, c) ← readGap none c.rest.length { Gap.none with broken := continued } c
    readQuotedFrom single fuel (gap.text.reverse ++ text) c

/-- Reads a quoted scalar, from its opening quote on. -/
def readQuoted (single : Bool) (c : Cursor) : Except Fault (String × Cursor) :=
  readQuotedFrom single (c.rest.length + 1) [] c.advance

/-- What is done with the ends of the last lines of a block scalar. -/
inductive Chomping where
  | strip
  | clip
  | keep
deriving DecidableEq, Repr

/-- The mark that says what is done with the last lines, if it is next. -/
def readChomping? (c : Cursor) : Option (Chomping × Cursor) :=
  if c.isAt '+' then some (.keep, c.advance)
  else if c.isAt '-' then some (.strip, c.advance)
  else none

/-- The digit that gives the indentation, if it is next; zero is a fault. -/
def readIncrement (c : Cursor) : Except Fault (Option Nat × Cursor) :=
  match c.peek?.bind (Net.digitValue? 10) with
  | none => .ok (none, c)
  | some 0 => .error ⟨.badBlockHeader, c.mark⟩
  | some n => .ok (some n, c.advance)

/-- Reads the two marks after the indicator of a block scalar, in either order. -/
def readBlockHeader (c : Cursor) : Except Fault (Chomping × Option Nat × Cursor) :=
  match readChomping? c with
  | some (chomping, c) => do
    let (increment, c) ← readIncrement c
    return (chomping, increment, c)
  | none => do
    let (increment, c) ← readIncrement c
    if increment.isSome then
      match readChomping? c with
      | some (chomping, c) => return (chomping, increment, c)
      | none => return (.clip, increment, c)
    else return (.clip, none, c)

/-- Reads the indentation before a line of a block scalar and the empty lines before it. Gives
the ends of these lines and the largest column that was reached. Without `indent` all spaces
are indentation. -/
def readIndentation (indent : Option Nat) :
    Nat → List Char → Nat → Cursor → Except Fault (List Char × Nat × Cursor)
  | 0, breaks, reached, c => .ok (breaks, reached, c)
  | fuel + 1, breaks, reached, c =>
    let spaces := (c.rest.takeWhile (· == ' ')).length
    let c := c.skip (match indent with
      | none => spaces
      | some indent => min spaces (indent - c.mark.column))
    let reached := max reached c.mark.column
    if c.isAt '\t' && !indent.any (· ≤ c.mark.column) then .error ⟨.badIndentation, c.mark⟩
    else if !c.peek?.any isBreak then .ok (breaks, reached, c)
    else
      let (text, c) := c.readBreak
      readIndentation indent fuel (breaks ++ text) reached c

/-- Reads the lines of a block scalar. `pending` is the end of the line before, which is known
to matter only when another line follows, and `breaks` are the empty lines after it. -/
def readBlockLines (folded : Bool) (indent : Nat) (chomping : Chomping) :
    Nat → List Char → Bool → List Char → List Char → Cursor → Except Fault (String × Cursor)
  | 0, text, _, _, _, c => .ok (String.ofList text, c)
  | fuel + 1, text, blankBefore, pending, breaks, c =>
    if c.mark.column = indent ∧ c.rest ≠ [] then do
      let blank := c.peek?.any isSpaceOrTab
      let joint :=
        if folded && pending == ['\n'] && !blankBefore && !blank then
          if breaks = [] then [' '] else []
        else pending
      let line := c.rest.takeWhile fun x => !isBreak x
      let (pending, c) := (c.skip line.length).readBreak
      let text := text ++ joint ++ breaks ++ line
      let (breaks, _, c) ← readIndentation (some indent) (c.rest.length + 1) [] 0 c
      readBlockLines folded indent chomping fuel text blank pending breaks c
    else
      .ok (String.ofList (text ++ match chomping with
        | .strip => []
        | .clip => pending
        | .keep => pending ++ breaks), c)

/-- Reads a block scalar inside a block of the given indentation, from its indicator on. -/
def readBlock (folded : Bool) (parent : Int) (c : Cursor) : Except Fault (String × Cursor) := do
  let (chomping, increment, c) ← readBlockHeader c.advance
  let c ← c.finishLine .badBlockHeader
  let fixed := increment.map fun n => (max parent 0).toNat + n
  let (breaks, reached, c) ← readIndentation fixed (c.rest.length + 1) [] 0 c
  let indent := fixed.getD (max reached (max (parent + 1) 1).toNat)
  readBlockLines folded indent chomping (c.rest.length + 1) [] false [] breaks c

end Steering.Yaml
