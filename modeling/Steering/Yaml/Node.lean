import Steering.Yaml.Token
/-! Documents: the tree that the tokens of a text spell. An alias stands for a node that has
been given a name; it is kept as a reference, so that a node may refer to itself. -/

namespace Steering.Yaml

/-- A part of a document. The bare tag of a scalar that is written out is none. -/
inductive Node where
  | scalar (tag : Option String) (style : Style) (text : String)
  | sequence (items : List Node)
  | mapping (entries : List (Node × Node))
  | alias (reference : Nat)

namespace Node

instance : Inhabited Node := ⟨.scalar none .plain ""⟩

/-- What stands where a node is left out. -/
def absent : Node := .scalar none .plain ""

end Node

/-- A document: its root, and the nodes that references stand for. -/
structure Document where
  root : Node
  targets : List (Nat × Node)
  /-- How many parts the document has, references and ends of collections included. -/
  size : Nat

/-- The node that a reference stands for. -/
def Document.target? (d : Document) (reference : Nat) : Option Node :=
  d.targets.lookup reference

/-- What a node may be given: the number that stands for its name, and a tag. -/
structure Properties where
  anchor : Option Nat
  tag : Option String

/-- A node that has been begun, with its parts so far, the last one first. -/
inductive Frame where
  | blockSequence (anchor : Option Nat) (items : List Node)
  | indentlessSequence (anchor : Option Nat) (items : List Node)
  | blockKey (anchor : Option Nat) (entries : List (Node × Node))
  | blockValue (anchor : Option Nat) (entries : List (Node × Node)) (key : Node)
  | flowSequence (anchor : Option Nat) (items : List Node)
  | pairKey
  | pairValue (key : Node)
  | flowKey (anchor : Option Nat) (entries : List (Node × Node))
  | bareFlowKey (anchor : Option Nat) (entries : List (Node × Node))
  | flowValue (anchor : Option Nat) (entries : List (Node × Node)) (key : Node)

/-- What is expected next. -/
inductive Goal where
  /-- A node; in a block it may be a block itself, or a sequence that is not indented. -/
  | node (block indentless : Bool)
  /-- The next part of the innermost node, which may be its first. -/
  | part (first : Bool)
  /-- The innermost node takes this one. -/
  | done (node : Node)

/-- The state of building a document. -/
structure Build where
  tokens : List Token
  handles : List (String × String)
  frames : List Frame
  /-- The names given so far, with the numbers that stand for them. -/
  names : List (String × Nat)
  /-- How many nodes have been given names. -/
  named : Nat
  /-- For each number, which of the named nodes it stands for. -/
  chosen : List (Nat × Nat)
  /-- The named nodes that are complete. -/
  complete : List (Nat × Node)
  size : Nat

namespace Build

/-- The next token. -/
def peek? (b : Build) : Option Token := b.tokens.head?

/-- The state after the next token. -/
def advance (b : Build) : Build := { b with tokens := b.tokens.tail }

/-- A fault of the next token. -/
def fault (b : Build) : Fault := ⟨.unexpectedToken, ⟨b.tokens.length, 0, 0⟩⟩

/-- Counts a part of the document. -/
def count (b : Build) : Build := { b with size := b.size + 1 }

/-- Gives the node that begins here a name. A name keeps the number that stands for it until it
is given again. -/
def giveName (b : Build) (name : String) : Build :=
  let number := b.names.length
  { b with
    names := (name, number) :: b.names.filter (·.1 != name)
    named := b.named + 1
    chosen := (number, b.named) :: b.chosen }

/-- Notes a named node that is complete. -/
def finish (b : Build) (anchor : Option Nat) (node : Node) : Build :=
  match anchor with
  | some serial => { b with complete := (serial, node) :: b.complete }
  | none => b

/-- The whole tag that a handle and a suffix stand for. -/
def expandTag (b : Build) (handle suffix : String) : Except Fault (Option String) :=
  if handle = "" then .ok (some suffix)
  else match b.handles.lookup handle with
    | some head => .ok (some (head ++ suffix))
    | none => .error ⟨.unknownTagHandle, b.fault.mark⟩

/-- Reads an anchor and a tag, in either order. The name counts from here on. -/
def readProperties (b : Build) : Except Fault (Properties × Bool × Build) := do
  let name (b : Build) (s : String) : Option Nat × Build := (some b.named, b.giveName s)
  match b.tokens with
  | .anchor s :: .tag handle suffix :: _ =>
    let tag ← b.expandTag handle suffix
    let (anchor, b) := name b s
    return (⟨anchor, tag⟩, true, b.advance.advance)
  | .tag handle suffix :: .anchor s :: _ =>
    let tag ← b.expandTag handle suffix
    let (anchor, b) := name b s
    return (⟨anchor, tag⟩, true, b.advance.advance)
  | .anchor s :: _ =>
    let (anchor, b) := name b s
    return (⟨anchor, none⟩, true, b.advance)
  | .tag handle suffix :: _ =>
    return (⟨none, ← b.expandTag handle suffix⟩, true, b.advance)
  | _ => return (⟨none, none⟩, false, b)

/-- Begins a collection. -/
def push (b : Build) (frame : Frame) : Goal × Build :=
  (.part true, { b.count with frames := frame :: b.frames })

/-- Ends the innermost node. -/
def pop (b : Build) (anchor : Option Nat) (node : Node) : Goal × Build :=
  (.done node, ({ b.count with frames := b.frames.tail }).finish anchor node)

/-- Reads a node or begins one. -/
def readNode (b : Build) (block indentless : Bool) : Except Fault (Goal × Build) := do
  if let some (.alias name) := b.peek? then
    match b.names.lookup name with
    | some number => return (.done (.alias number), b.count.advance)
    | none => throw ⟨.unknownAnchor, b.fault.mark⟩
  let (properties, given, b) ← b.readProperties
  let anchor := properties.anchor
  match b.peek? with
  | some .blockEntry =>
    if indentless then return b.push (.indentlessSequence anchor [])
  | some (.scalar style text) =>
    let node := Node.scalar (properties.tag.filter (· != "!")) style text
    return (.done node, b.count.advance.finish anchor node)
  | some .flowSequenceStart => return b.advance.push (.flowSequence anchor [])
  | some .flowMappingStart => return b.advance.push (.flowKey anchor [])
  | some .blockSequenceStart => if block then return b.advance.push (.blockSequence anchor [])
  | some .blockMappingStart => if block then return b.advance.push (.blockKey anchor [])
  | _ => pure ()
  if given then
    let node := Node.scalar properties.tag .plain ""
    return (.done node, b.count.finish anchor node)
  throw b.fault

/-- Replaces the innermost frame. -/
def setFrame (b : Build) (frame : Frame) : Build :=
  { b with frames := frame :: b.frames.tail }

/-- A node that is left out, inside the innermost node. -/
def leaveOut (b : Build) : Goal × Build := (.done .absent, b.count)

/-- Whether the next token is one of these. -/
def isAt (b : Build) (tokens : List Token) : Bool :=
  b.peek?.any tokens.contains

/-- Reads a node of the innermost one, unless one of these tokens says that it is left out. The
end of the text is never such a token. -/
def nodeUnless (b : Build) (tokens : List Token) (block indentless : Bool) : Goal × Build :=
  if b.isAt tokens then b.leaveOut else (.node block indentless, b)

/-- Reads the next part of the innermost node. -/
def readPart (b : Build) (first : Bool) : Except Fault (Goal × Build) :=
  match b.frames with
  | [] => .error b.fault
  | .blockSequence anchor items :: _ =>
    if b.isAt [.blockEntry] then
      .ok (b.advance.nodeUnless [.blockEntry, .blockEnd] true false)
    else if b.isAt [.blockEnd] then .ok (b.advance.pop anchor (.sequence items.reverse))
    else .error b.fault
  | .indentlessSequence anchor items :: _ =>
    if b.isAt [.blockEntry] then
      .ok (b.advance.nodeUnless [.blockEntry, .key, .value, .blockEnd] true false)
    else .ok (b.pop anchor (.sequence items.reverse))
  | .blockKey anchor entries :: _ =>
    if b.isAt [.key] then .ok (b.advance.nodeUnless [.key, .value, .blockEnd] true true)
    else if b.isAt [.blockEnd] then .ok (b.advance.pop anchor (.mapping entries.reverse))
    else .error b.fault
  | .blockValue _ _ _ :: _ =>
    if b.isAt [.value] then .ok (b.advance.nodeUnless [.key, .value, .blockEnd] true true)
    else .ok b.leaveOut
  | .flowSequence anchor items :: _ =>
    let close (b : Build) := b.advance.pop anchor (.sequence items.reverse)
    let item (b : Build) : Goal × Build :=
      if b.isAt [.key] then
        (.part true, { b.advance.count with frames := .pairKey :: b.frames })
      else if b.isAt [.flowSequenceEnd] then close b
      else (.node false false, b)
    if b.isAt [.flowSequenceEnd] then .ok (close b)
    else if first then .ok (item b)
    else if b.isAt [.flowEntry] then .ok (item b.advance)
    else .error b.fault
  | .pairKey :: _ =>
    if b.isAt [.value, .flowEntry, .flowSequenceEnd] then .ok b.advance.leaveOut
    else .ok (.node false false, b)
  | .pairValue _ :: _ =>
    if b.isAt [.value] then
      .ok (b.advance.nodeUnless [.flowEntry, .flowSequenceEnd] false false)
    else .ok b.leaveOut
  | .flowKey anchor entries :: _ =>
    let close (b : Build) := b.advance.pop anchor (.mapping entries.reverse)
    let entry (b : Build) : Goal × Build :=
      if b.isAt [.key] then
        b.advance.nodeUnless [.value, .flowEntry, .flowMappingEnd] false false
      else if b.isAt [.flowMappingEnd] then close b
      else (.node false false, b.setFrame (.bareFlowKey anchor entries))
    if b.isAt [.flowMappingEnd] then .ok (close b)
    else if first then .ok (entry b)
    else if b.isAt [.flowEntry] then .ok (entry b.advance)
    else .error b.fault
  | .bareFlowKey _ _ :: _ => .error b.fault
  | .flowValue _ _ _ :: _ =>
    if b.isAt [.value] then
      .ok (b.advance.nodeUnless [.flowEntry, .flowMappingEnd] false false)
    else .ok b.leaveOut

/-- Gives a node to the innermost frame. -/
def take (b : Build) (node : Node) : Goal × Build :=
  match b.frames with
  | [] => (.done node, b)
  | .blockSequence anchor items :: _ =>
    (.part false, b.setFrame (.blockSequence anchor (node :: items)))
  | .indentlessSequence anchor items :: _ =>
    (.part false, b.setFrame (.indentlessSequence anchor (node :: items)))
  | .blockKey anchor entries :: _ => (.part false, b.setFrame (.blockValue anchor entries node))
  | .blockValue anchor entries key :: _ =>
    (.part false, b.setFrame (.blockKey anchor ((key, node) :: entries)))
  | .flowSequence anchor items :: _ =>
    (.part false, b.setFrame (.flowSequence anchor (node :: items)))
  | .pairKey :: _ => (.part false, b.setFrame (.pairValue node))
  | .pairValue key :: _ => b.pop none (.mapping [(key, node)])
  | .flowKey anchor entries :: _ => (.part false, b.setFrame (.flowValue anchor entries node))
  | .bareFlowKey anchor entries :: _ =>
    (.part false, b.count.setFrame (.flowKey anchor ((node, .absent) :: entries)))
  | .flowValue anchor entries key :: _ =>
    (.part false, b.setFrame (.flowKey anchor ((key, node) :: entries)))

/-- Takes steps until the outermost node is complete. -/
def run : Nat → Goal → Build → Except Fault (Node × Build)
  | 0, _, b => .error b.fault
  | fuel + 1, goal, b =>
    match goal, b.frames with
    | .done node, [] => .ok (node, b)
    | .done node, _ =>
      let (goal, b) := b.take node
      run fuel goal b
    | .part first, _ =>
      match b.readPart first with
      | .ok (goal, b) => run fuel goal b
      | .error fault => .error fault
    | .node block indentless, _ =>
      match b.readNode block indentless with
      | .ok (goal, b) => run fuel goal b
      | .error fault => .error fault

/-- The handles that need no directive. -/
def defaultHandles : List (String × String) :=
  [("!", "!"), ("!!", "tag:yaml.org,2002:")]

/-- Reads the directives before a document; each may come once, and the version must be a known
one. -/
def readDirectives : List Token → Bool → List (String × String) →
    Except Fault (List (String × String) × Bool × List Token)
  | .versionDirective major minor :: rest, seen, handles =>
    if seen ∨ major ≠ 1 ∨ (minor ≠ 1 ∧ minor ≠ 2) then
      .error ⟨.badDirective, ⟨rest.length, 0, 0⟩⟩
    else readDirectives rest true handles
  | .tagDirective handle head :: rest, seen, handles =>
    if (handles.lookup handle).isSome then .error ⟨.badDirective, ⟨rest.length, 0, 0⟩⟩
    else readDirectives rest seen ((handle, head) :: handles)
  | tokens, seen, handles => .ok (handles, seen, tokens)

/-- The state before the tokens of a document. -/
def start (handles : List (String × String)) (tokens : List Token) : Build :=
  ⟨tokens, handles ++ defaultHandles, [], [], 0, [], [], 0⟩

/-- The document of a complete root. -/
def document (b : Build) (root : Node) : Document :=
  let targets := b.chosen.filterMap fun (number, serial) =>
    (b.complete.lookup serial).map (number, ·)
  ⟨root, targets, b.size⟩

/-- Whether a token, if there is one, ends a document or comes before one. -/
def isBoundary : Option Token → Bool
  | none => true
  | some token =>
    match token with
    | .documentStart | .documentEnd | .versionDirective _ _ | .tagDirective _ _ => true
    | _ => false

end Build

/-- Reads the document that comes first. -/
def Document.read (tokens : List Token) : Except Fault (Document × List Token) := do
  let (handles, seen, rest) ← Build.readDirectives tokens false []
  let explicit := seen || handles != [] || rest.head? == some .documentStart
  if explicit && rest.head? != some .documentStart then
    throw ⟨.unexpectedToken, ⟨rest.length, 0, 0⟩⟩
  let b := Build.start handles (if explicit then rest.tail else rest)
  if explicit && Build.isBoundary b.peek? then return (b.document .absent, b.tokens)
  let (root, b) ← b.run (8 * tokens.length + 8) (.node true false)
  return (b.document root, b.tokens)

/-- Reads a text that holds exactly one document. -/
def Document.parse (text : String) : Except Fault Document := do
  let (document, rest) ← Document.read (← Token.scan text)
  if rest.all (· == .documentEnd) then return document
  else throw ⟨.severalDocuments, ⟨rest.length, 0, 0⟩⟩

end Steering.Yaml
