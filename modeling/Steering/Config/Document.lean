import Steering.Config.Basic
import Steering.Yaml.Node
/-! Reading a configuration from a document. Records are mappings, in which unknown keys are
ignored; any scalar is a text, whatever its tag; and an empty value stands for an empty
collection. -/

namespace Steering

/-- Why a text is no configuration. -/
inductive DocumentFault where
  | text (fault : Yaml.Fault)
  | wrongKind
  | missing (name : String)
  | repeated (name : String)
  | badAddress (text : String)
  | badPrefix (text : String)
  | badNumber (text : String)
  | badNull (text : String)
  | tooManyReferences
deriving DecidableEq, Repr

/-- The wording of a fault. Texts from the document are not repeated, so it has one line. -/
def DocumentFault.message : DocumentFault → String
  | text fault => fault.message
  | wrongKind => "found a value of the wrong kind"
  | missing name => "missing field " ++ name
  | repeated name => "repeated field " ++ name
  | badAddress _ => "invalid IPv4 address"
  | badPrefix _ => "invalid prefix"
  | badNumber _ => "invalid number"
  | badNull _ => "invalid null"
  | tooManyReferences => "too many references"

/-- Reading parts of a document. The state is how often references may still be followed, so
that a short document cannot ask for endless work. -/
abbrev Decode (α : Type) := StateT Nat (Except DocumentFault) α

namespace Decode

open Yaml (Node Document)

/-- The node itself, or the one that a reference stands for. -/
def follow (d : Document) : Node → Decode Node
  | .alias reference => do
    let budget ← get
    if budget = 0 then throw .tooManyReferences
    set (budget - 1)
    match d.target? reference with
    | some node => return node
    | none => throw .wrongKind
  | node => return node

/-- Whether a node is a plain scalar without text. -/
def isVoid : Node → Bool
  | .scalar _ .plain "" => true
  | _ => false

/-- Reads a text: any scalar. -/
def text (d : Document) (node : Node) : Decode String := do
  match ← follow d node with
  | .scalar _ _ s => return s
  | _ => throw .wrongKind

/-- Reads a list. -/
def list {α : Type} (d : Document) (item : Node → Decode α) (node : Node) : Decode (List α) := do
  match ← follow d node with
  | .sequence items => items.mapM item
  | node => if isVoid node then return [] else throw .wrongKind

/-- The entries of a record among the known names; each may come once. -/
def entries (d : Document) (known : List String) (node : Node) :
    Decode (List (String × Node)) := do
  match ← follow d node with
  | .mapping pairs =>
    pairs.foldlM (fun found (key, value) => do
      let name ← text d key
      if !known.contains name then return found
      else if (found.lookup name).isSome then throw (.repeated name)
      else return (name, value) :: found) []
  | node => if isVoid node then return [] else throw .wrongKind

/-- Reads an entry that must be there. -/
def required {α : Type} (found : List (String × Node)) (name : String)
    (read : Node → Decode α) : Decode α :=
  match found.lookup name with
  | some node => read node
  | none => throw (.missing name)

/-- Reads an entry that may be left out. -/
def optional {α : Type} (found : List (String × Node)) (name : String) (default : α)
    (read : Node → Decode α) : Decode α :=
  match found.lookup name with
  | some node => read node
  | none => return default

/-- Whether a text spells that there is nothing. -/
def spellsNull (s : String) : Bool :=
  ["null", "Null", "NULL", "~"].contains s

/-- The tags of nothing and of whole numbers. -/
def nullTag : String := "tag:yaml.org,2002:null"
def integerTag : String := "tag:yaml.org,2002:int"

/-- Whether a node is something. A plain scalar is nothing if it is empty or spells it; one that
is tagged as nothing must spell it. -/
def isPresent : Node → Except DocumentFault Bool
  | .scalar none .plain s => .ok (s != "" && !spellsNull s)
  | .scalar (some tag) .plain s =>
    if tag ≠ nullTag then .ok true
    else if spellsNull s then .ok false
    else .error (.badNull s)
  | _ => .ok true

/-- Reads a value that may be nothing. -/
def maybe {α : Type} (d : Document) (read : Node → Decode α) (node : Node) :
    Decode (Option α) := do
  let node ← follow d node
  match isPresent node with
  | .ok true => return some (← read node)
  | .ok false => return none
  | .error fault => throw fault

/-- Whether some characters are digits with a zero in front, which is not a number. -/
def hasLeadingZero (cs : List Char) : Bool :=
  let digits := if cs.head?.any ['-', '+'].contains then cs.tail else cs
  1 < digits.length && digits.head? == some '0' && digits.all Char.isDigit

/-- Reads digits of a radix, up to a bound. -/
def digits? (radix maxValue : Nat) (cs : List Char) : Option Nat :=
  match Net.readNumber ⟨radix, none, maxValue, true⟩ cs with
  | some (value, []) => some value
  | _ => none

/-- The number that a scalar spells, up to `maxValue`: decimal, or in another radix behind a
lower-case prefix, with at most one plus sign in front. -/
def number? (maxValue : Nat) (s : String) : Option Nat :=
  let cs := s.toList
  let unsigned := if cs.head? = some '+' then cs.tail else cs
  match unsigned with
  | '0' :: 'x' :: rest => digits? 16 maxValue rest
  | '0' :: 'o' :: rest => digits? 8 maxValue rest
  | '0' :: 'b' :: rest => digits? 2 maxValue rest
  | _ => if hasLeadingZero cs then none else digits? 10 maxValue unsigned

/-- Reads a whole number up to a bound: from a plain scalar, or from a literal block that is
tagged as one. -/
def number (d : Document) (maxValue : Nat) (node : Node) : Decode Nat := do
  let read (s : String) : Decode Nat :=
    match number? maxValue s with
    | some n => return n
    | none => throw (.badNumber s)
  match ← follow d node with
  | .scalar _ .plain s => read s
  | .scalar (some tag) .literal s => if tag = integerTag then read s else throw .wrongKind
  | _ => throw .wrongKind

/-- Reads an IPv4 address. -/
def address (d : Document) (node : Node) : Decode Net.Ipv4 := do
  let s ← text d node
  match Net.Ipv4.parse? s with
  | some address => return address
  | none => throw (.badAddress s)

/-- Reads a prefix. -/
def networkPrefix (d : Document) (node : Node) : Decode Net.Prefix := do
  let s ← text d node
  match Net.Prefix.parse? s with
  | some p => return p
  | none => throw (.badPrefix s)

/-- Reads a PoP. -/
def pop (d : Document) (node : Node) : Decode Pop := do
  let found ← entries d ["id", "ip4", "latency_endpoint_url", "ui_popup_css"] node
  return ⟨← required found "id" (text d), ← required found "ip4" (address d),
    ← required found "latency_endpoint_url" (text d),
    ← optional found "ui_popup_css" "" (text d)⟩

/-- Reads a region. -/
def region (d : Document) (node : Node) : Decode Region := do
  let found ← entries d ["id", "prefices", "prober_url", "ui_popup_css"] node
  return ⟨← required found "id" (text d),
    ← required found "prefices" (list d (networkPrefix d)),
    ← required found "prober_url" (text d), ← optional found "ui_popup_css" "" (text d)⟩

/-- Reads where the dashboard listens and what it serves. -/
def observability (d : Document) (node : Node) : Decode Observability := do
  let found ← entries d ["address", "static_dir"] node
  return ⟨← required found "address" (text d),
    ← optional found "static_dir" none (maybe d (text d))⟩

/-- Reads the settings of the refresh. -/
def refresh (d : Document) (node : Node) : Decode RefreshSettings := do
  let found ←
    entries d ["status_timeout_ms", "latency_timeout_ms", "interval_ms", "status_port"] node
  let default := Config.defaultRefresh
  let milliseconds := number d 0xFFFFFFFFFFFFFFFF
  return ⟨← optional found "status_timeout_ms" default.statusTimeout milliseconds,
    ← optional found "latency_timeout_ms" default.latencyTimeout milliseconds,
    ← optional found "interval_ms" default.interval milliseconds,
    ← optional found "status_port" default.statusPort fun node =>
      UInt16.ofNat <$> number d 0xFFFF node⟩

/-- Reads the ranking. -/
def ranking (d : Document) (node : Node) : Decode String := do
  let found ← entries d ["type"] node
  optional found "type" Config.defaultRanking (text d)

/-- Reads the settings of the log. -/
def log (d : Document) (node : Node) : Decode LogSettings := do
  let found ← entries d ["level", "file"] node
  return ⟨← optional found "level" Config.defaultLog.level (text d),
    ← optional found "file" none (maybe d (text d))⟩

/-- Reads a configuration. -/
def config (d : Document) (node : Node) : Decode Config := do
  let found ← entries d
    ["prober_secret", "pops", "regions", "observability", "refresh", "ranking", "log"] node
  return ⟨← optional found "prober_secret" "" (text d),
    ← required found "pops" (list d (pop d)),
    ← required found "regions" (list d (region d)),
    ← optional found "observability" none (maybe d (observability d)),
    ← optional found "refresh" Config.defaultRefresh (refresh d),
    ← optional found "ranking" Config.defaultRanking (ranking d),
    ← optional found "log" Config.defaultLog (log d)⟩

end Decode

/-- Reads the text of a configuration. References may be followed a hundred times as often as
the document has parts. -/
def Config.parse (s : String) : Except DocumentFault Config :=
  match Yaml.Document.parse s with
  | .error fault => .error (.text fault)
  | .ok document => ((Decode.config document document.root).run (100 * document.size)).map (·.1)

end Steering
