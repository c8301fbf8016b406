import Steering.Text.Utf8
/-! A tree of files below a root, and how paths lead through it. -/

namespace Steering

/-- What a path can lead to. -/
inductive FileKind where
  | file (content : List UInt8)
  | directory
deriving DecidableEq, Repr

/-- Why a file cannot be had. -/
inductive FileFault where
  | notFound
  | denied
  | alreadyExists
  | notADirectory
  | isADirectory
  | nameTooLong
  | containsNul
deriving DecidableEq, Repr

/-- The wording of the system for a fault. -/
def FileFault.message : FileFault → String
  | notFound => "No such file or directory (os error 2)"
  | denied => "Permission denied (os error 13)"
  | alreadyExists => "File exists (os error 17)"
  | notADirectory => "Not a directory (os error 20)"
  | isADirectory => "Is a directory (os error 21)"
  | nameTooLong => "File name too long (os error 36)"
  | containsNul => "file name contained an unexpected NUL byte"

/-- Files and directories by the names that lead to them. A directory on the way to an entry
need not be an entry itself. -/
structure FileTree where
  entries : List (List String × FileKind)
deriving DecidableEq, Repr

namespace FileTree

/-- What some names lead to, from the root on. -/
def kind? (tree : FileTree) (names : List String) : Option FileKind :=
  match tree.entries.lookup names with
  | some kind => some kind
  | none =>
    if names = [] ∨ tree.entries.any fun entry => names.isPrefixOf entry.1 then some .directory
    else none

/-- The parts of a path between its slashes. -/
def parts (path : String) : List String :=
  (path.toList.splitOn '/').map String.ofList

/-- The names in a path: its parts without the empty ones and those that stay in place. -/
def names (path : String) : List String :=
  (parts path).filter fun part => part != "" && part != "."

/-- The most bytes that a name may have. -/
def maxNameLength : Nat := 255

/-- The most bytes that a path may have. -/
def maxPathLength : Nat := 4095

/-- Where a path leads: to some names below the root, or out of the tree. Of what is outside,
only the directories above the root are known. -/
inductive Place where
  | inside (names : List String)
  | outside
deriving DecidableEq, Repr

/-- Follows parts from a directory. Every part but the last must lead through a directory. -/
def walk (tree : FileTree) : Place → List String → Except FileFault Place
  | place, [] => .ok place
  | .outside, part :: rest =>
    if ["", ".", ".."].contains part then walk tree .outside rest else .error .notFound
  | .inside here, part :: rest =>
    match tree.kind? here with
    | none => .error .notFound
    | some (.file _) => .error .notADirectory
    | some .directory =>
      if part = "" ∨ part = "." then walk tree (.inside here) rest
      else if part = ".." then
        walk tree (if here = [] then .outside else .inside here.dropLast) rest
      else if maxNameLength < part.utf8ByteSize then .error .nameTooLong
      else walk tree (.inside (here ++ [part])) rest

/-- Checks a path before it is followed. -/
def checkPath (path : String) : Except FileFault Unit :=
  if path.toList.contains '\x00' then .error .containsNul
  else if path = "" then .error .notFound
  else if maxPathLength < path.utf8ByteSize then .error .nameTooLong
  else .ok ()

/-- Follows a path from the root of the tree, or from outside if it begins with a slash. -/
def follow (tree : FileTree) (path : String) : Except FileFault Place := do
  checkPath path
  tree.walk (if path.toList.head? = some '/' then .outside else .inside []) (parts path)

/-- Reads the file that a path leads to. -/
def read (tree : FileTree) (path : String) : Except FileFault (List UInt8) := do
  match ← tree.follow path with
  | .outside => throw .isADirectory
  | .inside names =>
    match tree.kind? names with
    | none => throw .notFound
    | some .directory => throw .isADirectory
    | some (.file content) => return content

/-- Makes the directories that some names lead through, unless a file is in the way. -/
def makeDirectories (tree : FileTree) (made : List String) :
    List String → Except FileFault FileTree
  | [] => .ok tree
  | name :: rest =>
    let here := made ++ [name]
    if name = ".." then
      if made = [] then .error .denied else makeDirectories tree made.dropLast rest
    else if maxNameLength < name.utf8ByteSize then .error .nameTooLong
    else
      match tree.kind? here with
      | some .directory => makeDirectories tree here rest
      | some (.file _) => .error (if rest = [] then .alreadyExists else .notADirectory)
      | none => makeDirectories ⟨tree.entries ++ [(here, .directory)]⟩ here rest

/-- Appends to a file. The directories on the way and the file are made if they are missing.
Outside the tree nothing may be written. -/
def append (tree : FileTree) (path : String) (more : List UInt8) : Except FileFault FileTree := do
  checkPath path
  if path.toList.head? = some '/' then throw .denied
  let tree ← tree.makeDirectories [] (names path).dropLast
  if (parts path).getLast? = some "" then throw .isADirectory
  match ← tree.follow path with
  | .outside => throw .isADirectory
  | .inside found =>
    match tree.kind? found with
    | none => return ⟨tree.entries ++ [(found, .file more)]⟩
    | some .directory => throw .isADirectory
    | some (.file content) => return ⟨(found, .file (content ++ more)) :: tree.entries⟩

end FileTree

end Steering
