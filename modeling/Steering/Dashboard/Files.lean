import Steering.Dashboard.Page
import Steering.FileTree
/-! The files of the dashboard: which file a requested path stands for, and the type of its
content. No path leads above the root. -/

namespace Steering.Dashboard

/-- The file that stands for a directory. -/
def indexName : String := "index.html"

/-- The path below the root that a requested path stands for. A directory stands for its index.
A path that begins in place or leads upwards anywhere stands for nothing. -/
def filePath? (requested : String) : Option String :=
  let relative := requested.toList.dropWhile (· = '/')
  let path := String.ofList <|
    if relative = [] ∨ relative.getLast? = some '/' then relative ++ indexName.toList
    else relative
  let parts := FileTree.parts path
  if parts.head? = some "." ∨ parts.contains ".." then none else some path

/-- The extension of a file name: what follows its last dot, unless that dot begins the name. -/
def extension? (name : String) : Option String :=
  let reversed := name.toList.reverse
  match reversed.dropWhile (· ≠ '.') with
  | _ :: _ :: _ => some (String.ofList (reversed.takeWhile (· ≠ '.')).reverse)
  | _ => none

/-- The type of the content of files with an extension. -/
def typeOfExtension : Option String → String
  | some "html" => "text/html; charset=utf-8"
  | some "js" => "text/javascript"
  | some "css" => "text/css"
  | some "json" => Page.documentType
  | some "svg" => "image/svg+xml"
  | some "png" => "image/png"
  | some "ico" => "image/x-icon"
  | _ => "application/octet-stream"

/-- The type of the content of the file at a path. -/
def typeOfPath (path : String) : String :=
  typeOfExtension ((FileTree.names path).getLast?.bind extension?)

/-- The page for a requested path, if files are served at all. -/
def filePage (files : Option FileTree) (requested : String) : Page :=
  match files, filePath? requested with
  | some tree, some path =>
    match tree.read path with
    | .ok content => ⟨200, some (typeOfPath path), content⟩
    | .error _ => .notFound
  | _, _ => .notFound

end Steering.Dashboard
