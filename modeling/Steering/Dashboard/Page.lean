import Steering.Json.Value
/-! Pages: what the dashboard answers requests with. -/

namespace Steering.Dashboard

/-- An answer: its status code, the type of its content, and the content. -/
structure Page where
  code : Nat
  /-- Only an answer without content has no type. -/
  contentType : Option String
  content : List UInt8
deriving DecidableEq, Repr

namespace Page

/-- The type of documents. -/
def documentType : String := "application/json"

/-- The type of plain texts. -/
def textType : String := "text/plain; charset=utf-8"

/-- A page that shows a document. -/
def document (value : Json.Value) : Page :=
  ⟨200, some documentType, Text.encode value.write⟩

/-- A page that shows a text. -/
def message (code : Nat) (text : String) : Page :=
  ⟨code, some textType, Text.encode text⟩

/-- The page for what there is not. -/
def notFound : Page := message 404 "not found"

/-- The page for a target that is no identifier. -/
def unreadable : Page := ⟨400, none, []⟩

/-- What of the content is sent in answer to a method. -/
def sent (page : Page) (method : String) : List UInt8 :=
  if method = "HEAD" then [] else page.content

end Page

end Steering.Dashboard
