import CodeSearch.Path

/-!
Languages whose files are chunked along their parse tree, and how a file is assigned to one.
-/

set_option autoImplicit false

namespace CodeSearch

inductive Language where
  | typeScript
  | typeScriptReact
  | javaScript
  | javaScriptReact
  | python
  | rust
  | go
deriving DecidableEq, Repr

namespace Language

def all : List Language :=
  [.typeScript, .typeScriptReact, .javaScript, .javaScriptReact, .python, .rust, .go]

/-- The tag that chunks carry. -/
def name : Language → String
  | .typeScript => "typescript"
  | .typeScriptReact => "typescript-react"
  | .javaScript => "javascript"
  | .javaScriptReact => "javascript-react"
  | .python => "python"
  | .rust => "rust"
  | .go => "go"

def extensions : Language → List String
  | .typeScript => ["ts"]
  | .typeScriptReact => ["tsx"]
  | .javaScript => ["js", "mjs", "cjs"]
  | .javaScriptReact => ["jsx"]
  | .python => ["py"]
  | .rust => ["rs"]
  | .go => ["go"]

/-- Extensions are compared without regard to the case of basic letters. -/
def ofExtension? (ext : String) : Option Language :=
  all.find? fun l => l.extensions.contains (Path.asciiLower ext)

def ofPath? (path : String) : Option Language := (Path.extension? path).bind ofExtension?

/-- Names are compared exactly. -/
def ofName? (name : String) : Option Language := all.find? fun l => l.name == name

theorem ofName?_name (l : Language) : ofName? l.name = some l := by cases l <;> decide

end Language

end CodeSearch
