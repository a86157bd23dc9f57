import CodeSearch.Path
import CodeSearch.Text.Decomposition
import CodeSearch.Text.LowerCase
import CodeSearch.Text.WhiteSpace

/-!
Names of projects. A name is folded to basic letters, digits, dots and dashes; two spellings that
fold alike are one name.
-/

set_option autoImplicit false

namespace CodeSearch.ProjectName

/-- Name of a project whose own name folds to nothing. -/
def untitled : String := "untitled-project"

def maxLength : Nat := 100

/-- Combining marks that folding drops. -/
def isDroppedMark (c : Char) : Bool := 0x300 ≤ c.toNat && c.toNat ≤ 0x36F

/-- The characters of a name, dashes apart. -/
def isNameChar (c : Char) : Bool :=
  ('a' ≤ c && c ≤ 'z') || ('0' ≤ c && c ≤ '9') || c == '.'

/-- Decomposed, without marks, in lower case. -/
def fold (input : List Char) : List Char :=
  Text.lowerCase ((Text.decompose input).filter fun c => !isDroppedMark c)

/-- A dash for each run of other characters, then a dot for each run of dots. -/
def dash (folded : List Char) : List Char :=
  Text.squeeze (· == '.') '.' (Text.squeeze (fun c => !isNameChar c) '-' folded)

/-- Dots and dashes are dropped at both ends. -/
def trimEnds (name : List Char) : List Char := Text.trimWhere (fun c => c == '.' || c == '-') name

def ofFolded (folded : List Char) : List Char :=
  let name := trimEnds (dash folded)
  (if name.isEmpty then untitled.toList else name).take maxLength

def normalize (input : String) : String := String.ofList (ofFolded (fold input.toList))

/-- The name of the project at a path: that of its last segment. -/
def ofPath (path : String) : String :=
  match Path.fileName? path with
  | some name => normalize name
  | none => untitled

end CodeSearch.ProjectName
