import CodeSearch.Text.Lines

/-!
Path texts. Components are divided by `/`; empty components and `.` away from the front say
nothing, so they are dropped.
-/

set_option autoImplicit false

namespace CodeSearch

inductive PathComponent where
  | root
  | here
  | up
  | name (text : String)
deriving DecidableEq, Repr

namespace Path

/-- The component a piece between slashes stands for; `first` if nothing precedes it. -/
def component? (first : Bool) (piece : List Char) : Option PathComponent :=
  match piece with
  | [] => none
  | ['.'] => if first then some .here else none
  | ['.', '.'] => some .up
  | _ => some (.name (String.ofList piece))

def components (path : String) : List PathComponent :=
  match Text.splitOn ['/'] path.toList with
  | [] => []
  | piece :: pieces =>
    let front := if path.toList.head? = some '/' then [PathComponent.root]
      else (component? true piece).toList
    front ++ pieces.filterMap (component? false)

/-- The last component, if it is a name. -/
def fileName? (path : String) : Option String :=
  match (components path).getLast? with
  | some (.name text) => some text
  | _ => none

/-- What follows the last dot of a file name, unless that dot comes first. -/
def nameExtension? (name : String) : Option String :=
  let reversed := name.toList.reverse
  let ext := reversed.takeWhile (· != '.')
  match reversed.drop ext.length with
  | _ :: _ :: _ => some (String.ofList ext.reverse)
  | _ => none

def extension? (path : String) : Option String := (fileName? path).bind nameExtension?

/-- Lower case for the basic letters alone. -/
def asciiLower (s : String) : String := String.ofList (s.toList.map Char.toLower)

/-- An absolute path from its names. -/
def ofNames (names : List String) : String :=
  if names.isEmpty then "/" else String.join (names.map fun n => "/" ++ n)

/-- Backslashes count as slashes where a path is shown. -/
def withSlashes (path : String) : String :=
  String.ofList (path.toList.map fun c => if c == '\\' then '/' else c)

/-- Order of encoded bytes, which is the order of code points. -/
def nameLe (a b : String) : Bool := !decide (b < a)

/-- Component by component, so a directory's files precede a sibling whose name extends its own. -/
def namesLe : List String → List String → Bool
  | [], _ => true
  | _ :: _, [] => false
  | a :: as, b :: bs => if a = b then namesLe as bs else nameLe a b

end Path

end CodeSearch
