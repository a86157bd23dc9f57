import CodeSearch.Files.Tree

/-!
Stores in files. A store is opened at the path of its file; a file that is missing or empty becomes
a new store.
-/

set_option autoImplicit false

namespace CodeSearch.FileTree

/-- Paths whose store is kept in no file. -/
def isUnnamed (path : String) : Bool := path = ":memory:" || path = ""

/-- Opens the store at a path for vectors of some width, making directories that are missing. -/
def openStore (t : FileTree) (path : String) (dimensions : Nat) :
    Except StoreError (FileTree × Store) :=
  if isUnnamed path then .ok (t, { dimensions })
  else
    let t := t.makeDirectories (splitLast path).1
    let fresh : Except StoreError (FileTree × Store) :=
      match t.write path (.database { dimensions }) with
      | .ok t => .ok (t, { dimensions })
      | .error _ => .error (.cannotOpen path)
    match t.read path with
    | .ok (.database s) => .ok (t, { s with dimensions })
    | .ok (.bytes []) => fresh
    | .ok (.bytes _) => .error .notADatabase
    | .error .notFound => fresh
    | .error _ => .error (.cannotOpen path)

/-- Keeps a store in its file. -/
def keepStore (t : FileTree) (path : String) (s : Store) : FileTree :=
  if isUnnamed path then t
  else match t.write path (.database s) with
    | .ok t => t
    | .error _ => t

end CodeSearch.FileTree
