/-!
Parse trees as the chunker sees them: a kind, the bytes and the rows of each node.
-/

set_option autoImplicit false

namespace CodeSearch

/-- The last row on which a node has text: a node that ends at the start of a later row has none
on that row. -/
def lastTextRow (startRow endRow endColumn : Nat) : Nat :=
  if endColumn = 0 ∧ startRow < endRow then endRow - 1 else endRow

/-- Nothing ties the bytes and rows of a node to each other or to those of its parent. -/
inductive ParseTree where
  | node (kind : String) (startByte endByte firstRow lastRow : Nat) (children : List ParseTree)

instance : Inhabited ParseTree := ⟨.node "" 0 0 0 0 []⟩

namespace ParseTree

def kind : ParseTree → String
  | node k _ _ _ _ _ => k

def startByte : ParseTree → Nat
  | node _ s _ _ _ _ => s

def endByte : ParseTree → Nat
  | node _ _ e _ _ _ => e

def firstRow : ParseTree → Nat
  | node _ _ _ r _ _ => r

def lastRow : ParseTree → Nat
  | node _ _ _ _ r _ => r

def children : ParseTree → List ParseTree
  | node _ _ _ _ _ cs => cs

end ParseTree

end CodeSearch
