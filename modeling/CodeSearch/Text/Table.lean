/-!
Tables of character properties. A table is written as lines of rows divided by commas, each row a
list of hexadecimal numbers divided by blanks, sorted by the code points its rows speak of. All
tables are those of Unicode 16.0.
-/

set_option autoImplicit false

namespace CodeSearch.Text

/-- Value of a hexadecimal digit; any other character counts as zero. -/
def hexDigitValue (c : Char) : Nat :=
  if '0' ≤ c && c ≤ '9' then c.toNat - 48
  else if 'a' ≤ c && c ≤ 'f' then c.toNat - 87
  else if 'A' ≤ c && c ≤ 'F' then c.toNat - 55
  else 0

/-- State while a line is read: finished rows, the fields of the row at hand (newest
first), and the number at hand if a digit of it has been seen. -/
structure TableReader where
  rows : Array (List Nat) := #[]
  fields : List Nat := []
  number : Option Nat := none

namespace TableReader

def endField (r : TableReader) : TableReader :=
  match r.number with
  | none => r
  | some n => { r with fields := n :: r.fields, number := none }

def endRow (r : TableReader) : TableReader :=
  let r := r.endField
  { r with rows := r.rows.push r.fields.reverse, fields := [] }

def step (r : TableReader) (c : Char) : TableReader :=
  if c == ',' then r.endRow
  else if c == ' ' then r.endField
  else { r with number := some (r.number.getD 0 * 16 + hexDigitValue c) }

end TableReader

/-- Rows of a table, in the order written. -/
def tableRows (lines : List String) : Array (List Nat) :=
  let start : TableReader := {}
  (lines.foldl (fun r line => (line.toList.foldl TableReader.step r).endRow) start).rows

/-- A row that speaks of the code points from `first` to `last`. -/
structure TableRow where
  first : Nat
  last : Nat
  entry : List Nat

/-- Sorted rows over disjoint ranges of code points. -/
structure Table where
  rows : Array TableRow

namespace Table

/-- Each row is one code point, or the two ends of a range and what it says of them. -/
def ofRanges (lines : List String) : Table where
  rows := (tableRows lines).map fun
    | first :: last :: entry => ⟨first, last, entry⟩
    | [c] => ⟨c, c, []⟩
    | [] => ⟨1, 0, []⟩

/-- Each row is one code point and what it says of it. -/
def ofPoints (lines : List String) : Table where
  rows := (tableRows lines).map fun
    | c :: entry => ⟨c, c, entry⟩
    | [] => ⟨1, 0, []⟩

/-- Binary search among the rows numbered `lo` to `hi - 1`. -/
def findBetween (t : Table) (n lo hi : Nat) : Option TableRow :=
  if _h : lo < hi then
    let mid := (lo + hi) / 2
    match t.rows[mid]? with
    | none => none
    | some row =>
      if n < row.first then t.findBetween n lo mid
      else if row.last < n then t.findBetween n (mid + 1) hi
      else some row
  else none
termination_by hi - lo

def find? (t : Table) (c : Char) : Option TableRow :=
  t.findBetween c.toNat 0 t.rows.size

def contains (t : Table) (c : Char) : Bool := (t.find? c).isSome

end Table

end CodeSearch.Text
