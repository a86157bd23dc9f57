import CodeSearch.Span

/-!
An index of the lines of a text, from which the length of an extracted span is read without making
its text: sums of line lengths, and for each row the nearest row with text in either direction.
-/

set_option autoImplicit false

namespace CodeSearch

structure LineIndex where
  /-- Entry `i` is the number of characters in the rows before `i`. -/
  offsets : Array Nat
  /-- Entry `i` is the first row from `i` on that is not blank, or the number of rows. -/
  nextInk : Array Nat
  /-- Entry `i` is the last row up to `i` that is not blank, if there is one. -/
  prevInk : Array (Option Nat)

namespace LineIndex

/-- Sums of all initial parts, starting from `sum`; newest first on `out`. -/
def sumsFrom (sum : Nat) (out : List Nat) : List Nat → List Nat
  | [] => (sum :: out).reverse
  | n :: ns => sumsFrom (sum + n) (sum :: out) ns

/-- For each row, the nearest row from it on that is not blank. The rows are numbered down from
`row` and come last to first; `out` begins with the entry of the row after them. -/
def nextFrom (next : Nat) (out : List Nat) : Nat → List Bool → List Nat
  | _, [] => next :: out
  | row, blank :: blanks =>
    nextFrom (if blank then next else row) (next :: out) (row - 1) blanks

/-- For each row, the nearest row up to it that is not blank; newest first on `out`. -/
def prevFrom (prev : Option Nat) (out : List (Option Nat)) : Nat → List Bool → List (Option Nat)
  | _, [] => out.reverse
  | row, blank :: blanks =>
    let here := if blank then prev else some row
    prevFrom here (here :: out) (row + 1) blanks

def ofLines (lines : List (List Char)) : LineIndex :=
  let blanks := lines.map Text.isBlank
  { offsets := (sumsFrom 0 [] (lines.map List.length)).toArray
    nextInk := (nextFrom lines.length [] (lines.length - 1) blanks.reverse).toArray
    prevInk := (prevFrom none [] 0 blanks).toArray }

def rowCount (ix : LineIndex) : Nat := ix.offsets.size - 1

/-- Rows past the end count as rows with text. -/
def nextText (ix : LineIndex) (row : Nat) : Nat := ix.nextInk.getD row row

def prevText (ix : LineIndex) (row : Nat) : Option Nat := ix.prevInk.getD row (some row)

/-- Number of characters that extracting the span would give. -/
def extractedLength (ix : LineIndex) (s : Span) : Nat :=
  let first := min (ix.nextText s.first) s.last
  let last := match ix.prevText s.last with
    | some row => max row first
    | none => first
  let n := ix.rowCount
  if n ≤ first then 0
  else
    let last := min last (n - 1)
    ix.offsets.getD (last + 1) 0 - ix.offsets.getD first 0 + (last - first)

end LineIndex

end CodeSearch
