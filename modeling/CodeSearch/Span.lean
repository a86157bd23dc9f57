import CodeSearch.Text.Lines
import CodeSearch.Text.WhiteSpace

/-!
Spans of rows. A span names its first and last row, counted from zero and both included, and
the kind of code it holds. Merging covers both spans; extracting trims blank rows from the ends.
-/

set_option autoImplicit false

namespace CodeSearch

structure Span where
  first : Nat
  last : Nat
  kind : String
deriving DecidableEq, Repr

namespace Span

/-- Kinds that say nothing about the code between them. -/
def isDelimiter (kind : String) : Bool := kind = "\x7b" || kind = "\x7d"

/-- Rows from the first to the last, not counting the first. -/
def width (s : Span) : Nat := s.last - s.first

/-- A span of one row has no width. -/
def isEmpty (s : Span) : Bool := s.width == 0

/-- The smallest span over both. The later kind wins unless it is a delimiter. -/
def merge (s t : Span) : Span where
  first := min s.first t.first
  last := max s.last t.last
  kind := if isDelimiter t.kind then s.kind else t.kind

end Span

/-- A trimmed span with the text of its rows. -/
structure Excerpt where
  span : Span
  text : List Char
deriving DecidableEq

/-- Whether a row exists and is blank. -/
def blankRow (lines : Array (List Char)) (row : Nat) : Bool :=
  match lines[row]? with
  | some line => Text.isBlank line
  | none => false

/-- The first row from `row` on that is not blank, or `last`. -/
def trimFirst (lines : Array (List Char)) (row last : Nat) : Nat :=
  if row < last ∧ blankRow lines row = true then trimFirst lines (row + 1) last else row
termination_by last - row

/-- The last row down from `row` that is not blank, or `first`. -/
def trimLast (lines : Array (List Char)) (first : Nat) : Nat → Nat
  | 0 => 0
  | row + 1 =>
    if first < row + 1 ∧ blankRow lines (row + 1) = true then trimLast lines first row else row + 1

/-- Rows `first` to `last` joined by line feeds; rows past the end have no text. -/
def rowsText (lines : Array (List Char)) (first last : Nat) : List Char :=
  Text.joinLines (lines.extract first (last + 1)).toList

/-- Drops blank rows at both ends of a span, keeping at least one row. -/
def Span.extract (lines : Array (List Char)) (s : Span) : Excerpt :=
  let first := trimFirst lines s.first s.last
  let last := trimLast lines first s.last
  { span := { s with first, last }, text := rowsText lines first last }

end CodeSearch
