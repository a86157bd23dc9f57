import CodeSearch.Span.LineIndex

/-!
The line index, the indexed length and extraction once more, as loops over tables in which each
access and each subtraction is checked. The result is none where an access is out of bounds or a
difference would be negative.
-/

set_option autoImplicit false

namespace CodeSearch

def minus? (a b : Nat) : Option Nat := if b ≤ a then some (a - b) else none

theorem minus?_eq_some_iff {a b d : Nat} : minus? a b = some d ↔ a = d + b := by
  unfold minus?
  split
  · rw [Option.some.injEq]
    omega
  · simp only [reduceCtorEq, false_iff]
    omega

def trimLast? (lines : Array (List Char)) (first row : Nat) : Option Nat :=
  if first < row ∧ blankRow lines row = true then
    match _h : minus? row 1 with
    | none => none
    | some before => trimLast? lines first before
  else some row
termination_by row
decreasing_by
  rw [minus?_eq_some_iff] at _h
  omega

/-- The rows from `first` to `last`, which have to be rows of the text. -/
def rowsText? (lines : Array (List Char)) (first last : Nat) : Option (List Char) :=
  if first ≤ last + 1 ∧ last < lines.size then some (rowsText lines first last) else none

def Span.extract? (lines : Array (List Char)) (s : Span) : Option Excerpt := do
  let first := trimFirst lines s.first s.last
  let last ← trimLast? lines first s.last
  let text ←
    if first < lines.size then do
      let bottom ← minus? lines.size 1
      rowsText? lines first (min last bottom)
    else some []
  return { span := { s with first, last }, text }

namespace LineIndex

def pushSum? (sums : Array Nat) (n : Nat) : Option (Array Nat) := do
  let last ← minus? sums.size 1
  let sum ← sums[last]?
  return sums.push (sum + n)

/-- Sets the entry of a row, for which that of the row after it has to be set. -/
def setNext? (blanks : Array Bool) (next : Array Nat) (row : Nat) : Option (Array Nat) := do
  let blank ← blanks[row]?
  let entry ← if blank then next[row + 1]? else some row
  if row < next.size then some (next.setIfInBounds row entry) else none

def pushPrev? (blanks : Array Bool) (prev : Array (Option Nat)) (row : Nat) :
    Option (Array (Option Nat)) := do
  let blank ← blanks[row]?
  let entry ←
    if blank then
      match row with
      | 0 => some none
      | before + 1 => prev[before]?
    else some (some row)
  return prev.push entry

def ofLines? (lines : List (List Char)) : Option LineIndex := do
  let n := lines.length
  let blanks := (lines.map Text.isBlank).toArray
  let offsets ← (lines.map List.length).foldlM pushSum? #[0]
  let nextInk ← (List.range n).reverse.foldlM (setNext? blanks) (Array.replicate (n + 1) n)
  let prevInk ← (List.range n).foldlM (pushPrev? blanks) #[]
  return { offsets, nextInk, prevInk }

/-- Number of characters in the rows from `first` to `last`, less those behind the last row. -/
def rowsLength? (ix : LineIndex) (first last : Nat) : Option Nat := do
  let n ← minus? ix.offsets.size 1
  if n ≤ first then some 0
  else do
    let bottom ← minus? n 1
    let last := min last bottom
    let through ← ix.offsets[last + 1]?
    let before ← ix.offsets[first]?
    let letters ← minus? through before
    let feeds ← minus? last first
    return letters + feeds

def extractedLength? (ix : LineIndex) (s : Span) : Option Nat :=
  let first := min (ix.nextText s.first) s.last
  let last := match ix.prevText s.last with
    | some row => max row first
    | none => first
  ix.rowsLength? first last

end LineIndex

end CodeSearch
