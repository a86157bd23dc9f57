import CodeSearch.Chunk
import CodeSearch.Path
import CodeSearch.Text.Lines
import CodeSearch.Text.WhiteSpace

/-!
Chunking of plain text. The text is cut at its widest separator (paragraphs, then lines, then
words), oversized pieces at the narrower ones and at last at a fixed width. Pieces with little ink
are joined with the next, and a running line number places each passage.
-/

set_option autoImplicit false

namespace CodeSearch

/-- Consecutive groups of at most `size` items, a size of zero counting as one. -/
def groupsOf {α : Type} (size : Nat) : List α → List (List α)
  | [] => []
  | x :: xs => (x :: xs.take (size - 1)) :: groupsOf size (xs.drop (size - 1))
termination_by items => items.length
decreasing_by simp only [List.length_drop, List.length_cons]; omega

/-- No item is lost and none is moved. -/
theorem flatten_groupsOf {α : Type} (size : Nat) (items : List α) :
    (groupsOf size items).flatten = items := by
  fun_induction groupsOf size items with
  | case1 => rfl
  | case2 x xs ih => simp [ih]

theorem length_le_of_mem_groupsOf {α : Type} {size : Nat} {items group : List α}
    (h : group ∈ groupsOf size items) : group.length ≤ max size 1 := by
  fun_induction groupsOf size items with
  | case1 => simp at h
  | case2 x xs ih =>
    rcases List.mem_cons.mp h with rfl | h
    · simp only [List.length_cons, List.length_take]
      omega
    · exact ih h

namespace Passages

/-- Cuts `text` into pieces of at most `maxSize` characters, each oversized piece with the
separators that come later in the list. -/
def pieces (maxSize : Nat) : List (List Char) → List Char → List (List Char)
  | [], text => if text.length ≤ maxSize then [text] else groupsOf maxSize text
  | sep :: narrower, text =>
    if text.length ≤ maxSize then [text]
    else match Text.splitOn sep text with
      | [_] => pieces maxSize narrower text
      | parts => parts.flatMap (pieces maxSize narrower)

/-- Widest first. -/
def separators : List (List Char) := [['\n', '\n'], ['\n'], [' ']]

/-- Joins a passage with the next piece, a line feed between, while it has too little ink and the
two fit. `done` holds the finished passages, newest first. -/
def joinFrom (limits : ChunkLimits) (done : List (List Char)) (current : List Char) :
    List (List Char) → List (List Char)
  | [] => (current :: done).reverse
  | next :: rest =>
    let joined := current ++ '\n' :: next
    if Text.inkCount current < limits.minInk ∧ joined.length ≤ limits.maxSize then
      joinFrom limits done joined rest
    else joinFrom limits (current :: done) next rest

def join (limits : ChunkLimits) : List (List Char) → List (List Char)
  | [] => []
  | piece :: rest => joinFrom limits [] piece rest

/-- Language tag of a file without a grammar: its extension in lower case. -/
def language (filePath : String) : String :=
  match Path.extension? filePath with
  | some ext => Path.asciiLower ext
  | none => textKind

/-- The chunk of a passage that begins on line `line`, unless the passage is blank. -/
def chunk? (filePath : String) (line : Nat) (passage : List Char) : Option Chunk :=
  let content := Text.trim passage
  if content.isEmpty then none
  else some
    { content := String.ofList content
      filePath
      startLine := line
      endLine := line + passage.count '\n'
      kind := textKind
      language := language filePath
      hash := textHash passage
      size := passage.length
      projectId := none }

/-- Chunks of passages that follow one another from line `line` on. -/
def place (filePath : String) (line : Nat) (done : List Chunk) : List (List Char) → List Chunk
  | [] => done.reverse
  | passage :: rest =>
    place filePath (line + passage.count '\n' + 1)
      ((chunk? filePath line passage).toList ++ done) rest

/-- Chunks of a plain text; a blank text has none. -/
def chunks (limits : ChunkLimits) (filePath : String) (text : List Char) : List Chunk :=
  if Text.isBlank text then []
  else place filePath 1 [] (join limits (pieces limits.maxSize separators text))

end Passages

end CodeSearch
