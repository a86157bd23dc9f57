/-!
Cutting text at a separator and joining it again; the lines of a text.
-/

set_option autoImplicit false

namespace CodeSearch.Text

/-- Cuts at each non-overlapping occurrence of `sep`, from the left. `skip` counts characters of an
occurrence still to be passed, `piece` is the piece at hand and `done` the finished ones, both
newest first. -/
def splitFrom (sep : List Char) (done : List (List Char)) (piece : List Char) :
    Nat → List Char → List (List Char)
  | _, [] => (piece.reverse :: done).reverse
  | skip + 1, _ :: cs => splitFrom sep done piece skip cs
  | 0, c :: cs =>
    if sep.isPrefixOf (c :: cs) then splitFrom sep (piece.reverse :: done) [] (sep.length - 1) cs
    else splitFrom sep done (c :: piece) 0 cs

/-- The pieces between occurrences of `sep`. An empty separator stands before, between and behind
all characters. -/
def splitOn (sep cs : List Char) : List (List Char) :=
  if sep.isEmpty then [] :: (cs.map fun c => [c]) ++ [[]] else splitFrom sep [] [] 0 cs

/-- Pieces with `sep` between neighbours. -/
def joinWith (sep : List Char) (pieces : List (List Char)) : List Char :=
  sep.intercalate pieces

def joinLines (lines : List (List Char)) : List Char := joinWith ['\n'] lines

/-- A line without the carriage return at its end. -/
def chompReturn (line : List Char) : List Char :=
  if line.getLast? = some '\r' then line.dropLast else line

/-- Lines end at line feeds; a line feed at the end leaves an empty last line. -/
def splitLines (cs : List Char) : List (List Char) := (splitOn ['\n'] cs).map chompReturn

/-- Lines to show: a line feed at the end starts no further line, and what follows the last line
feed keeps its carriage return. -/
def shownLines (cs : List Char) : List (List Char) :=
  match (splitOn ['\n'] cs).reverse with
  | [] => []
  | last :: before => before.reverse.map chompReturn ++ if last.isEmpty then [] else [last]

/-- Whether `word` stands somewhere in the text. -/
def occursIn (word : List Char) : List Char → Bool
  | [] => word.isEmpty
  | c :: cs => word.isPrefixOf (c :: cs) || occursIn word cs

/-- The words between the characters of `p`, without empty ones; `word` is the word at hand and
`done` the finished ones, both newest first. -/
def wordsFrom (p : Char → Bool) (done : List (List Char)) (word : List Char) :
    List Char → List (List Char)
  | [] => (if word.isEmpty then done else word.reverse :: done).reverse
  | c :: cs =>
    if p c then wordsFrom p (if word.isEmpty then done else word.reverse :: done) [] cs
    else wordsFrom p done (c :: word) cs

/-- Maximal runs of characters outside `p`. -/
def wordsBetween (p : Char → Bool) (cs : List Char) : List (List Char) := wordsFrom p [] [] cs

end CodeSearch.Text
