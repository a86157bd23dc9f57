import CodeSearch.Text.Lines
import CodeSearch.Text.LowerCase
import CodeSearch.Text.WhiteSpace
import CodeSearch.Text.WordChar

/-!
Queries: the form that is embedded, and the terms that are looked for in a text.
-/

set_option autoImplicit false

namespace CodeSearch.Query

/-- What is neither a word character nor white space becomes a blank. -/
def blankOut (c : Char) : Char := if Text.isWord c || Text.isWhite c then c else ' '

/-- Lower case, punctuation replaced by blanks, white space collapsed and trimmed. -/
def sanitizeChars (query : List Char) : List Char :=
  Text.trim (Text.squeeze Text.isWhite ' ' ((Text.lowerCase query).map blankOut))

def sanitize (query : String) : String := String.ofList (sanitizeChars query.toList)

/-- Distinct words of a query in lower case, in order of first appearance. -/
def terms (query : List Char) : List (List Char) :=
  (Text.wordsBetween Text.isWhite (Text.lowerCase query)).eraseDups

/-- How many of the terms occur in a text, without regard to case. -/
def hitCount (terms : List (List Char)) (content : List Char) : Nat :=
  let lower := Text.lowerCase content
  terms.countP fun term => Text.occursIn term lower

end CodeSearch.Query
