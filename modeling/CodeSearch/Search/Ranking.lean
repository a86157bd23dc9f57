import CodeSearch.Search.Query
import CodeSearch.Store.Similarity

/-!
From the nearest chunks to a page. The store is asked for more than a page; repeated files are
penalized, the rest is put in order of similarity and cut to size, and each hit is scored by its
similarity and by the terms of the query found in it.
-/

set_option autoImplicit false

namespace CodeSearch

namespace Ranking
variable {α : Type} [Score α]

/-- Rows asked of the store for a page of `limit` hits. -/
def retrievalLimit (limit : Nat) : Nat := min (limit * 3) 100

/-- A hit has to score above both bounds. -/
def similarityFloor (threshold minSimilarity : α) : α := Score.larger threshold minSimilarity

/-- A hit is kept if it scores above this after the penalty. -/
def keepThreshold : α := Score.ofDecimal 1 1

/-- Similarity of a hit of whose file `count` are kept already. -/
def penalized (factor : α) (count : Nat) (similarity : α) : α :=
  similarity * (Score.one - Score.ofNat count * (Score.one - factor))

/-- Keeps hits in order while their penalized score is high enough; `kept` is newest first. -/
def keepFrom (factor : α) (kept : List (Hit α)) : List (Hit α) → List (Hit α)
  | [] => kept.reverse
  | hit :: rest =>
    let count := kept.countP fun k => k.chunk.filePath == hit.chunk.filePath
    if Score.lt keepThreshold (penalized factor count hit.similarity) then
      keepFrom factor (hit :: kept) rest
    else keepFrom factor kept rest

/-- Best first; equals stay in order. -/
def bySimilarity (hits : List (Hit α)) : List (Hit α) :=
  hits.mergeSort fun a b => Score.sortLe b.similarity a.similarity

/-- Penalizes repeated files and sorts by similarity. A factor of one or more does neither. -/
def diversify (factor : α) (hits : List (Hit α)) : List (Hit α) :=
  if Score.le Score.one factor then hits else bySimilarity (keepFrom factor [] hits)

def rank (factor : α) (limit : Nat) (hits : List (Hit α)) : List (Hit α) :=
  (diversify factor hits).take limit

/-- Share of the distinct query terms found in a text. -/
def lexicalOverlap (query content : List Char) : α :=
  let terms := Query.terms query
  if content.isEmpty || terms.isEmpty then Score.ofNat 0
  else Score.ofNat (Query.hitCount terms content) / Score.ofNat terms.length

/-- Six tenths of the similarity and three tenths of the overlap. -/
def relevance (similarity : α) (query content : List Char) : α :=
  similarity * Score.ofDecimal 6 1 + lexicalOverlap query content * Score.ofDecimal 3 1

end Ranking

end CodeSearch
