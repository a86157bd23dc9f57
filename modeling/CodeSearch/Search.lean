import CodeSearch.Embedding.Batching
import CodeSearch.Search.Ranking

/-!
Answering a query: it is sanitized and embedded, the nearest chunks are fetched and ranked, and
each hit of the page gets its score and the chunks around it. A search for whose context no window
can be worked out has no result.
-/

set_option autoImplicit false

namespace CodeSearch

structure SearchOptions (α : Type) where
  limit : Nat
  threshold : α
  minSimilarity : α
  diversityFactor : α
  /-- No context is looked up for zero lines. -/
  contextLines : Nat
  filePaths : List String := []
  excludeFilePaths : List String := []
  languages : List String := []
  kinds : List String := []
  /-- Names of projects; unknown ones are passed over. -/
  projects : List String := []

structure SearchResult (α : Type) where
  chunk : StoredChunk
  similarity : α
  relevance : α
  context : List StoredChunk
  /-- Place on the page, from one. -/
  rank : Nat

inductive SearchError where
  | queryEmbedding (e : EmbedError)
  | store (e : StoreError)
deriving DecidableEq, Repr

namespace SearchError

def message : SearchError → String
  | queryEmbedding e => "failed to prepare search query: " ++ e.message
  | store e => e.message

def chain : SearchError → List String
  | queryEmbedding e => [message (queryEmbedding e), e.message]
  | store e => e.chain

end SearchError

namespace Search

section Page
variable {α : Type} [Score α]

/-- The filter that the options ask for. Names that no project has restrict nothing. -/
def filterOf (s : Store) (o : SearchOptions α) : ChunkFilter α where
  projectIds := o.projects.filterMap fun name => (s.project? name).map Project.id
  filePaths := o.filePaths
  excludeFilePaths := o.excludeFilePaths
  languages := o.languages
  kinds := o.kinds
  minSimilarity := Ranking.similarityFloor o.threshold o.minSimilarity

/-- The context of a hit; none is looked up for zero lines. -/
def contextOf? (s : Store) (contextLines : Nat) (chunk : StoredChunk) :
    Option (List StoredChunk) :=
  if 0 < contextLines then s.context? chunk contextLines else some []

/-- Scores and places the hits of a page, from rank `rank` on. -/
def resultsFrom? (s : Store) (query : String) (contextLines : Nat) (rank : Nat) :
    List (Hit α) → Option (List (SearchResult α))
  | [] => some []
  | hit :: rest => do
    let context ← contextOf? s contextLines hit.chunk
    let others ← resultsFrom? s query contextLines (rank + 1) rest
    let result : SearchResult α :=
      { chunk := hit.chunk
        similarity := hit.similarity
        relevance := Ranking.relevance hit.similarity query.toList hit.chunk.content.toList
        context
        rank }
    return result :: others

/-- The page for candidates that the store returned. -/
def pageOf? (s : Store) (query : String) (o : SearchOptions α) (candidates : List (Hit α)) :
    Option (List (SearchResult α)) :=
  resultsFrom? s query o.contextLines 1 (Ranking.rank o.diversityFactor o.limit candidates)

/-- The page under a given distance of embeddings to the query. -/
def page? (s : Store) (distance : Vec → Option α) (query : String) (o : SearchOptions α) :
    Option (List (SearchResult α)) :=
  pageOf? s query o (s.nearest distance (filterOf s o) (Ranking.retrievalLimit o.limit))

end Page

/-- The page for a query, by cosine distance to its embedding. -/
def run? (s : Store) (client : EmbeddingClient) (query : String) (o : SearchOptions Float) :
    Option (Except SearchError (List (SearchResult Float))) :=
  match client.embedQuery (Query.sanitize query) with
  | .error e => some (.error (.queryEmbedding e))
  | .ok vector =>
    match s.similar vector (filterOf s o) (Ranking.retrievalLimit o.limit) with
    | .error e => some (.error (.store e))
    | .ok candidates => (pageOf? s query o candidates).map .ok

end Search

end CodeSearch
