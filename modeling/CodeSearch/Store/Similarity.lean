import CodeSearch.Search.Score
import CodeSearch.Store.Basic

/-!
The nearest chunks of a store. Which chunks qualify and in what order depends on the distance only
through its order, so the distance is a parameter; the store's own is the cosine distance.
-/

set_option autoImplicit false

namespace CodeSearch

/-- Restrictions on chunks; an empty list restricts nothing. -/
structure ChunkFilter (α : Type) where
  projectIds : List Int := []
  filePaths : List String := []
  excludeFilePaths : List String := []
  languages : List String := []
  kinds : List String := []
  /-- A chunk has to score strictly above this. -/
  minSimilarity : α

structure Hit (α : Type) where
  chunk : StoredChunk
  similarity : α

/-- Membership, where an empty list means everything. -/
def allows {β : Type} [BEq β] (items : List β) (x : β) : Bool :=
  items.isEmpty || items.contains x

namespace ChunkFilter
variable {α : Type}

/-- Whether a chunk passes all lists. -/
def admits (f : ChunkFilter α) (c : StoredChunk) : Bool :=
  allows f.projectIds c.projectId && allows f.filePaths c.filePath &&
    !f.excludeFilePaths.contains c.filePath && allows f.languages c.language &&
    allows f.kinds c.kind

end ChunkFilter

section Nearest
variable {α : Type} [Score α]

structure Candidate (α : Type) where
  chunk : StoredChunk
  distance : α

/-- Similarity is what the distance leaves of one. -/
def Candidate.similarity (c : Candidate α) : α := Score.one - c.distance

/-- By distance, then by id. -/
def Candidate.precedes (a b : Candidate α) : Bool :=
  Score.lt a.distance b.distance ||
    (!Score.lt b.distance a.distance && decide (a.chunk.id ≤ b.chunk.id))

/-- The embedded chunks that have a distance, pass the filter and score above its floor. -/
def Store.candidates (s : Store) (distance : Vec → Option α) (f : ChunkFilter α) :
    List (Candidate α) :=
  s.embeddings.filterMap fun e =>
    match s.chunk? e.chunkId, distance e.vector with
    | some chunk, some d =>
      let c : Candidate α := ⟨chunk, d⟩
      if f.admits chunk && Score.lt f.minSimilarity c.similarity then some c else none
    | _, _ => none

/-- A limit of `2 ^ 63` or more is none. -/
def takeRows {β : Type} (limit : Nat) (rows : List β) : List β :=
  if limit < Nat.pow 2 63 then rows.take limit else rows

/-- The best candidates in order, at most `limit`. -/
def Store.nearest (s : Store) (distance : Vec → Option α) (f : ChunkFilter α) (limit : Nat) :
    List (Hit α) :=
  (takeRows limit ((s.candidates distance f).mergeSort Candidate.precedes)).map fun c =>
    ⟨c.chunk, c.similarity⟩

end Nearest

/-- Sum of the products of components, added in order in single precision. -/
def dot (a b : Vec) : Float32 :=
  (a.zip b).foldl (fun sum p => sum + p.1 * p.2) 0

/-- One minus the cosine of the angle, rounded to single precision; none where that is no number. -/
def cosineDistance (a b : Vec) : Option Float :=
  let norms := (dot a a).toFloat.sqrt * (dot b b).toFloat.sqrt
  let d := ((1.0 - (dot a b).toFloat / norms : Float).toFloat32).toFloat
  if d.isNaN then none else some d

/-- Why two vectors cannot be compared. -/
def compareFault? (a b : Vec) : Option StoreError :=
  if a.isEmpty then some (.emptyVector true)
  else if b.isEmpty then some (.emptyVector false)
  else if a.length ≠ b.length then some (.widthMismatch a.length b.length)
  else none

/-- Whether the rows of a filter can be told before distances are taken. A filter of file paths
alone cannot. -/
def ChunkFilter.isEarly {α : Type} (f : ChunkFilter α) : Bool :=
  !f.projectIds.isEmpty || !f.languages.isEmpty || !f.kinds.isEmpty

/-- The vectors that a search compares with its query. -/
def Store.compared {α : Type} (s : Store) (f : ChunkFilter α) : List Vec :=
  (s.embeddings.filter fun e =>
    (s.chunk? e.chunkId).any fun c => !f.isEarly || f.admits c).map Embedding.vector

/-- Nearest chunks by cosine distance to a query of the store's width. -/
def Store.similar (s : Store) (query : Vec) (f : ChunkFilter Float) (limit : Nat) :
    Except StoreError (List (Hit Float)) :=
  match s.checkDimensions query with
  | .error e => .error e
  | .ok () =>
    match (if limit = 0 then [] else s.compared f).findSome? fun v => compareFault? v query with
    | some e => .error e
    | none => .ok (s.nearest (cosineDistance query) f limit)

end CodeSearch
