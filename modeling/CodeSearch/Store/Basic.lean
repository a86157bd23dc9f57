import CodeSearch.Chunk
import CodeSearch.ProjectName
import CodeSearch.Word

/-!
The store: projects, the chunks of their files and the embeddings of those chunks. Rows are kept in
the order of their ids, and ids are given out by counters that never go back, so an id is never
used again. Each chunk belongs to a project and each embedding to a chunk.
-/

set_option autoImplicit false

namespace CodeSearch

/-- Components in single precision. -/
abbrev Vec := List Float32

structure Project where
  id : Int
  name : String
  path : String
  description : Option String
deriving DecidableEq, Repr

structure StoredChunk where
  id : Int
  projectId : Int
  content : String
  filePath : String
  startLine : Nat
  endLine : Nat
  kind : String
  language : String
  hash : String
  size : Nat
deriving DecidableEq, Repr

structure Embedding where
  chunkId : Int
  vector : Vec

structure Store where
  /-- Width of every embedding. -/
  dimensions : Nat
  projects : List Project := []
  chunks : List StoredChunk := []
  embeddings : List Embedding := []
  lastProjectId : Int := 0
  lastChunkId : Int := 0

inductive StoreError where
  /-- A row refers to one that does not exist. -/
  | foreignKey
  /-- One of two vectors that were to be compared has no components. -/
  | emptyVector (isFirst : Bool)
  /-- Two vectors that were to be compared differ in width. -/
  | widthMismatch (first second : Nat)
  | cannotOpen (path : String)
  | notADatabase
  | nameTaken (name existingPath : String)
  | embeddingCount (chunks vectors : Nat)
  | dimension (expected actual : Nat)
deriving DecidableEq, Repr

namespace StoreError

def message : StoreError → String
  | foreignKey => "FOREIGN KEY constraint failed"
  | emptyVector isFirst =>
    "Error reading " ++ (if isFirst then "1st" else "2nd") ++
      " vector: zero-length vectors are not supported."
  | widthMismatch first second =>
    "Vector dimension mistmatch. First vector has " ++ toString first ++
      " dimensions, while the second has " ++ toString second ++ " dimensions."
  | cannotOpen path => "unable to open database file: " ++ path
  | notADatabase => "file is not a database"
  | nameTaken name existingPath =>
    "project name '" ++ name ++ "' is already used by " ++ existingPath
  | embeddingCount chunks vectors =>
    toString chunks ++ " chunks but " ++ toString vectors ++ " embeddings"
  | dimension expected actual =>
    "embedding has " ++ toString actual ++ " dimensions, store expects " ++ toString expected

/-- The message and, for failures of the database itself, its code. -/
def chain (e : StoreError) : List String :=
  match e with
  | foreignKey => [e.message, "Error code 787: Foreign key constraint failed"]
  | emptyVector _ => [e.message, "Error code 1: SQL logic error"]
  | widthMismatch _ _ => [e.message, "Error code 1: SQL logic error"]
  | cannotOpen _ => [e.message, "Error code 14: Unable to open the database file"]
  | notADatabase => [e.message, "Error code 26: File opened that is not a database file"]
  | _ => [e.message]

end StoreError

namespace Store

def projectAt? (s : Store) (path : String) : Option Project :=
  s.projects.find? fun p => p.path == path

/-- The name is normalized first. -/
def project? (s : Store) (name : String) : Option Project :=
  s.projects.find? fun p => p.name == ProjectName.normalize name

def hasProject (s : Store) (id : Int) : Bool := s.projects.any fun p => p.id == id

/-- Registers the project at a path; a path that is registered already keeps its project. -/
def createProject (s : Store) (path : String) : Except StoreError (Store × Project) :=
  match s.projectAt? path with
  | some existing => .ok (s, existing)
  | none =>
    let name := ProjectName.ofPath path
    match s.projects.find? fun p => p.name == name with
    | some existing => .error (.nameTaken name existing.path)
    | none =>
      let id := s.lastProjectId + 1
      let project : Project := ⟨id, name, path, none⟩
      .ok ({ s with projects := s.projects ++ [project], lastProjectId := id }, project)

/-- Keeps the embeddings whose chunk is still there. -/
def dropOrphans (s : Store) : Store :=
  { s with embeddings := s.embeddings.filter fun e => s.chunks.any fun c => c.id == e.chunkId }

/-- Keeps the chunks of `p`, and the embeddings of those. -/
def keepChunks (s : Store) (p : StoredChunk → Bool) : Store :=
  { s with chunks := s.chunks.filter p }.dropOrphans

/-- Deletes a project with its chunks and their embeddings; whether there was one. -/
def deleteProject (s : Store) (id : Int) : Store × Bool :=
  ({ s with projects := s.projects.filter fun p => p.id != id }.keepChunks
    fun c => c.projectId != id, s.hasProject id)

def chunk? (s : Store) (id : Int) : Option StoredChunk := s.chunks.find? fun c => c.id == id

def hasChunk (s : Store) (id : Int) : Bool := s.chunks.any fun c => c.id == id

def hasHash (s : Store) (hash : String) : Bool := s.chunks.any fun c => c.hash == hash

def hasEmbedding (s : Store) (chunkId : Int) : Bool :=
  s.embeddings.any fun e => e.chunkId == chunkId

def row (id projectId : Int) (c : Chunk) : StoredChunk where
  id
  projectId
  content := c.content
  filePath := c.filePath
  startLine := c.startLine
  endLine := c.endLine
  kind := c.kind
  language := c.language
  hash := c.hash
  size := c.size

/-- Inserts chunks one by one. Each takes the next id, also one that is skipped because its hash is
stored already. `written` holds the rows written so far, newest first. -/
def insertChunksFrom (projectId : Int) (s : Store) (written : List StoredChunk) :
    List Chunk → Except StoreError (Store × List StoredChunk)
  | [] => .ok (s, written.reverse)
  | c :: rest =>
    let id := s.lastChunkId + 1
    let s := { s with lastChunkId := id }
    if s.hasHash c.hash then insertChunksFrom projectId s written rest
    else if s.hasProject projectId then
      let r := row id projectId c
      insertChunksFrom projectId { s with chunks := s.chunks ++ [r] } (r :: written) rest
    else .error .foreignKey

/-- Inserts the chunks whose hash is new, all or none; the rows written, in order. -/
def insertChunks (s : Store) (projectId : Int) (chunks : List Chunk) :
    Except StoreError (Store × List StoredChunk) :=
  insertChunksFrom projectId s [] chunks

/-- Inserts embeddings one by one; a chunk that has one keeps it. -/
def insertEmbeddingsFrom (s : Store) (written : Nat) :
    List (Int × Vec) → Except StoreError (Store × Nat)
  | [] => .ok (s, written)
  | (id, vector) :: rest =>
    if s.hasEmbedding id then insertEmbeddingsFrom s written rest
    else if s.hasChunk id then
      insertEmbeddingsFrom { s with embeddings := s.embeddings ++ [⟨id, vector⟩] } (written + 1)
        rest
    else .error .foreignKey

def checkDimensions (s : Store) (vector : Vec) : Except StoreError Unit :=
  if vector.length = s.dimensions then .ok ()
  else .error (.dimension s.dimensions vector.length)

/-- Stores one embedding for each chunk, all or none; the number written. -/
def insertEmbeddings (s : Store) (ids : List Int) (vectors : List Vec) :
    Except StoreError (Store × Nat) :=
  if ids.length ≠ vectors.length then .error (.embeddingCount ids.length vectors.length)
  else match vectors.forM s.checkDimensions with
    | .error e => .error e
    | .ok () => insertEmbeddingsFrom s 0 (ids.zip vectors)

/-- Order of rows within a file; the database holds lines as words with a sign. -/
def lineLe (a b : StoredChunk) : Bool :=
  decide (Word.signed a.startLine < Word.signed b.startLine) ||
    (Word.signed a.startLine == Word.signed b.startLine && decide (a.id ≤ b.id))

/-- Chunks of one file that have no embedding. -/
def unembedded (s : Store) (projectId : Int) (filePath : String) : List StoredChunk :=
  (s.chunks.filter fun c =>
    c.projectId == projectId && c.filePath == filePath && !s.hasEmbedding c.id).mergeSort lineLe

/-- Deletes chunks and their embeddings; the number deleted. -/
def deleteChunks (s : Store) (ids : List Int) : Store × Nat :=
  (s.keepChunks fun c => !ids.contains c.id, s.chunks.countP fun c => ids.contains c.id)

/-- Deletes all chunks of a project, which stays registered. -/
def clearProject (s : Store) (projectId : Int) : Store × Nat :=
  (s.keepChunks fun c => c.projectId != projectId,
    s.chunks.countP fun c => c.projectId == projectId)

/-- Whether a row counts for one project, or for all if none is named. -/
def countsFor (projectId : Option Int) (c : StoredChunk) : Bool :=
  match projectId with
  | none => true
  | some id => c.projectId == id

def countChunks (s : Store) (projectId : Option Int) : Nat := s.chunks.countP (countsFor projectId)

def countEmbeddings (s : Store) (projectId : Option Int) : Nat :=
  s.embeddings.countP fun e => (s.chunk? e.chunkId).any (countsFor projectId)

/-- Chunks of the same file and project that start on the lines from `first` to `last`. -/
def rowsBeside (s : Store) (chunk : StoredChunk) (first last : Int64) : List StoredChunk :=
  (s.chunks.filter fun c =>
    c.filePath == chunk.filePath && c.projectId == chunk.projectId &&
      decide (first ≤ Word.signed c.startLine) && decide (Word.signed c.startLine ≤ last) &&
      c.id != chunk.id).mergeSort lineLe

/-- Chunks of the same file and project that start within ten lines, for each line of context, of
the chunk. The width of the window becomes a word with a sign whatever its bits; where the width or
an end of the window does not fit, there is no result. -/
def context? (s : Store) (chunk : StoredChunk) (contextLines : Nat) :
    Option (List StoredChunk) := do
  let width ← Word.times? contextLines 10
  let first ← Word.ofInt? ((Word.signed chunk.startLine).toInt - (Word.signed width).toInt)
  let last ← Word.ofInt? ((Word.signed chunk.endLine).toInt + (Word.signed width).toInt)
  return s.rowsBeside chunk first last

end Store

end CodeSearch
