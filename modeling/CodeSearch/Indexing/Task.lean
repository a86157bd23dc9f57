import CodeSearch.Chunking
import CodeSearch.Discovery
import CodeSearch.Embedding.Batching

/-!
Indexing one file. A worker cuts it, its new chunks are stored, the chunks of the file without an
embedding are embedded, and the embeddings are stored; if that fails, those chunks are removed again
so that a later run finds them new. A task uses the store in steps, each at once, and other tasks
may use the store between them.
-/

set_option autoImplicit false

namespace CodeSearch

inductive IndexError where
  | discovery (e : DiscoveryError)
  | store (e : StoreError)
  | embedding (e : EmbedError)
  | projectNotFound (name : String)
  /-- A worker died over its work. -/
  | worker (reason : String)
deriving DecidableEq, Repr

namespace IndexError

/-- The message and the messages of its causes. -/
def chain : IndexError → List String
  | discovery e => e.chain
  | store e => e.chain
  | embedding e => [e.message]
  | projectNotFound name => ["project not found: " ++ name]
  | worker reason => ["indexing worker failed: " ++ reason]

def message : IndexError → String
  | discovery e => e.message
  | store e => e.message
  | embedding e => e.message
  | projectNotFound name => "project not found: " ++ name
  | worker reason => "indexing worker failed: " ++ reason

end IndexError

/-- What comes of cutting a file. -/
inductive Cut where
  | made (chunks : List Chunk)
  | died (reason : String)

/-- The chunks that a cut yields; a worker that died yields none. -/
def Cut.chunks : Cut → List Chunk
  | made chunks => chunks
  | died _ => []

/-- What indexing a file has added to the store. -/
structure FileOutcome where
  newChunks : Nat := 0
  newEmbeddings : Nat := 0
deriving DecidableEq, Repr

/-- How far the indexing of a file has come. -/
inductive FileTask where
  /-- The file is cut; nothing is stored yet. -/
  | cut (projectId : Int) (chunks : List Chunk)
  /-- New chunks are stored. The pending ones are those of the file without an embedding, also
  those that an interrupted run has left. -/
  | stored (newChunks : Nat) (pending : List StoredChunk)
  | embedded (newChunks : Nat) (pending : List StoredChunk) (vectors : List Vec)
  /-- The pending chunks are still to be removed. -/
  | failing (pending : List StoredChunk) (e : IndexError)
  | done (result : Except IndexError FileOutcome)

/-- What embedding some chunks comes to. -/
abbrev Embedder := List StoredChunk → Except EmbedError (List Vec)

namespace FileTask

/-- The chunks that a task has taken on and neither embedded nor removed so far. -/
def pending : FileTask → List StoredChunk
  | stored _ chunks | embedded _ chunks _ | failing chunks _ => chunks
  | cut _ _ | done _ => []

def result? : FileTask → Option (Except IndexError FileOutcome)
  | done result => some result
  | _ => none

/-- A task on a file that has been cut; without chunks from a worker it is over at once. -/
def start (projectId : Int) : Cut → FileTask
  | .made chunks => cut projectId chunks
  | .died reason => done (.error (.worker reason))

/-- Stores the chunks that are new and finds those to embed. -/
def insert (s : Store) (projectId : Int) (chunks : List Chunk) : Store × FileTask :=
  match chunks with
  | [] => (s, done (.ok {}))
  | first :: _ =>
    match s.insertChunks projectId chunks with
    | .error e => (s, done (.error (.store e)))
    | .ok (s, inserted) =>
      match s.unembedded projectId first.filePath with
      | [] => (s, done (.ok {}))
      | pending => (s, stored inserted.length pending)

/-- Embeds the pending chunks, which does not touch the store. -/
def embed (embedder : Embedder) (newChunks : Nat) (pending : List StoredChunk) : FileTask :=
  match embedder pending with
  | .ok vectors => embedded newChunks pending vectors
  | .error e => failing pending (.embedding e)

def keep (s : Store) (newChunks : Nat) (pending : List StoredChunk) (vectors : List Vec) :
    Store × FileTask :=
  match s.insertEmbeddings (pending.map StoredChunk.id) vectors with
  | .ok (s, newEmbeddings) => (s, done (.ok { newChunks, newEmbeddings }))
  | .error e => (s, failing pending (.store e))

def step (embedder : Embedder) (s : Store) : FileTask → Store × FileTask
  | cut projectId chunks => insert s projectId chunks
  | stored newChunks pending => (s, embed embedder newChunks pending)
  | embedded newChunks pending vectors => keep s newChunks pending vectors
  | failing pending e => ((s.deleteChunks (pending.map StoredChunk.id)).1, done (.error e))
  | done result => (s, done result)

/-- A bound on the steps to the end. -/
def stepsLeft : FileTask → Nat
  | cut _ _ => 4
  | stored _ _ => 3
  | embedded _ _ _ => 2
  | failing _ _ => 1
  | done _ => 0

theorem stepsLeft_insert (s : Store) (projectId : Int) (chunks : List Chunk) :
    (insert s projectId chunks).2.stepsLeft < 4 := by
  unfold insert
  split
  · simp [stepsLeft]
  · split
    · simp [stepsLeft]
    · split <;> simp [stepsLeft]

theorem stepsLeft_embed (embedder : Embedder) (newChunks : Nat) (pending : List StoredChunk) :
    (embed embedder newChunks pending).stepsLeft < 3 := by
  unfold embed
  split <;> simp [stepsLeft]

theorem stepsLeft_keep (s : Store) (newChunks : Nat) (pending : List StoredChunk)
    (vectors : List Vec) : (keep s newChunks pending vectors).2.stepsLeft < 2 := by
  unfold keep
  split <;> simp [stepsLeft]

theorem stepsLeft_step (embedder : Embedder) (s : Store) {t : FileTask} (h : t.result? = none) :
    (step embedder s t).2.stepsLeft < t.stepsLeft := by
  cases t with
  | cut projectId chunks => exact stepsLeft_insert s projectId chunks
  | stored newChunks pending => exact stepsLeft_embed embedder newChunks pending
  | embedded newChunks pending vectors => exact stepsLeft_keep s newChunks pending vectors
  | failing pending e => simp [step, stepsLeft]
  | done result => simp [result?] at h

theorem stepsLeft_step_le_of_done (embedder : Embedder) (s : Store) {t : FileTask}
    {result : Except IndexError FileOutcome} (h : t.result? = some result) :
    (step embedder s t).2.stepsLeft ≤ t.stepsLeft := by
  cases t with
  | done result' => exact Nat.le_refl _
  | _ => simp [result?] at h

/-- All steps that are left, with no other task between them. -/
def finish (embedder : Embedder) (s : Store) (t : FileTask) :
    Store × Except IndexError FileOutcome :=
  match _h : t.result? with
  | some result => (s, result)
  | none => finish embedder (step embedder s t).1 (step embedder s t).2
termination_by t.stepsLeft
decreasing_by exact stepsLeft_step embedder s _h

end FileTask

end CodeSearch
