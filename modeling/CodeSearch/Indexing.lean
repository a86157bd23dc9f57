import CodeSearch.Indexing.Run

/-!
Indexing the files below a directory into the project of that directory. Finding the files and
cutting each of them are done by workers of their own; one that dies takes only its work with it.
-/

set_option autoImplicit false

namespace CodeSearch

/-- What a worker is given to do. -/
inductive Work where
  | find (root : List String)
  | cut (path : String)

structure Indexer where
  client : EmbeddingClient
  parse : Parser
  limits : ChunkLimits := {}
  selection : Selection
  /-- Whether ignore files leave an entry out. -/
  ignored : FileTree → List String → Bool → Bool
  /-- Why the worker that was given some work died, if it did. -/
  deaths : Work → Option String := fun _ => none
  /-- Files in a batch. -/
  batchSize : Nat := 10
  /-- Batches under way at once. -/
  maxConcurrency : Nat := 5

namespace Indexer

def cut (x : Indexer) (t : FileTree) (projectId : Int) (path : String) : Cut :=
  match x.deaths (.cut path) with
  | some reason => .died reason
  | none =>
    match Chunking.ofFile? x.parse t x.limits (some projectId) path with
    | some chunks => .made chunks
    | none => .died EmbeddingClient.crashReason

def indexFile (x : Indexer) (t : FileTree) (projectId : Int) (s : Store) (path : String) :
    Store × Except IndexError FileOutcome :=
  FileTask.finish x.client.embedChunks s (.start projectId (x.cut t projectId path))

/-- Files under way at once: groups of batches. A size of zero counts as one. -/
def groups {α : Type} (x : Indexer) (files : List α) : List (List α) :=
  (groupsOf x.maxConcurrency (groupsOf x.batchSize files)).map List.flatten

/-- The run over the files below a directory, before its first move. Its project is registered. -/
def plan (x : Indexer) (t : FileTree) (s : Store) (path : String) : Except IndexError IndexRun :=
  match Discovery.resolveRoot t path with
  | .error e => .error (.discovery e)
  | .ok root =>
    match x.deaths (.find root) with
    | some reason => .error (.worker reason)
    | none =>
      match s.createProject (Path.withSlashes (Path.ofNames root)) with
      | .error e => .error (.store e)
      | .ok (s, project) =>
        let files := Discovery.filesUnder (x.ignored t) t x.selection root
        .ok { projectId := project.id, store := s, waiting := x.groups (files.map Path.ofNames) }

/-- Indexes the files below a directory; the store that is left, and the report. -/
def index (x : Indexer) (t : FileTree) (s : Store) (path : String) :
    Store × Except IndexError IndexReport :=
  match x.plan t s path with
  | .error e => (s, .error e)
  | .ok r =>
    let r := r.finish (x.cut t r.projectId) x.client.embedChunks
    (r.store, .ok r.report)

end Indexer

/-- Removes all chunks of the project of that name; the number removed. -/
def Store.clear (s : Store) (name : String) : Store × Except IndexError Nat :=
  match s.project? name with
  | none => (s, .error (.projectNotFound name))
  | some project =>
    let (s, removed) := s.clearProject project.id
    (s, .ok removed)

end CodeSearch
