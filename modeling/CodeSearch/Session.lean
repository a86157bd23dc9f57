import CodeSearch.Embedding.Endpoint
import CodeSearch.Files.Database
import CodeSearch.Indexing
import CodeSearch.Settings

/-!
A session: settings, the store they name and the embedding client they ask for, from which indexers
and searches are made.
-/

set_option autoImplicit false

namespace CodeSearch

/-- Why a session, or an indexer from it, could not be set up. -/
inductive SetupError where
  | settings (f : Settings.Fault)
  | database (path : String) (e : StoreError)
  | ignorePatterns (e : PatternError)
deriving DecidableEq, Repr

/-- The message and the messages of its causes. -/
def SetupError.chain : SetupError → List String
  | settings f => ["invalid configuration", f.message]
  | database path e => ("failed to open database: " ++ path) :: e.chain
  | ignorePatterns e => ["invalid indexing.ignore_patterns", e.message, e.detail]

/-- What a session needs from outside. -/
structure Surroundings where
  parse : Parser
  globs : Globs
  /-- Whether ignore files leave an entry out, by its names and whether it is a directory. -/
  ignored : FileTree → List String → Bool → Bool
  /-- Sends a request to an embedding service. -/
  send : HttpRequest → HttpOutcome
  /-- Why the worker that was given some work died, if it did. -/
  deaths : Work → Option String := fun _ => none

structure Session where
  settings : Settings
  store : Store
  client : EmbeddingClient
  out : Surroundings

def EmbeddingSettings.makeProvider (e : EmbeddingSettings) (send : HttpRequest → HttpOutcome) :
    Provider :=
  match e.provider with
  | .hashing => .hashing e.dimensions
  | .remote => (Endpoint.make e.baseUrl e.model e.apiKey e.dimensions).provider send

namespace Session

/-- A session on parts that are at hand. -/
def ofParts (settings : Settings) (store : Store) (provider : Provider) (out : Surroundings) :
    Session where
  settings
  store
  client := { provider, batchSize := settings.embedding.batchSize }
  out

/-- Opens the store of valid settings; also the files after that. -/
def start (out : Surroundings) (t : FileTree) (settings : Settings) :
    Except SetupError (FileTree × Session) :=
  match settings.fault? with
  | some f => .error (.settings f)
  | none =>
    match t.openStore settings.databasePath settings.embedding.dimensions with
    | .error e => .error (.database settings.databasePath e)
    | .ok (t, store) =>
      .ok (t, ofParts settings store (settings.embedding.makeProvider out.send) out)

/-- Files with the session's store in its place. -/
def close (x : Session) (t : FileTree) : FileTree :=
  t.keepStore x.settings.databasePath x.store

def indexer (x : Session) : Except SetupError Indexer :=
  let indexing := x.settings.indexing
  match Selection.make x.out.globs indexing.extensions indexing.ignorePatterns with
  | .error e => .error (.ignorePatterns e)
  | .ok selection =>
    .ok
      { client := x.client
        parse := x.out.parse
        limits := x.settings.chunking
        selection
        ignored := x.out.ignored
        deaths := x.out.deaths
        batchSize := indexing.batchSize
        maxConcurrency := indexing.maxConcurrency }

def search? (x : Session) (query : String) (o : SearchOptions Float) :
    Option (Except SearchError (List (SearchResult Float))) :=
  Search.run? x.store x.client query o

end Session

end CodeSearch
