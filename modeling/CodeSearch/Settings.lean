import CodeSearch.Decimal.Reader
import CodeSearch.Discovery.Selection
import CodeSearch.Files.Tree
import CodeSearch.Json.Reader
import CodeSearch.Json.Record
import CodeSearch.Search
import CodeSearch.Text.WhiteSpace

/-!
Settings: what a configuration file says, what stands for a key that it leaves out, what the
environment puts in its place, and which settings are valid.
-/

set_option autoImplicit false

namespace CodeSearch

inductive ProviderKind where
  | remote
  | hashing
deriving DecidableEq, Repr

structure EmbeddingSettings where
  provider : ProviderKind := .remote
  baseUrl : String := "https://api.openai.com/v1"
  model : String := "text-embedding-3-small"
  apiKey : Option String := none
  dimensions : Nat := 1536
  batchSize : Nat := 10
  timeoutSeconds : Nat := 60
deriving DecidableEq, Repr

structure IndexingSettings where
  batchSize : Nat := 10
  maxConcurrency : Nat := 5
  extensions : List String := Selection.defaultExtensions
  ignorePatterns : List String := Selection.defaultPatterns
deriving DecidableEq, Repr

structure SearchSettings where
  limit : Nat := 10
  threshold : Float := 0.5
  minSimilarity : Float := 0.2
  diversityFactor : Float := 0.8
  contextLines : Nat := 3

structure Settings where
  databasePath : String := "./semdex.db"
  embedding : EmbeddingSettings := {}
  chunking : ChunkLimits := {}
  indexing : IndexingSettings := {}
  search : SearchSettings := {}

namespace Settings

/-- Where settings are looked for if no path is given. -/
def defaultPath : String := "semdex.json"

/-! ## As JSON -/

def providerName : ProviderKind → String
  | .remote => "openai"
  | .hashing => "mock"

def providerOfName? (name : String) : Option ProviderKind :=
  if name = "openai" then some .remote else if name = "mock" then some .hashing else none

/-- A provider is its name, or an object with null under its name alone. -/
def provider? : Json → Option ProviderKind
  | .string name => providerOfName? name
  | .object [(name, .null)] => providerOfName? name
  | _ => none

def optionalText? : Json → Option (Option String)
  | .null => some none
  | .string text => some (some text)
  | _ => none

def embedding? (j : Json) : Option EmbeddingSettings := do
  let d : EmbeddingSettings := {}
  match ← j.record? ["provider", "base_url", "model", "api_key", "dimensions", "batch_size",
      "timeout_secs"] with
  | [provider, baseUrl, model, apiKey, dimensions, batchSize, timeout] =>
    return {
      provider := ← Json.orDefault d.provider provider? provider
      baseUrl := ← Json.orDefault d.baseUrl Json.string? baseUrl
      model := ← Json.orDefault d.model Json.string? model
      apiKey := ← Json.orDefault d.apiKey optionalText? apiKey
      dimensions := ← Json.orDefault d.dimensions Json.nat? dimensions
      batchSize := ← Json.orDefault d.batchSize Json.nat? batchSize
      timeoutSeconds := ← Json.orDefault d.timeoutSeconds Json.nat? timeout }
  | _ => none

def chunking? (j : Json) : Option ChunkLimits := do
  let d : ChunkLimits := {}
  match ← j.record? ["max_chunk_size", "coalesce_threshold"] with
  | [maxSize, minInk] =>
    return {
      maxSize := ← Json.orDefault d.maxSize Json.nat? maxSize
      minInk := ← Json.orDefault d.minInk Json.nat? minInk }
  | _ => none

def indexing? (j : Json) : Option IndexingSettings := do
  let d : IndexingSettings := {}
  match ← j.record? ["batch_size", "max_concurrency", "supported_extensions",
      "ignore_patterns"] with
  | [batchSize, maxConcurrency, extensions, ignorePatterns] =>
    return {
      batchSize := ← Json.orDefault d.batchSize Json.nat? batchSize
      maxConcurrency := ← Json.orDefault d.maxConcurrency Json.nat? maxConcurrency
      extensions := ← Json.orDefault d.extensions (Json.list? Json.string?) extensions
      ignorePatterns :=
        ← Json.orDefault d.ignorePatterns (Json.list? Json.string?) ignorePatterns }
  | _ => none

def search? (j : Json) : Option SearchSettings := do
  let d : SearchSettings := {}
  match ← j.record? ["limit", "similarity_threshold", "min_similarity", "diversity_factor",
      "context_lines"] with
  | [limit, threshold, minSimilarity, diversityFactor, contextLines] =>
    return {
      limit := ← Json.orDefault d.limit Json.nat? limit
      threshold := ← Json.orDefault d.threshold Json.float? threshold
      minSimilarity := ← Json.orDefault d.minSimilarity Json.float? minSimilarity
      diversityFactor := ← Json.orDefault d.diversityFactor Json.float? diversityFactor
      contextLines := ← Json.orDefault d.contextLines Json.nat? contextLines }
  | _ => none

/-- The settings that a value describes; what is missing has its default. -/
def ofJson? (j : Json) : Option Settings := do
  let d : Settings := {}
  match ← j.record? ["db_path", "embedding", "chunking", "indexing", "search"] with
  | [databasePath, embedding, chunking, indexing, search] =>
    return {
      databasePath := ← Json.orDefault d.databasePath Json.string? databasePath
      embedding := ← Json.orDefault d.embedding embedding? embedding
      chunking := ← Json.orDefault d.chunking chunking? chunking
      indexing := ← Json.orDefault d.indexing indexing? indexing
      search := ← Json.orDefault d.search search? search }
  | _ => none

def embeddingJson (e : EmbeddingSettings) : Json :=
  .object ([("provider", .string (providerName e.provider)), ("base_url", .string e.baseUrl),
      ("model", .string e.model)] ++
    (e.apiKey.toList.map fun key => ("api_key", .string key)) ++
    [("dimensions", .ofNat e.dimensions), ("batch_size", .ofNat e.batchSize),
      ("timeout_secs", .ofNat e.timeoutSeconds)])

def chunkingJson (c : ChunkLimits) : Json :=
  .object [("max_chunk_size", .ofNat c.maxSize), ("coalesce_threshold", .ofNat c.minInk)]

def indexingJson (i : IndexingSettings) : Json :=
  .object [("batch_size", .ofNat i.batchSize), ("max_concurrency", .ofNat i.maxConcurrency),
    ("supported_extensions", .ofStrings i.extensions),
    ("ignore_patterns", .ofStrings i.ignorePatterns)]

def searchJson (s : SearchSettings) : Json :=
  .object [("limit", .ofNat s.limit), ("similarity_threshold", .real s.threshold),
    ("min_similarity", .real s.minSimilarity), ("diversity_factor", .real s.diversityFactor),
    ("context_lines", .ofNat s.contextLines)]

def toJson (s : Settings) : Json :=
  .object [("db_path", .string s.databasePath), ("embedding", embeddingJson s.embedding),
    ("chunking", chunkingJson s.chunking), ("indexing", indexingJson s.indexing),
    ("search", searchJson s.search)]

/-! ## The environment -/

abbrev Environment := String → Option String

def variableNames : List String :=
  ["LLM_API_KEY", "LLM_BASE_URL", "EMBEDDING_MODEL", "SEMDEX_DB_PATH", "SEARCH_RESULTS_LIMIT",
    "SIMILARITY_THRESHOLD"]

/-- A variable's value unless it is blank. -/
def setting? (env : Environment) (name : String) : Option String :=
  (env name).filter fun value => !Text.isBlank value.toList

/-- A variable's value as a number, white space around it allowed; none if it is no number. -/
def number? {α : Type} (env : Environment) (name : String) (read? : List Char → Option α) :
    Option α :=
  (setting? env name).bind fun value => read? (Text.trim value.toList)

/-- Variables of the environment put in the place of what the file says. -/
def applyEnvironment (env : Environment) (s : Settings) : Settings :=
  { s with
    databasePath := (setting? env "SEMDEX_DB_PATH").getD s.databasePath
    embedding := { s.embedding with
      apiKey := (setting? env "LLM_API_KEY").orElse fun _ => s.embedding.apiKey
      baseUrl := (setting? env "LLM_BASE_URL").getD s.embedding.baseUrl
      model := (setting? env "EMBEDDING_MODEL").getD s.embedding.model }
    search := { s.search with
      limit := (number? env "SEARCH_RESULTS_LIMIT" Decimal.word?).getD s.search.limit
      threshold := (number? env "SIMILARITY_THRESHOLD" Decimal.float?).getD s.search.threshold } }

/-! ## Files -/

inductive FileFault where
  | cannotRead (path : String) (cause : FileError)
  | cannotWrite (path : String) (cause : FileError)
deriving DecidableEq, Repr

/-- The message and that of its cause. -/
def FileFault.chain : FileFault → List String
  | cannotRead path cause => ["failed to read config: " ++ path, cause.message]
  | cannotWrite path cause => ["failed to write config: " ++ path, cause.message]

/-- What a file's text describes; the defaults if it is no proper JSON. -/
def ofText (text : String) : Settings := ((Json.parse? text).bind ofJson?).getD {}

/-- The settings in a file, or the defaults if there is no such file. -/
def stored (t : FileTree) (path : String) : Except FileFault Settings :=
  let path := if path = "" then defaultPath else path
  if !t.pathExists path then .ok {}
  else match t.readText path with
    | .error e => .error (.cannotRead path e)
    | .ok text => .ok (ofText text)

def load (t : FileTree) (env : Environment) (path : String) : Except FileFault Settings :=
  match stored t path with
  | .error e => .error e
  | .ok s => .ok (s.applyEnvironment env)

def save (t : FileTree) (path : String) (s : Settings) : Except FileFault FileTree :=
  match t.write path (.bytes (Text.utf8 s.toJson.pretty.toList)) with
  | .error e => .error (.cannotWrite path e)
  | .ok t => .ok t

/-! ## Validity -/

inductive Fault where
  | noDimensions
  | noEmbeddingBatch
  | noChunkSize
  | noIndexingBatch
  | noConcurrency
  | noExtensions
  | noLimit
  | thresholdRange
  | minSimilarityRange
  | negativeDiversity
deriving DecidableEq, Repr

def Fault.message : Fault → String
  | noDimensions => "embedding.dimensions must be positive"
  | noEmbeddingBatch => "embedding.batch_size must be positive"
  | noChunkSize => "chunking.max_chunk_size must be positive"
  | noIndexingBatch => "indexing.batch_size must be positive"
  | noConcurrency => "indexing.max_concurrency must be positive"
  | noExtensions => "at least one supported extension must be specified"
  | noLimit => "search.limit must be positive"
  | thresholdRange => "search.similarity_threshold must be within [-1, 1]"
  | minSimilarityRange => "search.min_similarity must be within [-1, 1]"
  | negativeDiversity => "search.diversity_factor must not be negative"

def isSimilarity (x : Float) : Bool := -1.0 <= x && x <= 1.0

/-- Rules in the order in which they are checked, each with what breaks it. -/
def faults (s : Settings) : List (Fault × Bool) :=
  [(.noDimensions, s.embedding.dimensions == 0), (.noEmbeddingBatch, s.embedding.batchSize == 0),
    (.noChunkSize, s.chunking.maxSize == 0), (.noIndexingBatch, s.indexing.batchSize == 0),
    (.noConcurrency, s.indexing.maxConcurrency == 0),
    (.noExtensions, s.indexing.extensions.isEmpty), (.noLimit, s.search.limit == 0),
    (.thresholdRange, !isSimilarity s.search.threshold),
    (.minSimilarityRange, !isSimilarity s.search.minSimilarity),
    (.negativeDiversity, !(0.0 <= s.search.diversityFactor))]

/-- The first rule broken, if any is. -/
def fault? (s : Settings) : Option Fault := (s.faults.find? Prod.snd).map Prod.fst

/-- The search options that these settings are the defaults of. -/
def searchOptions (s : Settings) : SearchOptions Float where
  limit := s.search.limit
  threshold := s.search.threshold
  minSimilarity := s.search.minSimilarity
  diversityFactor := s.search.diversityFactor
  contextLines := s.search.contextLines

end Settings

end CodeSearch
