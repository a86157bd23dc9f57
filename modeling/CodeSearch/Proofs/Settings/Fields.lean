import CodeSearch.Proofs.Json.Pruning
import CodeSearch.Settings
import Mathlib.Data.List.Infix

/-!
# Fields of settings

Settings are their nineteen fields. Each has keys that lead to it in a file, a default, and for some
of them there is a variable of the environment. Read without some of its keys, a file gives the
default to the fields whose keys are gone and to all others what it says.
-/

set_option autoImplicit false

namespace CodeSearch.Settings

inductive Field where
  | databasePath
  | provider
  | baseUrl
  | model
  | apiKey
  | dimensions
  | embeddingBatch
  | timeoutSeconds
  | maxSize
  | minInk
  | indexingBatch
  | maxConcurrency
  | extensions
  | ignorePatterns
  | limit
  | threshold
  | minSimilarity
  | diversityFactor
  | contextLines
deriving DecidableEq, Repr

namespace Field

def Value : Field → Type
  | databasePath | baseUrl | model => String
  | provider => ProviderKind
  | apiKey => Option String
  | dimensions | embeddingBatch | timeoutSeconds | maxSize | minInk | indexingBatch |
    maxConcurrency | limit | contextLines => Nat
  | extensions | ignorePatterns => List String
  | threshold | minSimilarity | diversityFactor => Float

def value (s : Settings) : (f : Field) → f.Value
  | databasePath => s.databasePath
  | provider => s.embedding.provider
  | baseUrl => s.embedding.baseUrl
  | model => s.embedding.model
  | apiKey => s.embedding.apiKey
  | dimensions => s.embedding.dimensions
  | embeddingBatch => s.embedding.batchSize
  | timeoutSeconds => s.embedding.timeoutSeconds
  | maxSize => s.chunking.maxSize
  | minInk => s.chunking.minInk
  | indexingBatch => s.indexing.batchSize
  | maxConcurrency => s.indexing.maxConcurrency
  | extensions => s.indexing.extensions
  | ignorePatterns => s.indexing.ignorePatterns
  | limit => s.search.limit
  | threshold => s.search.threshold
  | minSimilarity => s.search.minSimilarity
  | diversityFactor => s.search.diversityFactor
  | contextLines => s.search.contextLines

/-- The keys that lead to a field, that of its section first. -/
def keys : Field → List String
  | databasePath => ["db_path"]
  | provider => ["embedding", "provider"]
  | baseUrl => ["embedding", "base_url"]
  | model => ["embedding", "model"]
  | apiKey => ["embedding", "api_key"]
  | dimensions => ["embedding", "dimensions"]
  | embeddingBatch => ["embedding", "batch_size"]
  | timeoutSeconds => ["embedding", "timeout_secs"]
  | maxSize => ["chunking", "max_chunk_size"]
  | minInk => ["chunking", "coalesce_threshold"]
  | indexingBatch => ["indexing", "batch_size"]
  | maxConcurrency => ["indexing", "max_concurrency"]
  | extensions => ["indexing", "supported_extensions"]
  | ignorePatterns => ["indexing", "ignore_patterns"]
  | limit => ["search", "limit"]
  | threshold => ["search", "similarity_threshold"]
  | minSimilarity => ["search", "min_similarity"]
  | diversityFactor => ["search", "diversity_factor"]
  | contextLines => ["search", "context_lines"]

/-- The variable of the environment that stands for a field, if there is one. -/
def environmentName? : Field → Option String
  | databasePath => some "SEMDEX_DB_PATH"
  | baseUrl => some "LLM_BASE_URL"
  | model => some "EMBEDDING_MODEL"
  | apiKey => some "LLM_API_KEY"
  | limit => some "SEARCH_RESULTS_LIMIT"
  | threshold => some "SIMILARITY_THRESHOLD"
  | _ => none

/-- What the text of a variable says for a field. -/
def parse? (text : String) : (f : Field) → Option f.Value
  | databasePath | baseUrl | model => some text
  | apiKey => some (some text)
  | limit => Decimal.word? (Text.trim text.toList)
  | threshold => Decimal.float? (Text.trim text.toList)
  | _ => none

/-- What the environment says for a field, if its variable is set, not blank, and can be read. -/
def fromEnvironment? (env : Environment) (f : Field) : Option f.Value :=
  (f.environmentName?.bind env).bind fun text =>
    if Text.isBlank text.toList then none else parse? text f

/-- Whether a key is gone that leads to the field, its own or that of its section. -/
def isGone (gone : List String → Bool) (f : Field) : Bool := f.keys.inits.tail.any gone

theorem isGone_eq (gone : List String → Bool) {f : Field} {outer key : String}
    (h : f.keys = [outer, key]) : f.isGone gone = (gone [outer] || gone [outer, key]) := by
  simp [isGone, h]

theorem isGone_nothing (f : Field) : f.isGone (fun _ => false) = false := by
  simp [isGone]

end Field

theorem eq_of_values {s s' : Settings} (h : ∀ f : Field, f.value s = f.value s') : s = s' := by
  rcases s with ⟨_, ⟨_, _, _, _, _, _, _⟩, ⟨_, _⟩, ⟨_, _, _, _⟩, ⟨_, _, _, _, _⟩⟩
  rcases s' with ⟨_, ⟨_, _, _, _, _, _, _⟩, ⟨_, _⟩, ⟨_, _, _, _⟩, ⟨_, _, _, _, _⟩⟩
  rw [mk.injEq, EmbeddingSettings.mk.injEq, ChunkLimits.mk.injEq, IndexingSettings.mk.injEq,
    SearchSettings.mk.injEq]
  exact ⟨h .databasePath, ⟨h .provider, h .baseUrl, h .model, h .apiKey, h .dimensions,
    h .embeddingBatch, h .timeoutSeconds⟩, ⟨h .maxSize, h .minInk⟩, ⟨h .indexingBatch,
    h .maxConcurrency, h .extensions, h .ignorePatterns⟩, ⟨h .limit, h .threshold,
    h .minSimilarity, h .diversityFactor, h .contextLines⟩⟩

section Environment
variable (env : Environment)

theorem bind_setting? {α : Type} (name : String) (read? : String → Option α) :
    (setting? env name).bind read? =
      (env name).bind fun text => if Text.isBlank text.toList then none else read? text := by
  rw [setting?]
  cases env name with
  | none => rfl
  | some text => cases hblank : Text.isBlank text.toList <;> simp [Option.filter, hblank]

theorem setting?_eq (name : String) :
    setting? env name =
      (env name).bind fun text => if Text.isBlank text.toList then none else some text := by
  rw [← bind_setting?, Option.bind_fun_some]

/-- The environment puts a value in the place of one field at a time. -/
theorem value_applyEnvironment (s : Settings) (f : Field) :
    f.value (s.applyEnvironment env) = (f.fromEnvironment? env).getD (f.value s) := by
  cases f with
  | databasePath => exact congrArg (Option.getD · s.databasePath) (setting?_eq env _)
  | baseUrl => exact congrArg (Option.getD · s.embedding.baseUrl) (setting?_eq env _)
  | model => exact congrArg (Option.getD · s.embedding.model) (setting?_eq env _)
  | apiKey =>
    have hkey := bind_setting? env "LLM_API_KEY" fun text => some (some text)
    refine Eq.trans ?_ (congrArg (Option.getD · s.embedding.apiKey) hkey)
    rw [Field.value, applyEnvironment]
    cases setting? env "LLM_API_KEY" <;> rfl
  | limit => exact congrArg (Option.getD · s.search.limit) (bind_setting? env _ _)
  | threshold => exact congrArg (Option.getD · s.search.threshold) (bind_setting? env _ _)
  | _ => rfl

theorem fromEnvironment?_of_unset {f : Field}
    (h : ∀ name, f.environmentName? = some name → env name = none) :
    f.fromEnvironment? env = none := by
  rw [Field.fromEnvironment?]
  cases hname : f.environmentName? with
  | none => rfl
  | some name => rw [Option.bind_some, h name hname, Option.bind_none]

end Environment

/-! ## Files without some keys -/

section Readers

theorem orDefault_unless {α : Type} {read? : Json → Option α} {j : Json} {v : α}
    (h : read? j = some v) (d : α) (missing : Bool) :
    Json.orDefault d read? (if missing then none else some j) =
      some (if missing then d else v) := by
  cases missing
  · exact h
  · rfl

theorem nat?_prune_ofNat (gone : List String → Bool) (n : Nat) :
    Json.nat? ((Json.ofNat n).prune gone) = some n := by
  simp [Json.ofNat, Json.prune, Json.nat?]

theorem string?_prune_string (gone : List String → Bool) (s : String) :
    Json.string? ((Json.string s).prune gone) = some s := rfl

theorem float?_prune_real (gone : List String → Bool) (x : Float) :
    Json.float? ((Json.real x).prune gone) = some x := rfl

theorem list?_prune_ofStrings (gone : List String → Bool) (items : List String) :
    Json.list? Json.string? ((Json.ofStrings items).prune gone) = some items := by
  change (items.map Json.string).mapM Json.string? = some items
  induction items with
  | nil => rfl
  | cons item items ih => simp [ih, Json.string?]

theorem provider?_prune_providerName (gone : List String → Bool) (p : ProviderKind) :
    provider? ((Json.string (providerName p)).prune gone) = some p := by
  cases p <;> rfl

theorem optionalText?_prune_string (gone : List String → Bool) (s : String) :
    optionalText? ((Json.string s).prune gone) = some (some s) := rfl

end Readers

section Sections
variable (gone : List String → Bool)

/-- Settings of a section with the default in each field whose key is gone. -/
def embeddingWithout (e : EmbeddingSettings) : EmbeddingSettings :=
  let d : EmbeddingSettings := {}
  { provider := if gone ["provider"] then d.provider else e.provider
    baseUrl := if gone ["base_url"] then d.baseUrl else e.baseUrl
    model := if gone ["model"] then d.model else e.model
    apiKey := if gone ["api_key"] then d.apiKey else e.apiKey
    dimensions := if gone ["dimensions"] then d.dimensions else e.dimensions
    batchSize := if gone ["batch_size"] then d.batchSize else e.batchSize
    timeoutSeconds := if gone ["timeout_secs"] then d.timeoutSeconds else e.timeoutSeconds }

def chunkingWithout (c : ChunkLimits) : ChunkLimits :=
  let d : ChunkLimits := {}
  { maxSize := if gone ["max_chunk_size"] then d.maxSize else c.maxSize
    minInk := if gone ["coalesce_threshold"] then d.minInk else c.minInk }

def indexingWithout (i : IndexingSettings) : IndexingSettings :=
  let d : IndexingSettings := {}
  { batchSize := if gone ["batch_size"] then d.batchSize else i.batchSize
    maxConcurrency := if gone ["max_concurrency"] then d.maxConcurrency else i.maxConcurrency
    extensions := if gone ["supported_extensions"] then d.extensions else i.extensions
    ignorePatterns := if gone ["ignore_patterns"] then d.ignorePatterns else i.ignorePatterns }

def searchWithout (s : SearchSettings) : SearchSettings :=
  let d : SearchSettings := {}
  { limit := if gone ["limit"] then d.limit else s.limit
    threshold := if gone ["similarity_threshold"] then d.threshold else s.threshold
    minSimilarity := if gone ["min_similarity"] then d.minSimilarity else s.minSimilarity
    diversityFactor := if gone ["diversity_factor"] then d.diversityFactor else s.diversityFactor
    contextLines := if gone ["context_lines"] then d.contextLines else s.contextLines }

/-- Settings with the default in each field whose key or section is gone. -/
def without (s : Settings) : Settings :=
  let d : Settings := {}
  let within (name : String) (below : List String) : Bool := gone (name :: below)
  { databasePath := if gone ["db_path"] then d.databasePath else s.databasePath
    embedding := if gone ["embedding"] then d.embedding
      else embeddingWithout (within "embedding") s.embedding
    chunking := if gone ["chunking"] then d.chunking
      else chunkingWithout (within "chunking") s.chunking
    indexing := if gone ["indexing"] then d.indexing
      else indexingWithout (within "indexing") s.indexing
    search := if gone ["search"] then d.search else searchWithout (within "search") s.search }

theorem value_without (s : Settings) (f : Field) :
    f.value (s.without gone) = if f.isGone gone then f.value {} else f.value s := by
  cases f with
  | databasePath =>
    have hgone : Field.databasePath.isGone gone = gone ["db_path"] := by
      simp [Field.isGone, Field.keys]
    rw [hgone]
    rfl
  | provider | baseUrl | model | apiKey | dimensions | embeddingBatch | timeoutSeconds =>
    rw [Field.isGone_eq gone rfl, Field.value, without]
    cases gone ["embedding"] <;> rfl
  | maxSize | minInk =>
    rw [Field.isGone_eq gone rfl, Field.value, without]
    cases gone ["chunking"] <;> rfl
  | indexingBatch | maxConcurrency | extensions | ignorePatterns =>
    rw [Field.isGone_eq gone rfl, Field.value, without]
    cases gone ["indexing"] <;> rfl
  | limit | threshold | minSimilarity | diversityFactor | contextLines =>
    rw [Field.isGone_eq gone rfl, Field.value, without]
    cases gone ["search"] <;> rfl

theorem embedding?_prune (e : EmbeddingSettings) :
    embedding? ((embeddingJson e).prune gone) = some (embeddingWithout gone e) := by
  rcases e with ⟨provider, baseUrl, model, apiKey, dimensions, batchSize, timeout⟩
  -- Without a value the key is not written, which reads as the default.
  have hmissing : Json.orDefault none optionalText? none = some none := rfl
  cases apiKey <;>
    simp [embedding?, embeddingJson, embeddingWithout, Json.record?_prune, Json.field?, hmissing,
      orDefault_unless (nat?_prune_ofNat _ _), orDefault_unless (string?_prune_string _ _),
      orDefault_unless (provider?_prune_providerName _ _),
      orDefault_unless (optionalText?_prune_string _ _)]

theorem chunking?_prune (c : ChunkLimits) :
    chunking? ((chunkingJson c).prune gone) = some (chunkingWithout gone c) := by
  simp [chunking?, chunkingJson, chunkingWithout, Json.record?_prune, Json.field?,
    orDefault_unless (nat?_prune_ofNat _ _)]

theorem indexing?_prune (i : IndexingSettings) :
    indexing? ((indexingJson i).prune gone) = some (indexingWithout gone i) := by
  simp [indexing?, indexingJson, indexingWithout, Json.record?_prune, Json.field?,
    orDefault_unless (nat?_prune_ofNat _ _), orDefault_unless (list?_prune_ofStrings _ _)]

theorem search?_prune (s : SearchSettings) :
    search? ((searchJson s).prune gone) = some (searchWithout gone s) := by
  simp [search?, searchJson, searchWithout, Json.record?_prune, Json.field?,
    orDefault_unless (nat?_prune_ofNat _ _), orDefault_unless (float?_prune_real _ _)]

theorem ofJson?_prune (s : Settings) : ofJson? (s.toJson.prune gone) = some (s.without gone) := by
  simp [ofJson?, toJson, without, Json.record?_prune, Json.field?,
    orDefault_unless (string?_prune_string _ _), orDefault_unless (embedding?_prune _ _),
    orDefault_unless (chunking?_prune _ _), orDefault_unless (indexing?_prune _ _),
    orDefault_unless (search?_prune _ _)]

end Sections

end CodeSearch.Settings
