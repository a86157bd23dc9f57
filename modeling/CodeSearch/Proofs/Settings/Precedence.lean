import CodeSearch.Proofs.Files.Writing
import CodeSearch.Proofs.Settings.Fields

/-!
# Which setting counts

A field has the value of its variable in the environment, else that of its key in the file, else its
default. Each field is settled for itself, whatever becomes of the others.
-/

set_option autoImplicit false

namespace CodeSearch.Settings

theorem ofText_of_parse? {gone : List String → Bool} {c : Settings} {text : String}
    (h : Json.parse? text = some (c.toJson.prune gone)) : ofText text = c.without gone := by
  rw [ofText, h, Option.bind_some, ofJson?_prune, Option.getD_some]

theorem load_of_readText {t : FileTree} {path text : String} (env : Environment)
    (h : t.readText (if path = "" then defaultPath else path) = .ok text) :
    load t env path = .ok ((ofText text).applyEnvironment env) := by
  rw [load, stored]
  simp only [FileTree.pathExists_of_readText h, h]
  rfl

theorem readText_of_save {t t' : FileTree} {path : String} {c : Settings}
    (h : c.save t path = .ok t') : path ≠ "" ∧ t'.readText path = .ok c.toJson.pretty := by
  unfold save at h
  split at h
  · cases h
  · rename_i hwrite
    cases h
    exact ⟨FileTree.ne_empty_of_write hwrite, FileTree.readText_write hwrite⟩

/-- Without the keys that are gone, each field is settled for itself. -/
theorem exists_load {c : Settings} {gone : List String → Bool} {t : FileTree} {path text : String}
    (env : Environment) (htext : t.readText (if path = "" then defaultPath else path) = .ok text)
    (hparse : Json.parse? text = some (c.toJson.prune gone)) :
    ∃ s, load t env path = .ok s ∧ ∀ f : Field, f.value s =
      (f.fromEnvironment? env).getD (if f.isGone gone then f.value {} else f.value c) := by
  refine ⟨(c.without gone).applyEnvironment env, ?_, ?_⟩
  · rw [load_of_readText env htext, ofText_of_parse? hparse]
  · intro f
    rw [value_applyEnvironment, value_without]

/-- Settings whose text reads as what it was printed from, without some of their keys: loading them
gives each field the value of its variable, else that of its key if the key is still there, else
the default. Saved whole and loaded where no variable is set, they come back. A double that is not
finite is printed as null, so settings with one do not read back. -/
theorem load_by_field (c : Settings) (hround : Json.parse? c.toJson.pretty = some c.toJson) :
    (∀ gone : List String → Bool,
      Json.parse? (c.toJson.prune gone).pretty = some (c.toJson.prune gone) ∧
      ∀ (t : FileTree) (env : Environment) (path text : String),
        t.readText (if path = "" then defaultPath else path) = .ok text →
        Json.parse? text = some (c.toJson.prune gone) →
        ∃ s, load t env path = .ok s ∧ ∀ f : Field, f.value s =
          (f.fromEnvironment? env).getD (if f.isGone gone then f.value {} else f.value c)) ∧
    ∀ (t t' : FileTree) (env : Environment) (path : String), c.save t path = .ok t' →
      (∀ (f : Field) (name : String), f.environmentName? = some name → env name = none) →
      load t' env path = .ok c := by
  refine ⟨fun gone => ⟨Json.parse?_pretty_prune hround, ?_⟩, ?_⟩
  · intro t env path text htext hparse
    exact exists_load env htext hparse
  · intro t t' env path hsave hunset
    obtain ⟨hpath, htext⟩ := readText_of_save hsave
    have hread : t'.readText (if path = "" then defaultPath else path) = .ok c.toJson.pretty := by
      rw [if_neg hpath, htext]
    have hwhole : Json.parse? c.toJson.pretty = some (c.toJson.prune fun _ => false) := by
      rw [Json.prune_nothing, hround]
    obtain ⟨s, hload, hvalues⟩ := exists_load env hread hwhole
    have hsame : s = c := by
      apply eq_of_values
      intro f
      have hf := hvalues f
      rwa [fromEnvironment?_of_unset env (hunset f), Field.isGone_nothing] at hf
    rw [hload, hsame]

/-- A key from the shell, a limit from the shell, a threshold that is no number, a blank model. -/
theorem load_by_field_partly :
    let c : Settings :=
      { embedding := { provider := .hashing, apiKey := some "file", dimensions := 64 }
        search := { limit := 4, threshold := 0.25 } }
    let gone : List String → Bool := fun keys =>
      keys == ["chunking"] || keys == ["embedding", "dimensions"]
    let env : Environment := fun name =>
      if name = "LLM_API_KEY" then some "shell"
      else if name = "SEARCH_RESULTS_LIMIT" then some " 7 "
      else if name = "SIMILARITY_THRESHOLD" then some "high"
      else if name = "EMBEDDING_MODEL" then some "  " else none
    let saved : Json → FileTree := fun j =>
      ⟨.directory [("a.json", .file (.bytes (Text.utf8 j.pretty.toList)))], []⟩
    Json.parse? c.toJson.pretty = some c.toJson ∧
    (∃ s, load (saved (c.toJson.prune gone)) env "a.json" = .ok s ∧
      s.embedding.provider = .hashing ∧ s.embedding.apiKey = some "shell" ∧
      s.embedding.dimensions = 1536 ∧ s.embedding.model = "text-embedding-3-small" ∧
      s.search.limit = 7 ∧ s.search.threshold = 0.25) ∧
    c.save ⟨.directory [], []⟩ "a.json" = .ok (saved c.toJson) ∧
    load (saved c.toJson) (fun _ => none) "a.json" = .ok c := by
  intro c gone env saved
  have hround : Json.parse? c.toJson.pretty = some c.toJson := by
    rw [Json.parse?_pretty]
    dsimp only [c]
    rfl
  have hwrite : ∀ j : Json, FileTree.write ⟨.directory [], []⟩ "a.json"
      (.bytes (Text.utf8 j.pretty.toList)) = .ok (saved j) := by
    intro j
    have hpieces : FileTree.pathPieces "a.json" = ["a.json"] := by decide
    have hlength : ¬255 < "a.json".utf8ByteSize := by decide
    rw [FileTree.write, FileTree.locate_eq_follow (by decide) (by decide), hpieces]
    simp [FileTree.follow, FileNode.at?, FileNode.child?, FileNode.put, FileNode.entries,
      FileNode.setEntry, hlength, saved]
  have hsave : c.save ⟨.directory [], []⟩ "a.json" = .ok (saved c.toJson) := by
    rw [save, hwrite]
  obtain ⟨hpruned, hwhole⟩ := load_by_field c hround
  obtain ⟨hparse, hload⟩ := hpruned gone
  obtain ⟨s, hs, hvalues⟩ := hload _ env "a.json" _ (FileTree.readText_write (hwrite _)) hparse
  exact ⟨hround, ⟨s, hs, hvalues .provider, hvalues .apiKey, hvalues .dimensions, hvalues .model,
    hvalues .limit, hvalues .threshold⟩, hsave, hwhole _ _ _ _ hsave fun _ _ _ => rfl⟩

end CodeSearch.Settings
