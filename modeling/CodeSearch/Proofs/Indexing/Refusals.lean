import CodeSearch.Indexing
import CodeSearch.Proofs.Store.Transactions

/-!
# Refusals

What is refused leaves the store as it was: an operation, at whichever of its rows it is refused, a
run of the indexer as a whole, and the removal of a project's chunks.
-/

set_option autoImplicit false

namespace CodeSearch

section Causes
variable {x : Indexer} {t : FileTree} {s : Store} {path : String}

/-- Why the files below a directory are not indexed at all. -/
inductive Indexer.Refused (x : Indexer) (t : FileTree) (s : Store) (path : String) :
    IndexError → Prop where
  | notFound {cause : DiscoveryError} (h : Discovery.resolveRoot t path = .error cause) :
      x.Refused t s path (.discovery cause)
  | died {root : List String} {reason : String}
      (hroot : Discovery.resolveRoot t path = .ok root)
      (h : x.deaths (.find root) = some reason) : x.Refused t s path (.worker reason)
  | notRegistered {root : List String} {cause : StoreError}
      (hroot : Discovery.resolveRoot t path = .ok root) (halive : x.deaths (.find root) = none)
      (h : s.Refused (.createProject (Path.withSlashes (Path.ofNames root))) cause) :
      x.Refused t s path (.store cause)

theorem Indexer.refused_of_plan {e : IndexError} (h : x.plan t s path = .error e) :
    x.Refused t s path e := by
  unfold plan at h
  split at h
  · rename_i cause hroot
    cases h
    exact .notFound hroot
  · rename_i root hroot
    split at h
    · rename_i reason hdied
      cases h
      exact .died hroot hdied
    · rename_i halive
      split at h
      · rename_i cause hcreate
        cases h
        exact .notRegistered hroot halive (Store.refused_createProject hcreate)
      · cases h

theorem Indexer.index_error {e : IndexError} (h : (x.index t s path).2 = .error e) :
    (x.index t s path).1 = s ∧ x.Refused t s path e := by
  cases hplan : x.plan t s path with
  | error e' =>
    simp only [index, hplan] at h ⊢
    cases h
    exact ⟨trivial, refused_of_plan hplan⟩
  | ok r =>
    simp only [index, hplan] at h
    cases h

theorem Store.clear_error {name : String} {e : IndexError} (h : (s.clear name).2 = .error e) :
    (s.clear name).1 = s ∧ s.project? name = none ∧ e = .projectNotFound name := by
  cases hproject : s.project? name with
  | none =>
    simp only [clear, hproject] at h ⊢
    cases h
    exact ⟨trivial, trivial, rfl⟩
  | some p =>
    simp only [clear, hproject] at h
    cases h

end Causes

/-- Every operation, carried out row by row with the rows taken back at a refusal, comes to what
`perform` says; and whatever is refused leaves the store as it was. -/
theorem Store.intact_of_refused {s : Store} (h : s.Reachable) :
    (∀ op, s.carryOut op = (s.perform op, s.refusal? op)) ∧
    (∀ op e, s.refusal? op = some e → s.perform op = s ∧ s.Refused op e) ∧
    (∀ (x : Indexer) t path e, (x.index t s path).2 = .error e →
      (x.index t s path).1 = s ∧ x.Refused t s path e) ∧
    ∀ name e, (s.clear name).2 = .error e →
      (s.clear name).1 = s ∧ s.project? name = none ∧ e = .projectNotFound name := by
  refine ⟨carryOut_eq h, ?_, ?_, ?_⟩
  · intro op e hrefusal
    exact (refused_of_refusal? hrefusal).symm
  · intro x t path e herror
    exact Indexer.index_error herror
  · intro name e herror
    exact clear_error herror

def oneBare : Store where
  dimensions := 1
  projects := [⟨1, "d", "/d", none⟩]
  chunks := [⟨1, 1, "fish", "/d/a.md", 1, 1, "text", "md", "h1", 4⟩]
  lastProjectId := 1
  lastChunkId := 1

theorem reachable_oneBare : oneBare.Reachable := by
  have hname : ProjectName.ofPath "/d" = "d" := by decide +kernel
  have h := ((Store.Reachable.opened 1).performed (.createProject "/d")).performed
    (.insertChunks 1 [⟨"fish", "/d/a.md", 1, 1, "text", "md", "h1", 4, none⟩])
  simp [Store.perform, Store.after, Store.createProject, Store.projectAt?, hname,
    Store.insertChunks, Store.insertChunksFrom, Store.hasHash, Store.hasProject, Store.row] at h
  exact h

/-- The first embedding is written when the second is refused, and is taken back. -/
theorem second_embedding_refused :
    (∃ copy, [(1, [0])].foldlM Store.writeEmbedding oneBare = .ok copy ∧
      copy.embeddings.map Embedding.chunkId = [1]) ∧
    oneBare.carryOut (.insertEmbeddings [1, 2] [[0], [0]]) = (oneBare, some .foreignKey) ∧
    (oneBare.clear "e").1 = oneBare := by
  have hrefusal : oneBare.refusal? (.insertEmbeddings [1, 2] [[0], [0]]) = some .foreignKey := by
    simp [Store.refusal?, failure?, Store.insertEmbeddings, Store.checkDimensions,
      Store.insertEmbeddingsFrom, Store.hasEmbedding, Store.hasChunk, oneBare]
    rfl
  have hunknown : (oneBare.clear "e").2 = .error (.projectNotFound "e") := by
    have hproject : oneBare.project? "e" = none := by decide +kernel
    simp only [Store.clear, hproject]
  obtain ⟨hcarryOut, hops, _, hclear⟩ := Store.intact_of_refused reachable_oneBare
  refine ⟨⟨{ oneBare with embeddings := [⟨1, [0]⟩] }, ?_, rfl⟩, ?_, (hclear "e" _ hunknown).1⟩
  · simp [Store.writeEmbedding, Store.hasEmbedding, Store.hasChunk, oneBare]
  · rw [hcarryOut, hrefusal, (hops _ _ hrefusal).1]

end CodeSearch
