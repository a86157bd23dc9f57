import CodeSearch.Proofs.Indexing.Orphans
import CodeSearch.Proofs.Store.Transactions

/-!
# Files that fail

A file is indexed with no other writer between its steps. When it fails after its chunks are stored,
all rows of the file without an embedding are removed: those that were stored just now, and those
that an interrupted run has left. Nothing else is touched, so the store is what it was before less
the leftovers of the file.
-/

set_option autoImplicit false

namespace CodeSearch

namespace Store
variable {s s' : Store}

/-- Whether a chunk is of the file and has no embedding. -/
def isBare (s : Store) (projectId : Int) (filePath : String) (c : StoredChunk) : Bool :=
  c.projectId == projectId && c.filePath == filePath && !s.hasEmbedding c.id

section Bare
variable {projectId : Int} {filePath : String}

theorem isBare_iff {c : StoredChunk} : s.isBare projectId filePath c = true ↔
    c.projectId = projectId ∧ c.filePath = filePath ∧ s.hasEmbedding c.id = false := by
  simp only [isBare, Bool.and_eq_true, beq_iff_eq, Bool.not_eq_true', and_assoc]

/-- Ids tell rows apart, so the ids of the bare rows are those of no other. -/
theorem Keyed.mem_ids_unembedded (h : s.Keyed) {c : StoredChunk} (hc : c ∈ s.chunks) :
    c.id ∈ (s.unembedded projectId filePath).map StoredChunk.id ↔
      s.isBare projectId filePath c = true := by
  rw [isBare_iff]
  constructor
  · intro hid
    obtain ⟨d, hd, heq⟩ := List.mem_map.mp hid
    obtain ⟨hmem, hbare⟩ := mem_unembedded.mp hd
    obtain rfl := (h.ownId hc).eq_of_id d hmem heq
    exact hbare
  · intro hbare
    exact List.mem_map_of_mem (mem_unembedded.mpr ⟨hc, hbare⟩)

/-- No embedding goes with them: what has one is not bare. -/
theorem Consistent.deleteChunks_unembedded (h : s.Consistent) :
    (s.deleteChunks ((s.unembedded projectId filePath).map StoredChunk.id)).1 =
      { s with chunks := s.chunks.filter fun c => !s.isBare projectId filePath c } := by
  have hchunks : s.chunks.filter (fun c =>
      !((s.unembedded projectId filePath).map StoredChunk.id).contains c.id) =
        s.chunks.filter fun c => !s.isBare projectId filePath c := by
    apply List.filter_congr
    intro c hc
    rw [Bool.eq_iff_iff, Bool.not_eq_true', Bool.not_eq_true', ← Bool.not_eq_true,
      ← Bool.not_eq_true, List.contains_iff_mem, h.keyed.mem_ids_unembedded hc]
  have hembeddings : s.embeddings.filter (fun e =>
      (s.chunks.filter fun c => !s.isBare projectId filePath c).any fun c => c.id == e.chunkId) =
        s.embeddings := by
    apply List.filter_eq_self.mpr
    intro e he
    obtain ⟨c, hc, hid⟩ := List.any_eq_true.mp (h.linked.owned e he)
    refine List.any_eq_true.mpr ⟨c, List.mem_filter.mpr ⟨hc, ?_⟩, hid⟩
    have hhas : s.hasEmbedding c.id = true :=
      List.any_eq_true.mpr ⟨e, he, beq_iff_eq.mpr (beq_iff_eq.mp hid).symm⟩
    simp only [isBare, hhas, Bool.not_true, Bool.and_false, Bool.not_false]
  rw [deleteChunks, Store.keepChunks, dropOrphans]
  simp only [hchunks, hembeddings]

end Bare

section Insertion
variable {projectId : Int} {filePath : String} {chunks : List Chunk} {rows : List StoredChunk}

/-- An id that is still to be given out belongs to no embedding. -/
theorem Consistent.hasEmbedding_of_lt (h : s.Consistent) {id : Int} (hid : s.lastChunkId < id) :
    s.hasEmbedding id = false := by
  apply eq_false_of_ne_true
  intro hhas
  obtain ⟨e, he, heq⟩ := List.any_eq_true.mp hhas
  obtain ⟨c, hc, hown⟩ := List.any_eq_true.mp (h.linked.owned e he)
  have hle := h.keyed.le_last c hc
  have : c.id = id := (beq_iff_eq.mp hown).trans (beq_iff_eq.mp heq)
  omega

theorem Consistent.isBare_inserted (h : s.Consistent) (hfile : ∀ c ∈ chunks, c.filePath = filePath)
    (hinsert : s.insertChunks projectId chunks = .ok (s', rows)) {r : StoredChunk} (hr : r ∈ rows) :
    s.isBare projectId filePath r = true := by
  have hid := ((insertChunks_ids hinsert).2 r hr).1
  have hbare := h.hasEmbedding_of_lt hid
  obtain ⟨id, c, hc, rfl⟩ := (insertChunks_ok hinsert).2 r hr
  exact isBare_iff.mpr ⟨rfl, hfile c hc, hbare⟩

/-- To insert chunks of a file and then to delete its bare rows is to delete those that were bare
before. -/
theorem Consistent.deleteChunks_inserted (h : s.Consistent)
    (hfile : ∀ c ∈ chunks, c.filePath = filePath)
    (hinsert : s.insertChunks projectId chunks = .ok (s', rows)) :
    (s'.deleteChunks ((s'.unembedded projectId filePath).map StoredChunk.id)).1 =
      { s with
        chunks := s.chunks.filter fun c => !s.isBare projectId filePath c
        lastChunkId := s'.lastChunkId } := by
  have hrows : rows.filter (fun c => !s.isBare projectId filePath c) = [] := by
    apply List.filter_eq_nil_iff.mpr
    intro r hr
    rw [h.isBare_inserted hfile hinsert hr]
    exact Bool.false_ne_true
  rw [(h.insertChunks hinsert).deleteChunks_unembedded]
  obtain ⟨rfl, _⟩ := insertChunks_ok hinsert
  change { s with
    chunks := (s.chunks ++ rows).filter fun c => !s.isBare projectId filePath c
    lastChunkId := _ } = _
  rw [List.filter_append, hrows, List.append_nil]

end Insertion

end Store

namespace FileTask
variable {embedder : Embedder} {s : Store} {e : IndexError}

/-- Why the chunks that a task has pending get no embeddings: the request for them failed, or it
came to a wrong number of vectors or to one of another width than the store's. -/
inductive Failure (embedder : Embedder) (width : Nat) (pending : List StoredChunk) :
    IndexError → Prop where
  | request {cause : EmbedError} (h : embedder pending = .error cause) :
      Failure embedder width pending (.embedding cause)
  | count {vectors : List Vec} (h : embedder pending = .ok vectors)
      (hcount : pending.length ≠ vectors.length) :
      Failure embedder width pending (.store (.embeddingCount pending.length vectors.length))
  | width {vectors : List Vec} {v : Vec} (h : embedder pending = .ok vectors) (hv : v ∈ vectors)
      (hwidth : v.length ≠ width) :
      Failure embedder width pending (.store (.dimension width v.length))

theorem finish_done (embedder : Embedder) (s : Store) (result : Except IndexError FileOutcome) :
    finish embedder s (.done result) = (s, result) := by
  rw [finish]
  rfl

theorem finish_step {t : FileTask} (h : t.result? = none) :
    finish embedder s t = finish embedder (step embedder s t).1 (step embedder s t).2 := by
  rw [finish]
  split
  · rename_i result hresult
    rw [h] at hresult
    cases hresult
  · rfl

theorem finish_failing (embedder : Embedder) (s : Store) (pending : List StoredChunk)
    (e : IndexError) : finish embedder s (.failing pending e) =
      ((s.deleteChunks (pending.map StoredChunk.id)).1, .error e) := by
  rw [finish_step rfl]
  exact finish_done ..

/-- Embeddings of chunks that are there are refused for their number or their width alone. -/
theorem failure_of_insertEmbeddings {pending : List StoredChunk} {vectors : List Vec}
    {cause : StoreError} (hanswer : embedder pending = .ok vectors)
    (hpresent : ∀ c ∈ pending, s.hasChunk c.id = true)
    (h : s.insertEmbeddings (pending.map StoredChunk.id) vectors = .error cause) :
    Failure embedder s.dimensions pending (.store cause) := by
  cases Store.refused_insertEmbeddings h with
  | wrongCount hcount =>
    rw [List.length_map] at hcount ⊢
    exact .count hanswer hcount
  | wrongWidth hv hwidth => exact .width hanswer hv hwidth
  | @unknownChunk _ _ done rest id v _ hsplit _ hnone =>
    have hmem : (id, v) ∈ done ++ (id, v) :: rest := List.mem_append_right _ List.mem_cons_self
    rw [← hsplit] at hmem
    obtain ⟨c, hc, hid⟩ := List.mem_map.mp (List.of_mem_zip hmem).1
    rw [← hid, hpresent c hc] at hnone
    cases hnone

/-- Once its chunks are stored a task that fails does so for one of the three causes, and removes
what it has pending. -/
theorem finish_stored_error {n : Nat} {pending : List StoredChunk}
    (hpresent : ∀ c ∈ pending, s.hasChunk c.id = true)
    (h : (finish embedder s (.stored n pending)).2 = .error e) :
    Failure embedder s.dimensions pending e ∧
      (finish embedder s (.stored n pending)).1 =
        (s.deleteChunks (pending.map StoredChunk.id)).1 := by
  rw [finish_step rfl] at h ⊢
  simp only [step, embed] at h ⊢
  cases hanswer : embedder pending with
  | error cause =>
    simp only [hanswer, finish_failing] at h ⊢
    cases h
    exact ⟨.request hanswer, trivial⟩
  | ok vectors =>
    simp only [hanswer] at h ⊢
    rw [finish_step rfl] at h ⊢
    simp only [step, keep] at h ⊢
    cases hkeep : s.insertEmbeddings (pending.map StoredChunk.id) vectors with
    | ok result =>
      simp only [hkeep, finish_done] at h
      cases h
    | error cause =>
      simp only [hkeep, finish_failing] at h ⊢
      cases h
      exact ⟨failure_of_insertEmbeddings hanswer hpresent hkeep, trivial⟩

end FileTask

/-- The store is what it was before, less the bare chunks of the file, and ids that were given out
in the meantime are not given out again. So nothing is left of the rows that were inserted, and each
chunk that had an embedding is still there with it. -/
structure RolledBack (s : Store) (rows : List StoredChunk) (projectId : Int) (filePath : String)
    (s' : Store) : Prop where
  store : s' = { s with
    chunks := s.chunks.filter fun c => !s.isBare projectId filePath c
    lastChunkId := s'.lastChunkId }
  last_le : s.lastChunkId ≤ s'.lastChunkId
  gone : ∀ r ∈ rows, s'.hasChunk r.id = false
  kept : ∀ c ∈ s.chunks, s.hasEmbedding c.id = true →
    c ∈ s'.chunks ∧ s'.hasEmbedding c.id = true

section RollBack
variable {s s' s₁ : Store} {projectId : Int} {chunks : List Chunk} {rows : List StoredChunk}
  {embedder : Embedder} {e : IndexError} {filePath : String}

theorem rolledBack_of_eq (h : s.Consistent)
    (hinsert : s.insertChunks projectId chunks = .ok (s₁, rows))
    (hstore : s' = { s with
      chunks := s.chunks.filter fun c => !s.isBare projectId filePath c
      lastChunkId := s₁.lastChunkId }) :
    RolledBack s rows projectId filePath s' := by
  subst hstore
  refine ⟨rfl, (Store.later_insertChunks hinsert).le_last, ?_, ?_⟩
  · intro r hr
    have hnew := ((Store.insertChunks_ids hinsert).2 r hr).1
    apply List.any_eq_false.mpr
    intro c hc
    have hold := h.keyed.le_last c (List.mem_filter.mp hc).1
    simp only [beq_iff_eq]
    omega
  · intro c hc hhas
    refine ⟨List.mem_filter.mpr ⟨hc, ?_⟩, hhas⟩
    simp only [Store.isBare, hhas, Bool.not_true, Bool.and_false, Bool.not_false]

/-- All steps of a task that ends in an error. -/
theorem FileTask.finish_cut_error (h : s.Consistent) (hfile : ∀ c ∈ chunks, c.filePath = filePath)
    (herror : (FileTask.finish embedder s (.cut projectId chunks)).2 = .error e) :
    (∀ cause, s.insertChunks projectId chunks = .error cause →
      e = .store cause ∧ (FileTask.finish embedder s (.cut projectId chunks)).1 = s) ∧
    ∀ s₁ rows, s.insertChunks projectId chunks = .ok (s₁, rows) →
      FileTask.Failure embedder s.dimensions (s₁.unembedded projectId filePath) e ∧
        RolledBack s rows projectId filePath
          (FileTask.finish embedder s (.cut projectId chunks)).1 := by
  rw [FileTask.finish_step rfl] at herror ⊢
  simp only [FileTask.step, FileTask.insert] at herror ⊢
  cases chunks with
  | nil =>
    simp only [FileTask.finish_done] at herror
    cases herror
  | cons first rest =>
    obtain rfl := hfile first List.mem_cons_self
    cases hinsert : s.insertChunks projectId (first :: rest) with
    | error cause =>
      simp only [hinsert, FileTask.finish_done] at herror ⊢
      cases herror
      exact ⟨fun cause' hcause => ⟨congrArg _ (Except.error.inj hcause), trivial⟩, by simp⟩
    | ok result =>
      obtain ⟨s₁, rows⟩ := result
      refine ⟨by simp, ?_⟩
      intro s₁' rows' heq
      obtain ⟨rfl, rfl⟩ := Prod.mk.inj (Except.ok.inj heq)
      simp only [hinsert] at herror ⊢
      cases hpending : s₁.unembedded projectId first.filePath with
      | nil =>
        simp only [hpending, FileTask.finish_done] at herror
        cases herror
      | cons c more =>
        simp only [hpending] at herror ⊢
        rw [← hpending] at herror ⊢
        have hpresent : ∀ d ∈ s₁.unembedded projectId first.filePath,
            s₁.hasChunk d.id = true := by
          intro d hd
          exact List.any_eq_true.mpr ⟨d, (Store.mem_unembedded.mp hd).1, beq_self_eq_true d.id⟩
        obtain ⟨hfailure, hstore⟩ := FileTask.finish_stored_error hpresent herror
        have hwidth : s₁.dimensions = s.dimensions := by
          rw [(Store.insertChunks_ok hinsert).1]
        rw [hwidth] at hfailure
        refine ⟨hfailure, rolledBack_of_eq h hinsert ?_⟩
        rw [hstore, h.deleteChunks_inserted hfile hinsert]

/-- A file that fails leaves the store as it was if its worker died or its chunks were refused. If
they were stored, the bare rows of the file are gone and the rest of the store is as it was. -/
theorem Indexer.indexFile_rolled_back (x : Indexer) (t : FileTree) (projectId : Int) {s : Store}
    {path : String} {e : IndexError} (h : s.Consistent)
    (herror : (x.indexFile t projectId s path).2 = .error e) :
    (∀ reason, x.cut t projectId path = .died reason →
      e = .worker reason ∧ (x.indexFile t projectId s path).1 = s) ∧
    ∀ chunks, x.cut t projectId path = .made chunks →
      (∀ cause, s.insertChunks projectId chunks = .error cause →
        e = .store cause ∧ (x.indexFile t projectId s path).1 = s) ∧
      ∀ s₁ rows, s.insertChunks projectId chunks = .ok (s₁, rows) →
        FileTask.Failure x.client.embedChunks s.dimensions
            (s₁.unembedded projectId (Path.withSlashes path)) e ∧
          RolledBack s rows projectId (Path.withSlashes path)
            (x.indexFile t projectId s path).1 := by
  have hfile : ∀ c ∈ (x.cut t projectId path).chunks, c.filePath = Path.withSlashes path :=
    fun _ hc => filePath_of_mem_cut hc
  unfold indexFile at herror ⊢
  cases hcut : x.cut t projectId path with
  | died reason =>
    rw [hcut, FileTask.start, FileTask.finish_done] at herror
    obtain rfl := Except.error.inj herror
    refine ⟨?_, fun chunks hmade => absurd hmade (by simp)⟩
    intro reason' heq
    obtain rfl := Cut.died.inj heq
    rw [FileTask.start, FileTask.finish_done]
    exact ⟨rfl, rfl⟩
  | made chunks =>
    rw [hcut] at herror hfile
    refine ⟨fun reason hdied => absurd hdied (by simp), ?_⟩
    intro chunks' heq
    obtain rfl := Cut.made.inj heq
    exact FileTask.finish_cut_error h hfile herror

end RollBack

section Leftovers

/-- An interrupted run has left a chunk of the note, and one of another file, without embeddings. -/
def leftovers : Store where
  dimensions := 1
  projects := [⟨1, "notes", "/notes", none⟩]
  chunks :=
    [⟨1, 1, "fin", "note", 1, 1, "text", "text", "h1", 3⟩,
      ⟨2, 1, "bird", "note", 2, 2, "text", "text", "h2", 4⟩,
      ⟨3, 1, "fern", "other", 1, 1, "text", "text", "h3", 4⟩]
  embeddings := [⟨2, [0]⟩]
  lastProjectId := 1
  lastChunkId := 3

theorem consistent_leftovers : leftovers.Consistent where
  keyed := ⟨by decide, by decide⟩
  unique := List.nodup_singleton _
  linked :=
    { owned := List.forall_mem_singleton.mpr rfl
      housed := by decide
      numbered := by decide }

/-- An indexer whose provider answers with vectors of two components. -/
def wideIndexer : Indexer :=
  { Pool.noteIndexer with
    client :=
      { provider :=
          { dimensions := 2
            answer := fun texts => .vectors (texts.map fun _ => [0, 0]) } } }

theorem cut_wide : wideIndexer.cut Pool.noteTree 1 "note" = .made Pool.noteChunks := Pool.cut_note

def rewrittenNote : StoredChunk :=
  ⟨4, 1, "fish", "note", 1, 1, "text", "text", textHash "fish".toList, 4⟩

theorem insertChunks_leftovers : leftovers.insertChunks 1 Pool.noteChunks =
    .ok ({ leftovers with chunks := leftovers.chunks ++ [rewrittenNote], lastChunkId := 4 },
      [rewrittenNote]) := by
  have hnew : Store.hasHash { leftovers with lastChunkId := leftovers.lastChunkId + 1 }
      (textHash "fish".toList) = false := by decide +kernel
  simp only [Pool.noteChunks, Store.insertChunks, Store.insertChunksFrom, hnew]
  rfl

theorem unembedded_leftovers :
    Store.unembedded
        { leftovers with chunks := leftovers.chunks ++ [rewrittenNote], lastChunkId := 4 }
        1 "note" =
      [⟨1, 1, "fin", "note", 1, 1, "text", "text", "h1", 3⟩, rewrittenNote] := by
  have hle : Store.lineLe ⟨1, 1, "fin", "note", 1, 1, "text", "text", "h1", 3⟩ rewrittenNote =
      true := by decide
  have hsorted : List.Pairwise (fun a b => Store.lineLe a b = true)
      [⟨1, 1, "fin", "note", 1, 1, "text", "text", "h1", 3⟩, rewrittenNote] :=
    List.pairwise_pair.mpr hle
  exact List.mergeSort_of_pairwise hsorted

theorem embedChunks_wide : wideIndexer.client.embedChunks
    [⟨1, 1, "fin", "note", 1, 1, "text", "text", "h1", 3⟩, rewrittenNote] =
      .ok [[0, 0], [0, 0]] := by
  simp [EmbeddingClient.embedChunks, EmbeddingClient.embedTexts, EmbeddingClient.requests, groupsOf,
    wideIndexer, EmbeddingClient.combine, EmbeddingClient.hasCrash, EmbeddingClient.collect]

theorem indexFile_leftovers :
    (wideIndexer.indexFile Pool.noteTree 1 leftovers "note").2 =
      .error (.store (.dimension 1 2)) := by
  have hinsert := insertChunks_leftovers
  have hrefused : Store.insertEmbeddings
      { leftovers with chunks := leftovers.chunks ++ [rewrittenNote], lastChunkId := 4 }
      [1, 4] [[0, 0], [0, 0]] = .error (.dimension 1 2) := rfl
  rw [Pool.noteChunks] at hinsert
  rw [Indexer.indexFile, cut_wide, FileTask.start, Pool.noteChunks, FileTask.finish_step rfl]
  simp only [FileTask.step, FileTask.insert, hinsert, unembedded_leftovers]
  rw [FileTask.finish_step rfl]
  simp only [FileTask.step, FileTask.embed, embedChunks_wide]
  rw [FileTask.finish_step rfl]
  simp only [FileTask.step, FileTask.keep, List.map_cons, List.map_nil, rewrittenNote] at hrefused ⊢
  rw [hrefused, FileTask.finish_failing]

/-- The leftover of the note goes with the row that was stored just now. What has an embedding
stays, and so does the leftover of the other file. -/
theorem leftovers_rolled_back : leftovers.Consistent ∧
    (wideIndexer.indexFile Pool.noteTree 1 leftovers "note").2 =
      .error (.store (.dimension 1 2)) ∧
    RolledBack leftovers [rewrittenNote] 1 "note"
      (wideIndexer.indexFile Pool.noteTree 1 leftovers "note").1 ∧
    (wideIndexer.indexFile Pool.noteTree 1 leftovers "note").1.chunks.map StoredChunk.id =
      [2, 3] := by
  have hpath : Path.withSlashes "note" = "note" := by cbv
  obtain ⟨_, hstored⟩ := Indexer.indexFile_rolled_back wideIndexer Pool.noteTree 1
    consistent_leftovers indexFile_leftovers
  obtain ⟨_, hrolledBack⟩ := (hstored _ cut_wide).2 _ _ insertChunks_leftovers
  rw [hpath] at hrolledBack
  refine ⟨consistent_leftovers, indexFile_leftovers, hrolledBack, ?_⟩
  rw [hrolledBack.store]
  rfl

end Leftovers

end CodeSearch
