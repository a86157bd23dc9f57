import CodeSearch.Store.Basic
import Mathlib.Data.List.Nodup

/-!
# Rows of the store

What each operation does to the chunks and embeddings of a store: insertion adds rows at the end and
touches nothing else, deletion keeps the remaining rows and takes an embedding only with its chunk.
-/

set_option autoImplicit false

namespace CodeSearch.Store
variable {s s' : Store}

theorem hasEmbedding_iff {id : Int} :
    s.hasEmbedding id = true ↔ id ∈ s.embeddings.map Embedding.chunkId := by
  simp [hasEmbedding]

section Projects
variable {path : String} {project : Project}

theorem createProject_ok (h : s.createProject path = .ok (s', project)) :
    s' = { s with projects := s'.projects, lastProjectId := s'.lastProjectId } ∧
      s'.projectAt? path = some project := by
  unfold createProject at h
  split at h
  · rename_i existing hexisting
    obtain ⟨rfl, rfl⟩ := Prod.mk.inj (Except.ok.inj h)
    exact ⟨rfl, hexisting⟩
  · rename_i hnone
    simp only at h
    split at h
    · simp at h
    · obtain ⟨rfl, rfl⟩ := Prod.mk.inj (Except.ok.inj h)
      refine ⟨rfl, ?_⟩
      have hold : s.projects.find? (fun p => p.path == path) = none := hnone
      simp [projectAt?, hold]

theorem createProject_of_projectAt? (h : s.projectAt? path = some project) :
    s.createProject path = .ok (s, project) := by
  rw [createProject, h]

end Projects

section InsertChunks

/-- New rows go behind the old ones, each made from one of the chunks. -/
theorem insertChunksFrom_ok {projectId : Int} {written rows : List StoredChunk}
    {chunks : List Chunk} (h : insertChunksFrom projectId s written chunks = .ok (s', rows)) :
    ∃ new, rows = written.reverse ++ new ∧
      s' = { s with
        chunks := s.chunks ++ new
        lastChunkId := s.lastChunkId + chunks.length } ∧
      ∀ r ∈ new, ∃ id, ∃ c ∈ chunks, r = row id projectId c := by
  induction chunks generalizing s written with
  | nil =>
    obtain ⟨rfl, rfl⟩ := Prod.mk.inj (Except.ok.inj h)
    exact ⟨[], by simp, by simp, by simp⟩
  | cons c rest ih =>
    have hid : s.lastChunkId + 1 + (rest.length : Int) =
        s.lastChunkId + ((c :: rest).length : Nat) := by
      simp only [List.length_cons]
      omega
    rw [insertChunksFrom] at h
    split at h
    · obtain ⟨new, hrows, hs, hnew⟩ := ih h
      refine ⟨new, hrows, by rw [hs, ← hid], ?_⟩
      intro r hr
      obtain ⟨id, c', hc', heq⟩ := hnew r hr
      exact ⟨id, c', List.mem_cons_of_mem c hc', heq⟩
    · split at h
      · obtain ⟨new, hrows, hs, hnew⟩ := ih h
        refine ⟨row (s.lastChunkId + 1) projectId c :: new, by simpa using hrows, ?_, ?_⟩
        · rw [hs, ← hid, List.append_assoc]
          rfl
        · intro r hr
          rcases List.mem_cons.mp hr with rfl | hr
          · exact ⟨_, c, List.mem_cons_self, rfl⟩
          · obtain ⟨id, c', hc', heq⟩ := hnew r hr
            exact ⟨id, c', List.mem_cons_of_mem c hc', heq⟩
      · simp at h

theorem insertChunks_ok {projectId : Int} {rows : List StoredChunk} {chunks : List Chunk}
    (h : s.insertChunks projectId chunks = .ok (s', rows)) :
    s' = { s with
        chunks := s.chunks ++ rows
        lastChunkId := s.lastChunkId + chunks.length } ∧
      ∀ r ∈ rows, ∃ id, ∃ c ∈ chunks, r = row id projectId c := by
  obtain ⟨new, rfl, hs, hnew⟩ := insertChunksFrom_ok h
  exact ⟨hs, hnew⟩

/-- New rows have ids that were not given out before, in growing order. -/
theorem insertChunksFrom_ids {projectId : Int} {written rows : List StoredChunk}
    {chunks : List Chunk} (h : insertChunksFrom projectId s written chunks = .ok (s', rows)) :
    ∃ new, rows = written.reverse ++ new ∧ new.Pairwise (fun a b => a.id < b.id) ∧
      ∀ r ∈ new, s.lastChunkId < r.id ∧ r.id ≤ s'.lastChunkId := by
  induction chunks generalizing s written with
  | nil =>
    obtain ⟨rfl, rfl⟩ := Prod.mk.inj (Except.ok.inj h)
    exact ⟨[], by simp, List.Pairwise.nil, by simp⟩
  | cons c rest ih =>
    rw [insertChunksFrom] at h
    split at h
    · obtain ⟨new, hrows, hsorted, hids⟩ := ih h
      refine ⟨new, hrows, hsorted, ?_⟩
      intro r hr
      have := hids r hr
      simp only at this
      omega
    · split at h
      · obtain ⟨new, hrows, hsorted, hids⟩ := ih h
        obtain ⟨_, _, rfl, _⟩ := insertChunksFrom_ok h
        refine ⟨row (s.lastChunkId + 1) projectId c :: new, by simpa using hrows, ?_, ?_⟩
        · apply List.pairwise_cons.mpr
          exact ⟨fun r hr => (hids r hr).1, hsorted⟩
        · intro r hr
          rcases List.mem_cons.mp hr with rfl | hr
          · simp only [row]
            omega
          · have := hids r hr
            simp only at this ⊢
            omega
      · simp at h

theorem insertChunks_ids {projectId : Int} {rows : List StoredChunk} {chunks : List Chunk}
    (h : s.insertChunks projectId chunks = .ok (s', rows)) :
    rows.Pairwise (fun a b => a.id < b.id) ∧
      ∀ r ∈ rows, s.lastChunkId < r.id ∧ r.id ≤ s'.lastChunkId := by
  obtain ⟨new, rfl, hsorted, hids⟩ := insertChunksFrom_ids h
  exact ⟨hsorted, hids⟩

theorem insertChunksFrom_hasHash {projectId : Int} {written rows : List StoredChunk}
    {chunks : List Chunk} (h : insertChunksFrom projectId s written chunks = .ok (s', rows)) :
    ∀ c ∈ chunks, s'.hasHash c.hash = true := by
  induction chunks generalizing s written with
  | nil => simp
  | cons c rest ih =>
    rw [insertChunksFrom] at h
    split at h
    · rename_i hhas
      refine List.forall_mem_cons.mpr ⟨?_, ih h⟩
      obtain ⟨new, _, rfl, _⟩ := insertChunksFrom_ok h
      obtain ⟨r, hr, heq⟩ := List.any_eq_true.mp hhas
      exact List.any_eq_true.mpr ⟨r, List.mem_append_left _ hr, heq⟩
    · split at h
      · refine List.forall_mem_cons.mpr ⟨?_, ih h⟩
        obtain ⟨new, _, rfl, _⟩ := insertChunksFrom_ok h
        simp [hasHash, row]
      · simp at h

theorem insertChunks_hasHash {projectId : Int} {rows : List StoredChunk} {chunks : List Chunk}
    (h : s.insertChunks projectId chunks = .ok (s', rows)) :
    ∀ c ∈ chunks, s'.hasHash c.hash = true := insertChunksFrom_hasHash h

/-- Chunks that are all stored already leave nothing but a gap in the ids. -/
theorem insertChunksFrom_of_hasHash {projectId : Int} {written : List StoredChunk}
    {chunks : List Chunk} (h : ∀ c ∈ chunks, s.hasHash c.hash = true) :
    insertChunksFrom projectId s written chunks =
      .ok ({ s with lastChunkId := s.lastChunkId + chunks.length }, written.reverse) := by
  induction chunks generalizing s with
  | nil => simp [insertChunksFrom]
  | cons c rest ih =>
    obtain ⟨hc, hrest⟩ := List.forall_mem_cons.mp h
    have hlast : s.lastChunkId + 1 + (rest.length : Int) =
        s.lastChunkId + ((c :: rest).length : Nat) := by
      simp only [List.length_cons]
      omega
    have hskip : Store.hasHash { s with lastChunkId := s.lastChunkId + 1 } c.hash = true := hc
    have hih := ih (s := { s with lastChunkId := s.lastChunkId + 1 }) hrest
    rw [insertChunksFrom, if_pos hskip, hih, ← hlast]

end InsertChunks

section InsertEmbeddings

/-- New embeddings go behind the old ones, and in the end each id has one; none gets a second. -/
theorem insertEmbeddingsFrom_ok {written total : Nat} {pairs : List (Int × Vec)}
    (h : insertEmbeddingsFrom s written pairs = .ok (s', total)) :
    ∃ new, s' = { s with embeddings := s.embeddings ++ new } ∧
      (∀ pair ∈ pairs, s'.hasEmbedding pair.1 = true) ∧
      ((s.embeddings.map Embedding.chunkId).Nodup →
        (s'.embeddings.map Embedding.chunkId).Nodup) := by
  induction pairs generalizing s written with
  | nil =>
    obtain ⟨rfl, rfl⟩ := Prod.mk.inj (Except.ok.inj h)
    exact ⟨[], by simp, by simp, id⟩
  | cons pair rest ih =>
    obtain ⟨id, vector⟩ := pair
    rw [insertEmbeddingsFrom] at h
    split at h
    · rename_i hhas
      obtain ⟨new, rfl, hrest, hnodup⟩ := ih h
      refine ⟨new, rfl, List.forall_mem_cons.mpr ⟨?_, hrest⟩, hnodup⟩
      rw [hasEmbedding_iff] at hhas ⊢
      simp only [List.map_append]
      exact List.mem_append_left _ hhas
    · rename_i hhas
      split at h
      · obtain ⟨new, rfl, hrest, hnodup⟩ := ih h
        refine ⟨⟨id, vector⟩ :: new, by simp, List.forall_mem_cons.mpr ⟨?_, hrest⟩, ?_⟩
        · simp [hasEmbedding]
        · intro hold
          apply hnodup
          rw [hasEmbedding_iff] at hhas
          simpa [List.nodup_append] using ⟨hold, by simpa using hhas⟩
      · simp at h

theorem insertEmbeddings_ok {ids : List Int} {vectors : List Vec} {total : Nat}
    (h : s.insertEmbeddings ids vectors = .ok (s', total)) :
    ∃ new, s' = { s with embeddings := s.embeddings ++ new } ∧
      (∀ id ∈ ids, s'.hasEmbedding id = true) ∧
      ((s.embeddings.map Embedding.chunkId).Nodup →
        (s'.embeddings.map Embedding.chunkId).Nodup) := by
  unfold insertEmbeddings at h
  split at h
  · simp at h
  · rename_i hlen
    split at h
    · simp at h
    · obtain ⟨new, hs, hpairs, hnodup⟩ := insertEmbeddingsFrom_ok h
      refine ⟨new, hs, ?_, hnodup⟩
      intro id hid
      have hzip : (ids.zip vectors).map Prod.fst = ids := List.map_fst_zip (by omega)
      rw [← hzip] at hid
      obtain ⟨pair, hpair, rfl⟩ := List.mem_map.mp hid
      exact hpairs pair hpair

theorem insertEmbeddingsFrom_new {written total : Nat} {pairs : List (Int × Vec)} {id : Int}
    (h : insertEmbeddingsFrom s written pairs = .ok (s', total))
    (hid : s'.hasEmbedding id = true) : s.hasEmbedding id = true ∨ id ∈ pairs.map Prod.fst := by
  induction pairs generalizing s written with
  | nil =>
    obtain ⟨rfl, rfl⟩ := Prod.mk.inj (Except.ok.inj h)
    exact Or.inl hid
  | cons pair rest ih =>
    obtain ⟨first, vector⟩ := pair
    rw [insertEmbeddingsFrom] at h
    split at h
    · exact (ih h).imp_right (List.mem_cons_of_mem _)
    · split at h
      · rcases ih h with hhas | hmem
        · simp only [hasEmbedding, List.any_append, List.any_cons, List.any_nil,
            Bool.or_false, Bool.or_eq_true, beq_iff_eq] at hhas
          rcases hhas with hhas | rfl
          · exact Or.inl hhas
          · exact Or.inr List.mem_cons_self
        · exact Or.inr (List.mem_cons_of_mem _ hmem)
      · simp at h

/-- Only the chunks that were given get an embedding. -/
theorem insertEmbeddings_new {ids : List Int} {vectors : List Vec} {total : Nat} {id : Int}
    (h : s.insertEmbeddings ids vectors = .ok (s', total))
    (hid : s'.hasEmbedding id = true) : s.hasEmbedding id = true ∨ id ∈ ids := by
  unfold insertEmbeddings at h
  split at h
  · simp at h
  · rename_i hlen
    split at h
    · simp at h
    · have hzip : (ids.zip vectors).map Prod.fst = ids := List.map_fst_zip (by omega)
      simpa only [hzip] using insertEmbeddingsFrom_new h hid

end InsertEmbeddings

section Deletion
variable {p : StoredChunk → Bool}

theorem keepChunks_hasEmbedding {c : StoredChunk} (hc : c ∈ (s.keepChunks p).chunks) :
    (s.keepChunks p).hasEmbedding c.id = s.hasEmbedding c.id := by
  have hkept : ∃ d ∈ s.chunks, p d = true ∧ d.id = c.id := by
    obtain ⟨hmem, hp⟩ := List.mem_filter.mp hc
    exact ⟨c, hmem, hp, rfl⟩
  apply Bool.eq_iff_iff.mpr
  simp only [hasEmbedding, keepChunks, dropOrphans, List.any_eq_true, List.mem_filter, beq_iff_eq]
  constructor
  · rintro ⟨e, ⟨he, _⟩, heq⟩
    exact ⟨e, he, heq⟩
  · rintro ⟨e, he, heq⟩
    obtain ⟨d, hd, hp, hid⟩ := hkept
    exact ⟨e, ⟨he, d, ⟨hd, hp⟩, hid.trans heq.symm⟩, heq⟩

theorem keepChunks_embeddings_sublist :
    (s.keepChunks p).embeddings.Sublist s.embeddings := List.filter_sublist

end Deletion

theorem mem_unembedded {projectId : Int} {filePath : String} {c : StoredChunk} :
    c ∈ s.unembedded projectId filePath ↔ c ∈ s.chunks ∧ c.projectId = projectId ∧
      c.filePath = filePath ∧ s.hasEmbedding c.id = false := by
  simp only [unembedded, List.mem_mergeSort, List.mem_filter, Bool.and_eq_true, beq_iff_eq,
    Bool.not_eq_true', and_assoc]

end CodeSearch.Store
