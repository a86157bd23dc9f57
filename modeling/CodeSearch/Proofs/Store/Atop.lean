import CodeSearch.Proofs.Store.Novel

/-!
# One store atop another

The rows of a store, which are all of one project, can be put behind those of another store, as rows
of a project that has none there: ids are raised by the last id given out there. As long as no chunk
that comes in is known to the store below, each operation does above what it does to the rows
alone.
-/

set_option autoImplicit false

namespace CodeSearch

/-- The row with its id raised, under another project. -/
def StoredChunk.moved (last projectId : Int) (c : StoredChunk) : StoredChunk :=
  { c with id := last + c.id, projectId }

def Embedding.moved (last : Int) (e : Embedding) : Embedding :=
  { e with chunkId := last + e.chunkId }

def Chunk.under (projectId : Int) (c : Chunk) : Chunk := { c with projectId := some projectId }

namespace Store
variable {b s s' : Store} {p q : Int}

/-- The rows of `s` behind those of `b`, as rows of the project `p`. -/
def atop (s b : Store) (p : Int) : Store :=
  { b with
    chunks := b.chunks ++ s.chunks.map (StoredChunk.moved b.lastChunkId p)
    embeddings := b.embeddings ++ s.embeddings.map (Embedding.moved b.lastChunkId)
    lastChunkId := b.lastChunkId + s.lastChunkId }

/-- The project is registered and has no chunks yet, and no other row is out of order. -/
structure Ground (b : Store) (p : Int) : Prop where
  registered : b.hasProject p = true
  vacant : ∀ c ∈ b.chunks, c.projectId ≠ p
  bounded : ∀ c ∈ b.chunks, c.id ≤ b.lastChunkId
  owned : ∀ e ∈ b.embeddings, b.hasChunk e.chunkId = true

/-- All rows are of one project, and ids begin at one. -/
structure Lone (q : Int) (s : Store) : Prop where
  project : ∀ c ∈ s.chunks, c.projectId = q
  chunkId : ∀ c ∈ s.chunks, 0 < c.id
  embeddingId : ∀ e ∈ s.embeddings, 0 < e.chunkId
  last : 0 ≤ s.lastChunkId

theorem Lone.insertChunks (hs : s.Lone q) (hregistered : s.hasProject q = true)
    {chunks : List Chunk} {rows : List StoredChunk}
    (h : s.insertChunks q chunks = .ok (s', rows)) : s'.Lone q := by
  obtain ⟨_, hids⟩ := insertChunks_ids h
  obtain ⟨rows', hinsert, hproject, _⟩ := insertChunks_novel hregistered chunks
  obtain ⟨rfl, rfl⟩ := Prod.mk.inj (Except.ok.inj (hinsert.symm.trans h))
  refine ⟨?_, ?_, hs.embeddingId, ?_⟩
  · intro c hc
    exact (List.mem_append.mp hc).elim (hs.project c) (hproject c)
  · intro c hc
    rcases List.mem_append.mp hc with hc | hc
    · exact hs.chunkId c hc
    · exact Int.lt_of_le_of_lt hs.last (hids c hc).1
  · have := hs.last
    simp only
    omega

section Lookups

theorem hasHash_atop (hash : String) :
    (s.atop b p).hasHash hash = (b.hasHash hash || s.hasHash hash) := by
  simp only [hasHash, atop, List.any_append, List.any_map]
  rfl

/-- What is put above gets ids that are not given out below. -/
theorem Ground.id_ne (hb : b.Ground p) {c : StoredChunk} (hc : c ∈ b.chunks) {id : Int}
    (hid : 0 < id) : c.id ≠ b.lastChunkId + id := by
  have := hb.bounded c hc
  omega

theorem Ground.hasChunk_atop (hb : b.Ground p) {id : Int} (hid : 0 < id) :
    (s.atop b p).hasChunk (b.lastChunkId + id) = s.hasChunk id := by
  have hbelow : b.chunks.any (fun c => c.id == b.lastChunkId + id) = false := by
    apply List.any_eq_false.mpr
    intro c hc
    rw [beq_iff_eq]
    exact hb.id_ne hc hid
  simp only [hasChunk, atop, List.any_append, List.any_map, hbelow, Bool.false_or]
  congr 1
  funext c
  simp [StoredChunk.moved]

theorem Ground.hasEmbedding_atop (hb : b.Ground p) {id : Int} (hid : 0 < id) :
    (s.atop b p).hasEmbedding (b.lastChunkId + id) = s.hasEmbedding id := by
  have hbelow : b.embeddings.any (fun e => e.chunkId == b.lastChunkId + id) = false := by
    apply List.any_eq_false.mpr
    intro e he
    obtain ⟨c, hc, heq⟩ := List.any_eq_true.mp (hb.owned e he)
    rw [beq_iff_eq, ← beq_iff_eq.mp heq]
    exact hb.id_ne hc hid
  simp only [hasEmbedding, atop, List.any_append, List.any_map, hbelow, Bool.false_or]
  congr 1
  funext e
  simp [Embedding.moved]

end Lookups

section Rows

theorem lineLe_moved (last : Int) (c d : StoredChunk) :
    lineLe (c.moved last p) (d.moved last p) = lineLe c d := by
  have hid : last + c.id ≤ last + d.id ↔ c.id ≤ d.id := by omega
  simp only [lineLe, StoredChunk.moved]
  congr 2
  exact decide_eq_decide.mpr hid

/-- Sorting by line goes by what moving keeps. -/
theorem mergeSort_map_moved (last : Int) (rows : List StoredChunk) :
    (rows.map (StoredChunk.moved last p)).mergeSort lineLe =
      (rows.mergeSort lineLe).map (StoredChunk.moved last p) := by
  symm
  apply List.map_mergeSort
  intro c _ d _
  exact (lineLe_moved last c d).symm

/-- A choice among the rows of the project above is the same choice among the rows alone. -/
theorem Ground.filter_atop (hb : b.Ground p) {above alone : StoredChunk → Bool}
    (habove : ∀ c, above c = true → c.projectId = p)
    (hsame : ∀ c ∈ s.chunks, above (c.moved b.lastChunkId p) = alone c) :
    (s.atop b p).chunks.filter above =
      (s.chunks.filter alone).map (StoredChunk.moved b.lastChunkId p) := by
  have hbelow : b.chunks.filter above = [] := by
    apply List.filter_eq_nil_iff.mpr
    intro c hc hcount
    exact hb.vacant c hc (habove c hcount)
  simp only [atop]
  rw [List.filter_append, hbelow, List.nil_append, List.filter_map]
  congr 1
  exact List.filter_congr hsame

theorem Ground.unembedded_atop (hb : b.Ground p) (hs : s.Lone q) (filePath : String) :
    (s.atop b p).unembedded p filePath =
      (s.unembedded q filePath).map (StoredChunk.moved b.lastChunkId p) := by
  rw [unembedded, unembedded, ← mergeSort_map_moved]
  congr 1
  apply hb.filter_atop
  · intro c hc
    simp only [Bool.and_eq_true, beq_iff_eq] at hc
    exact hc.1.1
  · intro c hc
    have hhas := hb.hasEmbedding_atop (s := s) (hs.chunkId c hc)
    simp only [StoredChunk.moved, hhas, hs.project c hc, beq_self_eq_true]

theorem Ground.contents_atop (hb : b.Ground p) (hs : s.Lone q) :
    (s.atop b p).contents p = s.contents q := by
  have hfilter : (s.atop b p).chunks.filter (fun c => c.projectId == p) =
      (s.chunks.filter fun c => c.projectId == q).map (StoredChunk.moved b.lastChunkId p) := by
    apply hb.filter_atop
    · intro c hc
      exact beq_iff_eq.mp hc
    · intro c hc
      simp [StoredChunk.moved, hs.project c hc]
  rw [contents, contents, hfilter, List.map_map]
  rfl

end Rows

section Operations

theorem Ground.insertChunksFrom_atop (hb : b.Ground p) {written rows : List StoredChunk}
    {chunks : List Chunk} (hnew : ∀ c ∈ chunks, b.hasHash c.hash = false)
    (h : insertChunksFrom q s written chunks = .ok (s', rows)) :
    insertChunksFrom p (s.atop b p) (written.map (StoredChunk.moved b.lastChunkId p))
        (chunks.map (Chunk.under p)) =
      .ok (s'.atop b p, rows.map (StoredChunk.moved b.lastChunkId p)) := by
  induction chunks generalizing s written with
  | nil =>
    obtain ⟨rfl, rfl⟩ := Prod.mk.inj (Except.ok.inj h)
    simp [insertChunksFrom]
  | cons c rest ih =>
    obtain ⟨hc, hrest⟩ := List.forall_mem_cons.mp hnew
    -- Both counters go up by one, so what is counted in above stays atop `b`.
    have hlast : ({ s.atop b p with lastChunkId := (s.atop b p).lastChunkId + 1 } : Store) =
        atop { s with lastChunkId := s.lastChunkId + 1 } b p := by
      simp only [atop, Int.add_assoc]
    have hknown : (atop { s with lastChunkId := s.lastChunkId + 1 } b p).hasHash c.hash =
        Store.hasHash { s with lastChunkId := s.lastChunkId + 1 } c.hash := by
      rw [hasHash_atop, hc, Bool.false_or]
    rw [List.map_cons, insertChunksFrom, hlast]
    rw [insertChunksFrom] at h
    by_cases hhas : Store.hasHash { s with lastChunkId := s.lastChunkId + 1 } c.hash = true
    · rw [if_pos hhas] at h
      exact (if_pos (hknown.trans hhas)).trans (ih hrest h)
    · rw [if_neg hhas] at h
      refine (if_neg fun habove => hhas (hknown.symm.trans habove)).trans ?_
      have hwritten : row ((s.atop b p).lastChunkId + 1) p (c.under p) =
          (row (s.lastChunkId + 1) q c).moved b.lastChunkId p := by
        simp only [row, StoredChunk.moved, Chunk.under, atop, Int.add_assoc]
      by_cases hregistered : Store.hasProject { s with lastChunkId := s.lastChunkId + 1 } q = true
      · rw [if_pos hregistered] at h
        refine (if_pos hb.registered).trans ?_
        rw [hwritten]
        have hih := ih hrest h
        rw [List.map_cons] at hih
        rw [← hih]
        simp only [atop, List.map_append, List.append_assoc, List.map_cons, List.map_nil]
      · rw [if_neg hregistered] at h
        simp at h

theorem Ground.insertChunks_atop (hb : b.Ground p) {rows : List StoredChunk} {chunks : List Chunk}
    (hnew : ∀ c ∈ chunks, b.hasHash c.hash = false)
    (h : s.insertChunks q chunks = .ok (s', rows)) :
    (s.atop b p).insertChunks p (chunks.map (Chunk.under p)) =
      .ok (s'.atop b p, rows.map (StoredChunk.moved b.lastChunkId p)) :=
  hb.insertChunksFrom_atop hnew h

theorem Ground.insertEmbeddingsFrom_atop (hb : b.Ground p) {pairs : List (Int × Vec)}
    (hids : ∀ pair ∈ pairs, 0 < pair.1) (written : Nat) :
    insertEmbeddingsFrom (s.atop b p) written (pairs.map (Prod.map (b.lastChunkId + ·) id)) =
      (insertEmbeddingsFrom s written pairs).map (Prod.map (fun s => s.atop b p) id) := by
  induction pairs generalizing s written with
  | nil => rfl
  | cons pair rest ih =>
    obtain ⟨id, vector⟩ := pair
    obtain ⟨hid, hrest⟩ := List.forall_mem_cons.mp hids
    have hembedded := hb.hasEmbedding_atop (s := s) hid
    have hpresent := hb.hasChunk_atop (s := s) hid
    simp only [List.map_cons, Prod.map_apply, insertEmbeddingsFrom, id_eq, hembedded, hpresent]
    split
    · exact ih hrest written
    · split
      · rw [← ih hrest]
        simp only [atop, List.map_append, List.append_assoc]
        rfl
      · rfl

theorem checkDimensions_atop (hwidth : b.dimensions = s.dimensions) :
    (s.atop b p).checkDimensions = s.checkDimensions := by
  funext v
  simp only [checkDimensions, atop, hwidth]

theorem Ground.insertEmbeddings_atop (hb : b.Ground p) (hwidth : b.dimensions = s.dimensions)
    {ids : List Int} (hids : ∀ id ∈ ids, 0 < id) (vectors : List Vec) :
    (s.atop b p).insertEmbeddings (ids.map (b.lastChunkId + ·)) vectors =
      (s.insertEmbeddings ids vectors).map (Prod.map (fun s => s.atop b p) id) := by
  have hzip : (ids.map (b.lastChunkId + ·)).zip vectors =
      (ids.zip vectors).map (Prod.map (b.lastChunkId + ·) id) := List.zip_map_left ..
  rw [insertEmbeddings, insertEmbeddings, List.length_map, checkDimensions_atop hwidth,
    hzip]
  split
  · rfl
  · split
    · rfl
    · apply hb.insertEmbeddingsFrom_atop
      rintro ⟨id, vector⟩ hpair
      exact hids id (List.of_mem_zip hpair).1

/-- An embedding stays with its chunk, above and below. -/
theorem Ground.dropOrphans_atop (hb : b.Ground p) (hids : ∀ e ∈ s.embeddings, 0 < e.chunkId) :
    (s.atop b p).dropOrphans = s.dropOrphans.atop b p := by
  have hbelow : b.embeddings.filter (fun e => (s.atop b p).hasChunk e.chunkId) = b.embeddings := by
    apply List.filter_eq_self.mpr
    intro e he
    have hhas := hb.owned e he
    simp only [hasChunk, atop, List.any_append] at hhas ⊢
    rw [hhas, Bool.true_or]
  have habove : (s.embeddings.map (Embedding.moved b.lastChunkId)).filter
        (fun e => (s.atop b p).hasChunk e.chunkId) =
      (s.embeddings.filter fun e => s.hasChunk e.chunkId).map (Embedding.moved b.lastChunkId) := by
    rw [List.filter_map]
    congr 1
    apply List.filter_congr
    intro e he
    exact hb.hasChunk_atop (hids e he)
  have hall : (s.atop b p).dropOrphans.embeddings = (s.dropOrphans.atop b p).embeddings := by
    change List.filter (fun e => (s.atop b p).hasChunk e.chunkId) (b.embeddings ++ _) = _
    rw [List.filter_append, hbelow, habove]
    rfl
  simpa only [dropOrphans, atop, Store.mk.injEq, true_and, and_true] using hall

theorem Ground.keepChunks_atop (hb : b.Ground p) (hids : ∀ e ∈ s.embeddings, 0 < e.chunkId)
    {above alone : StoredChunk → Bool} (hbelow : ∀ c ∈ b.chunks, above c = true)
    (hsame : ∀ c ∈ s.chunks, above (c.moved b.lastChunkId p) = alone c) :
    (s.atop b p).keepChunks above = (s.keepChunks alone).atop b p := by
  have hchunks : (s.atop b p).chunks.filter above =
      b.chunks ++ (s.chunks.filter alone).map (StoredChunk.moved b.lastChunkId p) := by
    simp only [atop]
    rw [List.filter_append, List.filter_eq_self.mpr hbelow, List.filter_map]
    congr 2
    exact List.filter_congr hsame
  have hkept : ({ s.atop b p with chunks := (s.atop b p).chunks.filter above } : Store) =
      atop { s with chunks := s.chunks.filter alone } b p := by
    rw [hchunks]
    rfl
  rw [keepChunks, keepChunks, hkept]
  exact hb.dropOrphans_atop hids

theorem Ground.deleteChunks_atop (hb : b.Ground p) (hs : s.Lone q) {ids : List Int}
    (hids : ∀ id ∈ ids, 0 < id) :
    ((s.atop b p).deleteChunks (ids.map (b.lastChunkId + ·))).1 =
      (s.deleteChunks ids).1.atop b p := by
  apply hb.keepChunks_atop hs.embeddingId
  · intro c hc
    simp only [Bool.not_eq_true', List.contains_eq_mem, List.mem_map, decide_eq_false_iff_not]
    rintro ⟨id, hid, heq⟩
    exact hb.id_ne hc (hids id hid) heq.symm
  · intro c _
    simp [StoredChunk.moved]

end Operations

end Store

end CodeSearch
