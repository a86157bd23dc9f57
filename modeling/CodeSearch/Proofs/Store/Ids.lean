import CodeSearch.Proofs.Store.Rows

/-!
# Ids of chunks

An id is given out once. So a chunk that was read some time ago is, if a row with its id is still
there, that very row, whatever was inserted and deleted in between.
-/

set_option autoImplicit false

namespace CodeSearch.Store
variable {s s' s'' : Store}

/-- Each chunk has its own id, and the counter has reached it. -/
structure Keyed (s : Store) : Prop where
  nodup : (s.chunks.map StoredChunk.id).Nodup
  le_last : ∀ c ∈ s.chunks, c.id ≤ s.lastChunkId

/-- No row but `c` has the id of `c`, now or later. -/
structure OwnId (s : Store) (c : StoredChunk) : Prop where
  le_last : c.id ≤ s.lastChunkId
  eq_of_id : ∀ d ∈ s.chunks, d.id = c.id → d = c

/-- `s'` is the store `s` some time later: a row that was not there has a new id. -/
structure Later (s s' : Store) : Prop where
  le_last : s.lastChunkId ≤ s'.lastChunkId
  old_or_new : ∀ c ∈ s'.chunks, c ∈ s.chunks ∨ s.lastChunkId < c.id

namespace Later

theorem refl (s : Store) : Later s s := ⟨Int.le_refl _, fun _ hc => Or.inl hc⟩

theorem trans (h : Later s s') (h' : Later s' s'') : Later s s'' := by
  refine ⟨Int.le_trans h.le_last h'.le_last, ?_⟩
  intro c hc
  rcases h'.old_or_new c hc with hold | hnew
  · exact h.old_or_new c hold
  · exact Or.inr (Int.lt_of_le_of_lt h.le_last hnew)

end Later

theorem Keyed.ownId (h : s.Keyed) {c : StoredChunk} (hc : c ∈ s.chunks) : s.OwnId c :=
  ⟨h.le_last c hc, fun _ hd hid => List.inj_on_of_nodup_map h.nodup hd hc hid⟩

theorem OwnId.later {c : StoredChunk} (h : s.OwnId c) (hlater : Later s s') : s'.OwnId c := by
  refine ⟨Int.le_trans h.le_last hlater.le_last, ?_⟩
  intro d hd hid
  rcases hlater.old_or_new d hd with hold | hnew
  · exact h.eq_of_id d hold hid
  · have := h.le_last
    omega

section Operations
variable {projectId : Int} {chunks : List Chunk} {rows : List StoredChunk}

theorem later_insertChunks (h : s.insertChunks projectId chunks = .ok (s', rows)) :
    Later s s' := by
  obtain ⟨_, hids⟩ := insertChunks_ids h
  obtain ⟨rfl, _⟩ := insertChunks_ok h
  constructor
  · simp only
    omega
  · intro c hc
    exact (List.mem_append.mp hc).imp_right fun hr => (hids c hr).1

theorem Keyed.insertChunks (hkeyed : s.Keyed)
    (h : s.insertChunks projectId chunks = .ok (s', rows)) : s'.Keyed := by
  obtain ⟨hsorted, hids⟩ := insertChunks_ids h
  obtain ⟨rfl, _⟩ := insertChunks_ok h
  constructor
  · rw [List.map_append, List.nodup_append]
    refine ⟨hkeyed.nodup, ?_, ?_⟩
    · rw [List.Nodup, List.pairwise_map]
      apply hsorted.imp
      intro a b hab
      omega
    · intro i hi j hj
      obtain ⟨c, hc, rfl⟩ := List.mem_map.mp hi
      obtain ⟨r, hr, rfl⟩ := List.mem_map.mp hj
      have hold := hkeyed.le_last c hc
      have hnew := (hids r hr).1
      omega
  · intro c hc
    rcases List.mem_append.mp hc with hc | hc
    · have := hkeyed.le_last c hc
      simp only
      omega
    · exact (hids c hc).2

theorem later_insertEmbeddings {ids : List Int} {vectors : List Vec} {total : Nat}
    (h : s.insertEmbeddings ids vectors = .ok (s', total)) : Later s s' := by
  obtain ⟨_, rfl, _⟩ := insertEmbeddings_ok h
  exact ⟨Int.le_refl _, fun _ hc => Or.inl hc⟩

theorem Keyed.insertEmbeddings (hkeyed : s.Keyed) {ids : List Int} {vectors : List Vec}
    {total : Nat} (h : s.insertEmbeddings ids vectors = .ok (s', total)) : s'.Keyed := by
  obtain ⟨_, rfl, _⟩ := insertEmbeddings_ok h
  exact ⟨hkeyed.nodup, hkeyed.le_last⟩

theorem later_keepChunks (p : StoredChunk → Bool) : Later s (s.keepChunks p) :=
  ⟨Int.le_refl _, fun _ hc => Or.inl (List.mem_filter.mp hc).1⟩

theorem Keyed.keepChunks (hkeyed : s.Keyed) (p : StoredChunk → Bool) : (s.keepChunks p).Keyed :=
  ⟨hkeyed.nodup.sublist (List.filter_sublist.map _),
    fun c hc => hkeyed.le_last c (List.mem_filter.mp hc).1⟩

end Operations

end CodeSearch.Store
