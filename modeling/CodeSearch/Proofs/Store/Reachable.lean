import CodeSearch.Proofs.Store.Ids

/-!
# Reachable stores

The operations on a store as data, and the stores that they lead to from an empty one. In such a
store each chunk has its own id, no chunk has two embeddings, and no row refers to one that is not
there.
-/

set_option autoImplicit false

namespace CodeSearch

inductive StoreOp where
  | createProject (path : String)
  | deleteProject (id : Int)
  | insertChunks (projectId : Int) (chunks : List Chunk)
  | insertEmbeddings (ids : List Int) (vectors : List Vec)
  | deleteChunks (ids : List Int)
  | clearProject (projectId : Int)

namespace Store
variable {s s' : Store}

/-- The store after an operation; one that failed has left it as it was. -/
def after {β : Type} (s : Store) : Except StoreError (Store × β) → Store
  | .ok (s', _) => s'
  | .error _ => s

def perform (s : Store) : StoreOp → Store
  | .createProject path => s.after (s.createProject path)
  | .deleteProject id => (s.deleteProject id).1
  | .insertChunks projectId chunks => s.after (s.insertChunks projectId chunks)
  | .insertEmbeddings ids vectors => s.after (s.insertEmbeddings ids vectors)
  | .deleteChunks ids => (s.deleteChunks ids).1
  | .clearProject projectId => (s.clearProject projectId).1

/-- What operations lead to. A store may be opened again for embeddings of another width. -/
inductive Reachable : Store → Prop where
  | opened (dimensions : Nat) : Reachable { dimensions }
  | performed {s : Store} (op : StoreOp) (h : Reachable s) : Reachable (s.perform op)
  | reopened {s : Store} (dimensions : Nat) (h : Reachable s) : Reachable { s with dimensions }

section Registration
variable {path : String} {project : Project}

theorem createProject_new (hpath : s.projectAt? path = none)
    (hname : ∀ p ∈ s.projects, p.name ≠ ProjectName.ofPath path) :
    s.createProject path = .ok
      ({ s with
        projects := s.projects ++ [⟨s.lastProjectId + 1, ProjectName.ofPath path, path, none⟩]
        lastProjectId := s.lastProjectId + 1 },
      ⟨s.lastProjectId + 1, ProjectName.ofPath path, path, none⟩) := by
  have hfree : s.projects.find? (fun p => p.name == ProjectName.ofPath path) = none := by
    apply List.find?_eq_none.mpr
    intro p hp
    simpa using hname p hp
  simp only [createProject, hpath, hfree]

theorem createProject_old_or_new (h : s.createProject path = .ok (s', project)) :
    s' = s ∨ s' =
      { s with
        projects := s.projects ++ [⟨s.lastProjectId + 1, ProjectName.ofPath path, path, none⟩]
        lastProjectId := s.lastProjectId + 1 } := by
  unfold createProject at h
  split at h
  · exact Or.inl (Prod.mk.inj (Except.ok.inj h)).1.symm
  · simp only at h
    split at h
    · simp at h
    · exact Or.inr (Prod.mk.inj (Except.ok.inj h)).1.symm

end Registration

/-- Without the project nothing is written. -/
theorem insertChunksFrom_of_unregistered {projectId : Int} {written rows : List StoredChunk}
    {chunks : List Chunk} (hnone : s.hasProject projectId = false)
    (h : insertChunksFrom projectId s written chunks = .ok (s', rows)) :
    rows = written.reverse := by
  induction chunks generalizing s with
  | nil => exact (Prod.mk.inj (Except.ok.inj h)).2.symm
  | cons c rest ih =>
    rw [insertChunksFrom] at h
    split at h
    · exact ih (s := { s with lastChunkId := s.lastChunkId + 1 }) hnone h
    · split at h
      · rename_i hregistered
        exact absurd hregistered (ne_true_of_eq_false hnone)
      · simp at h

theorem rows_of_unregistered {projectId : Int} {rows : List StoredChunk} {chunks : List Chunk}
    (hnone : s.hasProject projectId = false)
    (h : s.insertChunks projectId chunks = .ok (s', rows)) : rows = [] :=
  insertChunksFrom_of_unregistered hnone h

theorem insertEmbeddingsFrom_owned {written total : Nat} {pairs : List (Int × Vec)}
    (howned : ∀ e ∈ s.embeddings, s.hasChunk e.chunkId = true)
    (h : insertEmbeddingsFrom s written pairs = .ok (s', total)) :
    ∀ e ∈ s'.embeddings, s'.hasChunk e.chunkId = true := by
  induction pairs generalizing s written with
  | nil =>
    obtain ⟨rfl, rfl⟩ := Prod.mk.inj (Except.ok.inj h)
    exact howned
  | cons pair rest ih =>
    obtain ⟨id, vector⟩ := pair
    rw [insertEmbeddingsFrom] at h
    split at h
    · exact ih howned h
    · split at h
      · rename_i hpresent
        refine ih ?_ h
        intro e he
        rcases List.mem_append.mp he with he | he
        · exact howned e he
        · rw [List.mem_singleton.mp he]
          exact hpresent
      · simp at h

theorem insertEmbeddings_owned {ids : List Int} {vectors : List Vec} {total : Nat}
    (howned : ∀ e ∈ s.embeddings, s.hasChunk e.chunkId = true)
    (h : s.insertEmbeddings ids vectors = .ok (s', total)) :
    ∀ e ∈ s'.embeddings, s'.hasChunk e.chunkId = true := by
  unfold insertEmbeddings at h
  split at h
  · simp at h
  · split at h
    · simp at h
    · exact insertEmbeddingsFrom_owned howned h

namespace Reachable

theorem createProject (h : s.Reachable) {path : String} {project : Project}
    (hcreate : s.createProject path = .ok (s', project)) : s'.Reachable := by
  have hnext := h.performed (.createProject path)
  rwa [perform, hcreate] at hnext

theorem insertChunks (h : s.Reachable) {projectId : Int} {chunks : List Chunk}
    {rows : List StoredChunk} (hinsert : s.insertChunks projectId chunks = .ok (s', rows)) :
    s'.Reachable := by
  have hnext := h.performed (.insertChunks projectId chunks)
  rwa [perform, hinsert] at hnext

theorem insertEmbeddings (h : s.Reachable) {ids : List Int} {vectors : List Vec} {total : Nat}
    (hinsert : s.insertEmbeddings ids vectors = .ok (s', total)) : s'.Reachable := by
  have hnext := h.performed (.insertEmbeddings ids vectors)
  rwa [perform, hinsert] at hnext

end Reachable

/-- Each embedding has its chunk and each chunk its project, and no project has an id that is still
to be given out. -/
structure Linked (s : Store) : Prop where
  owned : ∀ e ∈ s.embeddings, s.hasChunk e.chunkId = true
  housed : ∀ c ∈ s.chunks, s.hasProject c.projectId = true
  numbered : ∀ p ∈ s.projects, p.id ≤ s.lastProjectId

namespace Linked

theorem keepChunks (h : s.Linked) (p : StoredChunk → Bool) : (s.keepChunks p).Linked := by
  refine ⟨?_, ?_, h.numbered⟩
  · intro e he
    exact (List.mem_filter.mp he).2
  · intro c hc
    exact h.housed c (List.mem_filter.mp hc).1

theorem deleteProject (h : s.Linked) (id : Int) : (s.deleteProject id).1.Linked := by
  refine ⟨?_, ?_, ?_⟩
  · intro e he
    exact (List.mem_filter.mp he).2
  · intro c hc
    obtain ⟨hold, hother⟩ := List.mem_filter.mp hc
    obtain ⟨p, hp, heq⟩ := List.any_eq_true.mp (h.housed c hold)
    refine List.any_eq_true.mpr ⟨p, List.mem_filter.mpr ⟨hp, ?_⟩, heq⟩
    rwa [beq_iff_eq.mp heq]
  · intro p hp
    exact h.numbered p (List.mem_filter.mp hp).1

theorem createProject (h : s.Linked) {path : String} {project : Project}
    (hcreate : s.createProject path = .ok (s', project)) : s'.Linked := by
  rcases createProject_old_or_new hcreate with rfl | rfl
  · exact h
  · refine ⟨h.owned, ?_, ?_⟩
    · intro c hc
      have hhoused := h.housed c hc
      rw [hasProject] at hhoused ⊢
      rw [List.any_append, hhoused, Bool.true_or]
    · intro p hp
      rcases List.mem_append.mp hp with hp | hp
      · have := h.numbered p hp
        simp only
        omega
      · obtain rfl := List.mem_singleton.mp hp
        exact Int.le_refl _

theorem insertChunks (h : s.Linked) {projectId : Int} {chunks : List Chunk}
    {rows : List StoredChunk} (hinsert : s.insertChunks projectId chunks = .ok (s', rows)) :
    s'.Linked := by
  obtain ⟨hs', hrows⟩ := insertChunks_ok hinsert
  subst hs'
  refine ⟨?_, ?_, h.numbered⟩
  · intro e he
    have howned := h.owned e he
    rw [hasChunk] at howned ⊢
    rw [List.any_append, howned, Bool.true_or]
  · intro c hc
    rcases List.mem_append.mp hc with hc | hc
    · exact h.housed c hc
    · obtain ⟨id, d, _, rfl⟩ := hrows c hc
      cases hregistered : s.hasProject projectId with
      | true => exact hregistered
      | false =>
        rw [rows_of_unregistered hregistered hinsert] at hc
        exact absurd hc List.not_mem_nil

theorem insertEmbeddings (h : s.Linked) {ids : List Int} {vectors : List Vec} {total : Nat}
    (hinsert : s.insertEmbeddings ids vectors = .ok (s', total)) : s'.Linked := by
  have howned := insertEmbeddings_owned h.owned hinsert
  obtain ⟨_, rfl, _⟩ := insertEmbeddings_ok hinsert
  exact ⟨howned, h.housed, h.numbered⟩

end Linked

/-- Each chunk has its own id and at most one embedding, and no reference leads nowhere. -/
structure Consistent (s : Store) : Prop where
  keyed : s.Keyed
  unique : (s.embeddings.map Embedding.chunkId).Nodup
  linked : s.Linked

namespace Consistent

theorem keepChunks (h : s.Consistent) (p : StoredChunk → Bool) : (s.keepChunks p).Consistent where
  keyed := h.keyed.keepChunks p
  unique := h.unique.sublist (keepChunks_embeddings_sublist.map _)
  linked := h.linked.keepChunks p

theorem createProject (h : s.Consistent) {path : String} {project : Project}
    (hcreate : s.createProject path = .ok (s', project)) : s'.Consistent := by
  refine ⟨?_, ?_, h.linked.createProject hcreate⟩
  · rw [(createProject_ok hcreate).1]
    exact ⟨h.keyed.nodup, h.keyed.le_last⟩
  · rw [(createProject_ok hcreate).1]
    exact h.unique

theorem deleteProject (h : s.Consistent) (id : Int) : (s.deleteProject id).1.Consistent := by
  refine ⟨?_, ?_, h.linked.deleteProject id⟩
  · have hfewer : Keyed { s with projects := s.projects.filter fun p => p.id != id } :=
      ⟨h.keyed.nodup, h.keyed.le_last⟩
    exact hfewer.keepChunks _
  · exact h.unique.sublist (List.filter_sublist.map _)

theorem insertChunks (h : s.Consistent) {projectId : Int} {chunks : List Chunk}
    {rows : List StoredChunk} (hinsert : s.insertChunks projectId chunks = .ok (s', rows)) :
    s'.Consistent := by
  refine ⟨h.keyed.insertChunks hinsert, ?_, h.linked.insertChunks hinsert⟩
  rw [(insertChunks_ok hinsert).1]
  exact h.unique

theorem insertEmbeddings (h : s.Consistent) {ids : List Int} {vectors : List Vec}
    {total : Nat} (hinsert : s.insertEmbeddings ids vectors = .ok (s', total)) :
    s'.Consistent := by
  obtain ⟨_, _, _, hnodup⟩ := insertEmbeddings_ok hinsert
  exact ⟨h.keyed.insertEmbeddings hinsert, hnodup h.unique, h.linked.insertEmbeddings hinsert⟩

theorem after {β : Type} (h : s.Consistent) {result : Except StoreError (Store × β)}
    (hok : ∀ s' b, result = .ok (s', b) → s'.Consistent) : (s.after result).Consistent := by
  cases result with
  | error e => exact h
  | ok value => exact hok value.1 value.2 rfl

theorem perform (h : s.Consistent) (op : StoreOp) : (s.perform op).Consistent := by
  cases op with
  | createProject path => exact h.after fun _ _ hok => h.createProject hok
  | deleteProject id => exact h.deleteProject id
  | insertChunks projectId chunks => exact h.after fun _ _ hok => h.insertChunks hok
  | insertEmbeddings ids vectors => exact h.after fun _ _ hok => h.insertEmbeddings hok
  | deleteChunks ids => exact h.keepChunks _
  | clearProject projectId => exact h.keepChunks _

end Consistent

theorem consistent_empty (dimensions : Nat) : Consistent { dimensions } where
  keyed := ⟨List.nodup_nil, List.forall_mem_nil _⟩
  unique := List.nodup_nil
  linked := ⟨List.forall_mem_nil _, List.forall_mem_nil _, List.forall_mem_nil _⟩

theorem Reachable.consistent (h : s.Reachable) : s.Consistent := by
  induction h with
  | opened dimensions => exact consistent_empty dimensions
  | performed op _ ih => exact ih.perform op
  | reopened dimensions _ ih =>
    exact ⟨⟨ih.keyed.nodup, ih.keyed.le_last⟩, ih.unique, ih.linked.owned, ih.linked.housed,
      ih.linked.numbered⟩

end Store

end CodeSearch
