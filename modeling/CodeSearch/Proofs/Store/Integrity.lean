import CodeSearch.Proofs.Keys
import CodeSearch.Proofs.Store.Reachable

/-!
# Integrity of the store

Paths, names and hashes tell rows apart, every reference leads to a row, and all vectors have the
width of the store. Each operation keeps this, whether it succeeds or fails and whatever ids it is
given, so it holds after every run of operations on a new store. An id that has been given out is
not given out again, not even when its row is gone.
-/

set_option autoImplicit false

namespace CodeSearch.Store
variable {s s' s'' : Store}

/-- All that an operation can do to a store. -/
inductive Change (s : Store) : Store → Prop where
  | nothing : Change s s
  | registered {path : String}
      (hfree : ∀ p ∈ s.projects, p.path ≠ path ∧ p.name ≠ ProjectName.ofPath path) :
      Change s { s with
        projects := s.projects ++ [⟨s.lastProjectId + 1, ProjectName.ofPath path, path, none⟩]
        lastProjectId := s.lastProjectId + 1 }
  | unregistered (id : Int) : Change s (s.deleteProject id).1
  | inserted {s' : Store} {projectId : Int} {chunks : List Chunk} {rows : List StoredChunk}
      (hinsert : s.insertChunks projectId chunks = .ok (s', rows)) : Change s s'
  | embedded {s' : Store} {ids : List Int} {vectors : List Vec} {total : Nat}
      (hembed : s.insertEmbeddings ids vectors = .ok (s', total)) : Change s s'
  | removed (kept : StoredChunk → Bool) : Change s (s.keepChunks kept)

theorem createProject_change {path : String} {project : Project}
    (h : s.createProject path = .ok (s', project)) : Change s s' := by
  unfold createProject at h
  split at h
  · cases h
    exact .nothing
  · rename_i hpath
    simp only at h
    split at h
    · cases h
    · rename_i hname
      cases h
      apply Change.registered
      intro p hp
      have hpath' := List.find?_eq_none.mp hpath p hp
      have hname' := List.find?_eq_none.mp hname p hp
      simp only [beq_iff_eq] at hpath' hname'
      exact ⟨hpath', hname'⟩

theorem after_change {β : Type} {result : Except StoreError (Store × β)}
    (hok : ∀ s' b, result = .ok (s', b) → Change s s') : Change s (s.after result) := by
  cases result with
  | error e => exact .nothing
  | ok value => exact hok value.1 value.2 rfl

theorem perform_change (s : Store) (op : StoreOp) : Change s (s.perform op) := by
  cases op with
  | createProject path => exact after_change fun _ _ h => createProject_change h
  | insertChunks projectId chunks => exact after_change fun _ _ h => .inserted h
  | insertEmbeddings ids vectors => exact after_change fun _ _ h => .embedded h
  | deleteProject id => exact .unregistered id
  | deleteChunks ids => exact .removed _
  | clearProject projectId => exact .removed _

section Projects

/-- Each project has an id, a path and a name to itself, and the name is that of its path. -/
structure Registered (s : Store) : Prop where
  ids : (s.projects.map Project.id).Nodup
  paths : (s.projects.map Project.path).Nodup
  names : (s.projects.map Project.name).Nodup
  named : ∀ p ∈ s.projects, p.name = ProjectName.ofPath p.path
  numbered : ∀ p ∈ s.projects, p.id ≤ s.lastProjectId

theorem Registered.register (h : s.Registered) {path : String}
    (hfree : ∀ p ∈ s.projects, p.path ≠ path ∧ p.name ≠ ProjectName.ofPath path) :
    Registered { s with
      projects := s.projects ++ [⟨s.lastProjectId + 1, ProjectName.ofPath path, path, none⟩]
      lastProjectId := s.lastProjectId + 1 } := by
  have hnew : ∀ p ∈ s.projects, p.id < s.lastProjectId + 1 := by
    intro p hp
    have := h.numbered p hp
    omega
  constructor
  · apply nodup_map_concat h.ids
    intro p hp
    exact Int.ne_of_lt (hnew p hp)
  · exact nodup_map_concat h.paths fun p hp => (hfree p hp).1
  · exact nodup_map_concat h.names fun p hp => (hfree p hp).2
  · intro p hp
    rcases List.mem_append.mp hp with hp | hp
    · exact h.named p hp
    · rw [List.mem_singleton.mp hp]
  · intro p hp
    rcases List.mem_append.mp hp with hp | hp
    · exact Int.le_of_lt (hnew p hp)
    · obtain rfl := List.mem_singleton.mp hp
      exact Int.le_refl _

theorem Registered.sublist (h : s.Registered) (hsub : s'.projects.Sublist s.projects)
    (hlast : s'.lastProjectId = s.lastProjectId) : s'.Registered := by
  constructor
  · exact h.ids.sublist (hsub.map _)
  · exact h.paths.sublist (hsub.map _)
  · exact h.names.sublist (hsub.map _)
  · exact fun p hp => h.named p (hsub.subset hp)
  · exact fun p hp => hlast ▸ h.numbered p (hsub.subset hp)

theorem Registered.change (h : s.Registered) (hchange : Change s s') : s'.Registered := by
  cases hchange with
  | registered hfree => exact h.register hfree
  | inserted hinsert =>
    rw [(insertChunks_ok hinsert).1]
    exact h.sublist (List.Sublist.refl _) rfl
  | embedded hembed =>
    obtain ⟨_, rfl, _⟩ := insertEmbeddings_ok hembed
    exact h.sublist (List.Sublist.refl _) rfl
  | unregistered id => exact h.sublist List.filter_sublist rfl
  | nothing => exact h
  | removed kept => exact h.sublist (List.Sublist.refl _) rfl

theorem registered_empty (dimensions : Nat) : Registered { dimensions } := by
  constructor
  · exact List.nodup_nil
  · exact List.nodup_nil
  · exact List.nodup_nil
  · exact List.forall_mem_nil _
  · exact List.forall_mem_nil _

theorem Reachable.registered (h : s.Reachable) : s.Registered := by
  induction h with
  | opened dimensions => exact registered_empty dimensions
  | performed op _ ih => exact ih.change (perform_change _ op)
  | reopened dimensions _ ih => exact ih.sublist (List.Sublist.refl _) rfl

end Projects

section Hashes

/-- Of several chunks with one hash, stored before or in the same call, the first is kept. -/
theorem insertChunksFrom_hashes {projectId : Int} {written rows : List StoredChunk}
    {chunks : List Chunk} (hnodup : (s.chunks.map StoredChunk.hash).Nodup)
    (h : insertChunksFrom projectId s written chunks = .ok (s', rows)) :
    (s'.chunks.map StoredChunk.hash).Nodup := by
  induction chunks generalizing s written with
  | nil =>
    cases h
    exact hnodup
  | cons c rest ih =>
    rw [insertChunksFrom] at h
    split at h
    · exact ih (s := { s with lastChunkId := s.lastChunkId + 1 }) hnodup h
    · rename_i hnew
      split at h
      · refine ih ?_ h
        apply nodup_map_concat hnodup
        intro d hd heq
        exact hnew (List.any_eq_true.mpr ⟨d, hd, beq_iff_eq.mpr heq⟩)
      · cases h

theorem Change.hashes (hchange : Change s s') (h : (s.chunks.map StoredChunk.hash).Nodup) :
    (s'.chunks.map StoredChunk.hash).Nodup := by
  cases hchange with
  | inserted hinsert => exact insertChunksFrom_hashes h hinsert
  | embedded hembed =>
    obtain ⟨_, rfl, _⟩ := insertEmbeddings_ok hembed
    exact h
  | unregistered id => exact h.sublist (List.filter_sublist.map _)
  | removed kept => exact h.sublist (List.filter_sublist.map _)
  | nothing => exact h
  | registered hfree => exact h

end Hashes

section Widths

theorem length_of_forM_checkDimensions {vectors : List Vec}
    (h : vectors.forM s.checkDimensions = .ok ()) : ∀ v ∈ vectors, v.length = s.dimensions := by
  induction vectors with
  | nil => exact List.forall_mem_nil _
  | cons v rest ih =>
    change (s.checkDimensions v >>= fun _ => rest.forM s.checkDimensions) = .ok () at h
    unfold checkDimensions at h
    split at h
    · rename_i hv
      exact List.forall_mem_cons.mpr ⟨hv, ih h⟩
    · cases h

theorem insertEmbeddingsFrom_vectors {written total : Nat} {pairs : List (Int × Vec)}
    (h : insertEmbeddingsFrom s written pairs = .ok (s', total)) :
    ∀ e ∈ s'.embeddings, e ∈ s.embeddings ∨ e.vector ∈ pairs.map Prod.snd := by
  induction pairs generalizing s written with
  | nil =>
    cases h
    exact fun e he => Or.inl he
  | cons pair rest ih =>
    obtain ⟨id, vector⟩ := pair
    rw [insertEmbeddingsFrom] at h
    intro e he
    split at h
    · exact (ih h e he).imp_right (List.mem_cons_of_mem _)
    · split at h
      · rcases ih h e he with hbefore | hlater
        · rcases List.mem_append.mp hbefore with hold | hnew
          · exact Or.inl hold
          · rw [List.mem_singleton.mp hnew]
            exact Or.inr List.mem_cons_self
        · exact Or.inr (List.mem_cons_of_mem _ hlater)
      · cases h

def Uniform (s : Store) : Prop := ∀ e ∈ s.embeddings, e.vector.length = s.dimensions

theorem Uniform.insertEmbeddings (hwide : s.Uniform) {ids : List Int} {vectors : List Vec}
    {total : Nat} (h : s.insertEmbeddings ids vectors = .ok (s', total)) : s'.Uniform := by
  obtain ⟨_, hs', _⟩ := insertEmbeddings_ok h
  have hdimensions : s'.dimensions = s.dimensions := by rw [hs']
  unfold Store.insertEmbeddings at h
  split at h
  · cases h
  · split at h
    · cases h
    · rename_i hchecked
      intro e he
      rw [hdimensions]
      rcases insertEmbeddingsFrom_vectors h e he with hold | hnew
      · exact hwide e hold
      · obtain ⟨pair, hpair, heq⟩ := List.mem_map.mp hnew
        rw [← heq]
        exact length_of_forM_checkDimensions hchecked _ (List.of_mem_zip hpair).2

theorem Change.dimensions (hchange : Change s s') : s'.dimensions = s.dimensions := by
  cases hchange with
  | inserted hinsert => rw [(insertChunks_ok hinsert).1]
  | embedded hembed =>
    obtain ⟨_, rfl, _⟩ := insertEmbeddings_ok hembed
    rfl
  | _ => rfl

theorem Uniform.change (h : s.Uniform) (hchange : Change s s') : s'.Uniform := by
  cases hchange with
  | inserted hinsert =>
    rw [(insertChunks_ok hinsert).1]
    exact h
  | embedded hembed => exact h.insertEmbeddings hembed
  | unregistered id => exact fun e he => h e (keepChunks_embeddings_sublist.subset he)
  | removed kept => exact fun e he => h e (keepChunks_embeddings_sublist.subset he)
  | nothing => exact h
  | registered hfree => exact h

end Widths

section Ids
variable {α : Type} {id : α → Int}

/-- A table some time later: a row that was not there has an id beyond those given out. -/
structure Grown (id : α → Int) (rows : List α) (last : Int) (rows' : List α) (last' : Int) :
    Prop where
  le_last : last ≤ last'
  old_or_new : ∀ r ∈ rows', r ∈ rows ∨ last < id r

theorem Grown.refl (rows : List α) (last : Int) : Grown id rows last rows last :=
  ⟨Int.le_refl _, fun _ hr => Or.inl hr⟩

theorem Grown.trans {rows rows' rows'' : List α} {last last' last'' : Int}
    (h : Grown id rows last rows' last') (h' : Grown id rows' last' rows'' last'') :
    Grown id rows last rows'' last'' := by
  have hle := h.le_last
  have hle' := h'.le_last
  constructor
  · omega
  · intro r hr
    rcases h'.old_or_new r hr with hold | hnew
    · exact h.old_or_new r hold
    · right
      omega

/-- A row found under an id that was in use before is that very row, and has been there all the
time. -/
def KeepsIds (id : α → Int) (first middle last : List α) : Prop :=
  ∀ r ∈ first, ∀ r' ∈ last, id r' = id r → r' = r ∧ r ∈ middle

theorem Grown.keepsIds {first middle last : List α} {n n' n'' : Int}
    (hnodup : (first.map id).Nodup) (hnumbered : ∀ r ∈ first, id r ≤ n)
    (h : Grown id first n middle n') (h' : Grown id middle n' last n'') :
    KeepsIds id first middle last := by
  intro r hr r' hr' hid
  have hle := hnumbered r hr
  have hn := h.le_last
  rcases h'.old_or_new r' hr' with hmiddle | hnew
  · rcases h.old_or_new r' hmiddle with hfirst | hnew
    · obtain rfl := List.inj_on_of_nodup_map hnodup hfirst hr hid
      exact ⟨rfl, hmiddle⟩
    · omega
  · omega

def ProjectsGrown (s s' : Store) : Prop :=
  Grown Project.id s.projects s.lastProjectId s'.projects s'.lastProjectId

def ChunksGrown (s s' : Store) : Prop :=
  Grown StoredChunk.id s.chunks s.lastChunkId s'.chunks s'.lastChunkId

theorem Later.grown (h : Later s s') : ChunksGrown s s' := ⟨h.le_last, h.old_or_new⟩

theorem Change.chunksGrown (hchange : Change s s') : ChunksGrown s s' := by
  cases hchange with
  | inserted hinsert => exact (later_insertChunks hinsert).grown
  | embedded hembed => exact (later_insertEmbeddings hembed).grown
  | removed kept => exact (later_keepChunks kept).grown
  | unregistered id => exact ⟨Int.le_refl _, fun _ hc => Or.inl (List.mem_filter.mp hc).1⟩
  | nothing => exact .refl _ _
  | registered hfree => exact .refl _ _

theorem Change.projectsGrown (hchange : Change s s') : ProjectsGrown s s' := by
  cases hchange with
  | registered hfree =>
    constructor
    · dsimp only
      omega
    · intro p hp
      rcases List.mem_append.mp hp with hold | hnew
      · exact Or.inl hold
      · rw [List.mem_singleton.mp hnew]
        right
        dsimp only
        omega
  | unregistered id => exact ⟨Int.le_refl _, fun _ hp => Or.inl (List.mem_filter.mp hp).1⟩
  | inserted hinsert =>
    rw [(insertChunks_ok hinsert).1]
    exact .refl _ _
  | embedded hembed =>
    obtain ⟨_, rfl, _⟩ := insertEmbeddings_ok hembed
    exact .refl _ _
  | nothing => exact .refl _ _
  | removed kept => exact .refl _ _

end Ids

section Runs

def run (s : Store) (ops : List StoreOp) : Store := ops.foldl perform s

theorem run_induct {P : Store → Prop} {s : Store} (h : P s)
    (hstep : ∀ s s', P s → Change s s' → P s') (ops : List StoreOp) : P (s.run ops) := by
  induction ops generalizing s with
  | nil => exact h
  | cons op rest ih => exact ih (hstep s _ h (perform_change s op))

theorem Reachable.run (h : s.Reachable) (ops : List StoreOp) : (s.run ops).Reachable := by
  induction ops generalizing s with
  | nil => exact h
  | cons op rest ih => exact ih (h.performed op)

theorem projectsGrown_run (s : Store) (ops : List StoreOp) : ProjectsGrown s (s.run ops) :=
  run_induct (P := ProjectsGrown s) (.refl _ _) (fun _ _ h hchange => h.trans hchange.projectsGrown)
    ops

theorem chunksGrown_run (s : Store) (ops : List StoreOp) : ChunksGrown s (s.run ops) :=
  run_induct (P := ChunksGrown s) (.refl _ _) (fun _ _ h hchange => h.trans hchange.chunksGrown)
    ops

/-- What holds of a store of embeddings of a width at any time. -/
structure Intact (dimensions : Nat) (s : Store) : Prop where
  projectPaths : (s.projects.map Project.path).Nodup
  projectNames : (s.projects.map Project.name).Nodup
  projectNamed : ∀ p ∈ s.projects, p.name = ProjectName.ofPath p.path
  hashes : (s.chunks.map StoredChunk.hash).Nodup
  chunkOfProject : ∀ c ∈ s.chunks, ∃ p ∈ s.projects, p.id = c.projectId
  embeddingOfChunk : ∀ e ∈ s.embeddings, ∃ c ∈ s.chunks, c.id = e.chunkId
  oneEmbedding : ∀ c ∈ s.chunks, s.embeddings.countP (fun e => e.chunkId == c.id) ≤ 1
  width : ∀ e ∈ s.embeddings, e.vector.length = dimensions

theorem intact_run (dimensions : Nat) (ops : List StoreOp) :
    Intact dimensions (run { dimensions } ops) := by
  have hreachable : (run { dimensions } ops).Reachable := (Reachable.opened dimensions).run ops
  have hregistered := hreachable.registered
  have hconsistent := hreachable.consistent
  have hhashes : ((run { dimensions } ops).chunks.map StoredChunk.hash).Nodup := by
    apply run_induct (P := fun s => (s.chunks.map StoredChunk.hash).Nodup)
    · exact List.nodup_nil
    · exact fun _ _ h hchange => hchange.hashes h
  have hdimensions : (run { dimensions } ops).dimensions = dimensions := by
    apply run_induct (P := fun s => s.dimensions = dimensions)
    · rfl
    · exact fun _ _ h hchange => hchange.dimensions.trans h
  have huniform : (run { dimensions } ops).Uniform := by
    apply run_induct (P := Uniform)
    · exact List.forall_mem_nil _
    · exact fun _ _ h hchange => h.change hchange
  constructor
  · exact hregistered.paths
  · exact hregistered.names
  · exact hregistered.named
  · exact hhashes
  · intro c hc
    obtain ⟨p, hp, heq⟩ := List.any_eq_true.mp (hconsistent.linked.housed c hc)
    exact ⟨p, hp, beq_iff_eq.mp heq⟩
  · intro e he
    obtain ⟨c, hc, heq⟩ := List.any_eq_true.mp (hconsistent.linked.owned e he)
    exact ⟨c, hc, beq_iff_eq.mp heq⟩
  · intro c _
    have hcount := List.nodup_iff_count_le_one.mp hconsistent.unique c.id
    rwa [List.count, List.countP_map] at hcount
  · intro e he
    rw [huniform e he, hdimensions]

/-- At any time of any run on a new store, with operations that succeed or fail, the store is
intact; and at any two later times no other row has an id that was in use at the first, nor has the
row itself if it was gone in between. -/
theorem run_intact_and_keeps_ids (dimensions : Nat) (ops between later : List StoreOp) :
    let first := run { dimensions } ops
    let middle := first.run between
    let last := middle.run later
    Intact dimensions first ∧
      KeepsIds Project.id first.projects middle.projects last.projects ∧
      KeepsIds StoredChunk.id first.chunks middle.chunks last.chunks := by
  intro first middle last
  have hreachable : first.Reachable := (Reachable.opened dimensions).run ops
  have hregistered := hreachable.registered
  have hkeyed := hreachable.consistent.keyed
  refine ⟨intact_run dimensions ops, ?_, ?_⟩
  · exact Grown.keepsIds hregistered.ids hregistered.numbered (projectsGrown_run first between)
      (projectsGrown_run middle later)
  · exact Grown.keepsIds hkeyed.nodup hkeyed.le_last (chunksGrown_run first between)
      (chunksGrown_run middle later)

end Runs

end CodeSearch.Store
