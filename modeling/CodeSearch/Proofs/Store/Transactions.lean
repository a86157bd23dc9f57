import CodeSearch.Proofs.Store.Reachable

/-!
# Transactions

The operations on a store as they are carried out: lookups and checks first, then row after row on a
working copy, which is dropped when a row is refused. What this comes to is what the operations say
that write all rows at once or none.
-/

set_option autoImplicit false

namespace CodeSearch

/-- The store as it was at the start, and the working copy with the rows written so far. -/
structure Transaction where
  start : Store
  copy : Store

namespace Transaction
variable {α : Type} {write : Store → α → Except StoreError Store}

def fresh (s : Store) : Transaction := ⟨s, s⟩

/-- Writes what is left. The copy is kept in the end, or dropped at the first refusal. -/
def finish (write : Store → α → Except StoreError Store) (t : Transaction) :
    List α → Store × Option StoreError
  | [] => (t.copy, none)
  | x :: rest =>
    match write t.copy x with
    | .error e => (t.start, some e)
    | .ok copy => finish write { t with copy } rest

theorem finish_eq (t : Transaction) (items : List α) :
    t.finish write items =
      match items.foldlM write t.copy with
      | .ok s => (s, none)
      | .error e => (t.start, some e) := by
  induction items generalizing t with
  | nil => rfl
  | cons x rest ih =>
    rw [finish, List.foldlM_cons]
    cases hx : write t.copy x with
    | error e => rfl
    | ok copy => exact ih { t with copy }

end Transaction

/-- Of writes that come to a refusal, those in front of it have been made. -/
theorem exists_refused_of_foldlM {α : Type} {write : Store → α → Except StoreError Store}
    {s : Store} {items : List α} {e : StoreError} (h : items.foldlM write s = .error e) :
    ∃ done x rest copy, items = done ++ x :: rest ∧ done.foldlM write s = .ok copy ∧
      write copy x = .error e := by
  induction items generalizing s with
  | nil => cases h
  | cons y rest ih =>
    rw [List.foldlM_cons] at h
    cases hy : write s y with
    | error e' =>
      rw [hy] at h
      cases h
      exact ⟨[], y, rest, s, rfl, rfl, hy⟩
    | ok s' =>
      rw [hy] at h
      obtain ⟨done, x, later, copy, rfl, hdone, hx⟩ := ih h
      refine ⟨y :: done, x, later, copy, rfl, ?_, hx⟩
      rw [List.foldlM_cons, hy]
      exact hdone

/-- Why something failed, if it did. -/
def failure? {ε β : Type} : Except ε β → Option ε
  | .ok _ => none
  | .error e => some e

namespace Store
variable {s s' copy : Store}

section Rows

def writeProject (s : Store) (path : String) : Except StoreError Store :=
  match s.projects.find? fun p => p.name == ProjectName.ofPath path with
  | some existing => .error (.nameTaken (ProjectName.ofPath path) existing.path)
  | none =>
    .ok { s with
      projects := s.projects ++ [⟨s.lastProjectId + 1, ProjectName.ofPath path, path, none⟩]
      lastProjectId := s.lastProjectId + 1 }

/-- Writes a chunk unless its hash is stored already. It takes an id in any case. -/
def writeChunk (projectId : Int) (s : Store) (c : Chunk) : Except StoreError Store :=
  let id := s.lastChunkId + 1
  if s.hasHash c.hash then .ok { s with lastChunkId := id }
  else if s.hasProject projectId then
    .ok { s with chunks := s.chunks ++ [row id projectId c], lastChunkId := id }
  else .error .foreignKey

/-- Writes an embedding unless the chunk has one already. -/
def writeEmbedding (s : Store) : Int × Vec → Except StoreError Store
  | (id, vector) =>
    if s.hasEmbedding id then .ok s
    else if s.hasChunk id then .ok { s with embeddings := s.embeddings ++ [⟨id, vector⟩] }
    else .error .foreignKey

def removeChunk (s : Store) (id : Int) : Except StoreError Store :=
  .ok (s.keepChunks fun c => c.id != id)

/-- Carries out an operation row by row; what is left of the store, and why it was refused. -/
def carryOut (s : Store) : StoreOp → Store × Option StoreError
  | .createProject path =>
    (Transaction.fresh s).finish writeProject (if (s.projectAt? path).isSome then [] else [path])
  | .insertChunks projectId chunks => (Transaction.fresh s).finish (writeChunk projectId) chunks
  | .insertEmbeddings ids vectors =>
    if ids.length ≠ vectors.length then (s, some (.embeddingCount ids.length vectors.length))
    else match vectors.find? fun v => v.length != s.dimensions with
      | some v => (s, some (.dimension s.dimensions v.length))
      | none => (Transaction.fresh s).finish writeEmbedding (ids.zip vectors)
  | .deleteChunks ids => (Transaction.fresh s).finish removeChunk ids
  | .deleteProject id => ((s.deleteProject id).1, none)
  | .clearProject projectId => ((s.clearProject projectId).1, none)

/-- Why an operation fails, if it does. -/
def refusal? (s : Store) : StoreOp → Option StoreError
  | .createProject path => failure? (s.createProject path)
  | .insertChunks projectId chunks => failure? (s.insertChunks projectId chunks)
  | .insertEmbeddings ids vectors => failure? (s.insertEmbeddings ids vectors)
  | .deleteProject _ | .deleteChunks _ | .clearProject _ => none

end Rows

section Agreement

theorem finish_of_foldlM {α β : Type} {write : Store → α → Except StoreError Store}
    {items : List α} {result : Except StoreError (Store × β)}
    (h : result.map Prod.fst = items.foldlM write s) :
    (Transaction.fresh s).finish write items = (s.after result, failure? result) := by
  rw [Transaction.finish_eq]
  change (match items.foldlM write s with
    | .ok s' => (s', none)
    | .error e => (s, some e)) = _
  rw [← h]
  cases result with
  | error e => rfl
  | ok value => rfl

theorem insertChunksFrom_eq_foldlM (projectId : Int) (s : Store) (written : List StoredChunk)
    (chunks : List Chunk) :
    (insertChunksFrom projectId s written chunks).map Prod.fst =
      chunks.foldlM (writeChunk projectId) s := by
  induction chunks generalizing s written with
  | nil => rfl
  | cons c rest ih =>
    rw [insertChunksFrom, List.foldlM_cons, writeChunk]
    by_cases hhas : s.hasHash c.hash = true
    · have hhas' : Store.hasHash { s with lastChunkId := s.lastChunkId + 1 } c.hash = true := hhas
      rw [if_pos hhas, if_pos hhas']
      exact ih _ _
    · have hhas' : ¬ Store.hasHash { s with lastChunkId := s.lastChunkId + 1 } c.hash = true := hhas
      rw [if_neg hhas, if_neg hhas']
      by_cases hproject : s.hasProject projectId = true
      · have hproject' : Store.hasProject { s with lastChunkId := s.lastChunkId + 1 } projectId =
            true := hproject
        rw [if_pos hproject, if_pos hproject']
        exact ih _ _
      · have hproject' : ¬ Store.hasProject { s with lastChunkId := s.lastChunkId + 1 } projectId =
            true := hproject
        rw [if_neg hproject, if_neg hproject']
        rfl

theorem insertEmbeddingsFrom_eq_foldlM (s : Store) (written : Nat) (pairs : List (Int × Vec)) :
    (insertEmbeddingsFrom s written pairs).map Prod.fst = pairs.foldlM writeEmbedding s := by
  induction pairs generalizing s written with
  | nil => rfl
  | cons pair rest ih =>
    obtain ⟨id, vector⟩ := pair
    rw [insertEmbeddingsFrom, List.foldlM_cons, writeEmbedding]
    by_cases hhas : s.hasEmbedding id = true
    · rw [if_pos hhas, if_pos hhas]
      exact ih _ _
    · rw [if_neg hhas, if_neg hhas]
      by_cases hchunk : s.hasChunk id = true
      · rw [if_pos hchunk, if_pos hchunk]
        exact ih _ _
      · rw [if_neg hchunk, if_neg hchunk]
        rfl

/-- The first vector of another width is what the check complains of. -/
theorem forM_checkDimensions_eq (s : Store) (vectors : List Vec) :
    vectors.forM s.checkDimensions =
      match vectors.find? fun v => v.length != s.dimensions with
      | some v => .error (.dimension s.dimensions v.length)
      | none => .ok () := by
  induction vectors with
  | nil => rfl
  | cons v rest ih =>
    change (s.checkDimensions v >>= fun _ => rest.forM s.checkDimensions) = _
    rw [checkDimensions, List.find?_cons]
    by_cases hv : v.length = s.dimensions
    · rw [if_pos hv, bne_eq_false_iff_eq.mpr hv]
      exact ih
    · rw [if_neg hv, bne_iff_ne.mpr hv]
      rfl

theorem keepChunks_keepChunks (s : Store) (p q : StoredChunk → Bool) :
    (s.keepChunks p).keepChunks q = s.keepChunks fun c => p c && q c := by
  have hchunks : (s.chunks.filter p).filter q = s.chunks.filter fun c => p c && q c := by
    rw [List.filter_filter]
    simp only [Bool.and_comm]
  simp only [keepChunks, dropOrphans, hchunks, List.filter_filter]
  congr 1
  apply List.filter_congr
  intro e _
  -- An embedding whose chunk is kept by both is kept by the first alone.
  apply Bool.and_eq_left_iff_imp.mpr
  intro hkept
  obtain ⟨c, hc, hid⟩ := List.any_eq_true.mp hkept
  obtain ⟨hmem, hboth⟩ := List.mem_filter.mp hc
  exact List.any_eq_true.mpr ⟨c, List.mem_filter.mpr ⟨hmem, (Bool.and_eq_true_iff.mp hboth).1⟩, hid⟩

theorem keepChunks_all (howned : ∀ e ∈ s.embeddings, s.hasChunk e.chunkId = true) :
    (s.keepChunks fun _ => true) = s := by
  have hembeddings : s.embeddings.filter (fun e => s.chunks.any fun c => c.id == e.chunkId) =
      s.embeddings := List.filter_eq_self.mpr howned
  simp only [keepChunks, dropOrphans, List.filter_true, hembeddings]

theorem foldlM_removeChunk (howned : ∀ e ∈ s.embeddings, s.hasChunk e.chunkId = true)
    (ids : List Int) :
    ids.foldlM removeChunk s = .ok (s.keepChunks fun c => !ids.contains c.id) := by
  induction ids generalizing s with
  | nil => exact congrArg Except.ok (keepChunks_all howned).symm
  | cons id rest ih =>
    rw [List.foldlM_cons]
    change rest.foldlM removeChunk (s.keepChunks fun c => c.id != id) = _
    have howned' : ∀ e ∈ (s.keepChunks fun c => c.id != id).embeddings,
        (s.keepChunks fun c => c.id != id).hasChunk e.chunkId = true := by
      intro e he
      exact (List.mem_filter.mp he).2
    rw [ih howned', keepChunks_keepChunks]
    simp only [List.contains_cons, Bool.not_or, bne]

/-- Row by row an operation comes to the same, and to nothing when it is refused. -/
theorem carryOut_eq (h : s.Reachable) (op : StoreOp) :
    s.carryOut op = (s.perform op, s.refusal? op) := by
  cases op with
  | createProject path =>
    apply finish_of_foldlM
    unfold createProject
    cases hpath : s.projectAt? path with
    | some existing => rfl
    | none =>
      change _ = [path].foldlM writeProject s
      rw [List.foldlM_cons, writeProject]
      dsimp only
      cases hname : s.projects.find? fun p => p.name == ProjectName.ofPath path with
      | some existing => rfl
      | none => rfl
  | insertChunks projectId chunks =>
    apply finish_of_foldlM
    exact insertChunksFrom_eq_foldlM projectId s [] chunks
  | insertEmbeddings ids vectors =>
    rw [carryOut, perform, refusal?, insertEmbeddings, forM_checkDimensions_eq]
    by_cases hlength : ids.length ≠ vectors.length
    · rw [if_pos hlength, if_pos hlength]
      rfl
    · rw [if_neg hlength, if_neg hlength]
      cases vectors.find? fun v => v.length != s.dimensions with
      | some v => rfl
      | none => exact finish_of_foldlM (insertEmbeddingsFrom_eq_foldlM s 0 _)
  | deleteChunks ids =>
    have hremoved := foldlM_removeChunk h.consistent.linked.owned ids
    rw [carryOut, Transaction.finish_eq]
    change (match ids.foldlM removeChunk s with
      | .ok s' => (s', none)
      | .error e => (s, some e)) = _
    rw [hremoved]
    rfl
  | deleteProject id => rfl
  | clearProject projectId => rfl

end Agreement

section Refusals

/-- Why an operation is refused, and at which of its rows. -/
inductive Refused (s : Store) : StoreOp → StoreError → Prop where
  | nameTaken {path : String} {p : Project} (hpath : ∀ q ∈ s.projects, q.path ≠ path)
      (hp : p ∈ s.projects) (hname : p.name = ProjectName.ofPath path) :
      Refused s (.createProject path) (.nameTaken p.name p.path)
  | unknownProject {projectId : Int} {chunks done rest : List Chunk} {c : Chunk} {copy : Store}
      (hsplit : chunks = done ++ c :: rest)
      (hdone : done.foldlM (writeChunk projectId) s = .ok copy)
      (hnew : copy.hasHash c.hash = false) (hnone : s.hasProject projectId = false) :
      Refused s (.insertChunks projectId chunks) .foreignKey
  | wrongCount {ids : List Int} {vectors : List Vec} (h : ids.length ≠ vectors.length) :
      Refused s (.insertEmbeddings ids vectors) (.embeddingCount ids.length vectors.length)
  | wrongWidth {ids : List Int} {vectors : List Vec} {v : Vec} (hv : v ∈ vectors)
      (hwidth : v.length ≠ s.dimensions) :
      Refused s (.insertEmbeddings ids vectors) (.dimension s.dimensions v.length)
  | unknownChunk {ids : List Int} {vectors : List Vec} {done rest : List (Int × Vec)} {id : Int}
      {v : Vec} {copy : Store} (hsplit : ids.zip vectors = done ++ (id, v) :: rest)
      (hdone : done.foldlM writeEmbedding s = .ok copy) (hnone : s.hasChunk id = false) :
      Refused s (.insertEmbeddings ids vectors) .foreignKey

theorem projects_of_foldlM_writeChunk {projectId : Int} {chunks : List Chunk}
    (h : chunks.foldlM (writeChunk projectId) s = .ok copy) : copy.projects = s.projects := by
  rw [← insertChunksFrom_eq_foldlM projectId s []] at h
  cases hinsert : insertChunksFrom projectId s [] chunks with
  | error e =>
    rw [hinsert] at h
    cases h
  | ok result =>
    rw [hinsert] at h
    cases h
    obtain ⟨_, _, hs, _⟩ := insertChunksFrom_ok hinsert
    rw [hs]

theorem chunks_of_foldlM_writeEmbedding {pairs : List (Int × Vec)}
    (h : pairs.foldlM writeEmbedding s = .ok copy) : copy.chunks = s.chunks := by
  rw [← insertEmbeddingsFrom_eq_foldlM s 0] at h
  cases hinsert : insertEmbeddingsFrom s 0 pairs with
  | error e =>
    rw [hinsert] at h
    cases h
  | ok result =>
    rw [hinsert] at h
    cases h
    obtain ⟨_, hs, _⟩ := insertEmbeddingsFrom_ok hinsert
    rw [hs]

theorem refused_createProject {path : String} {e : StoreError}
    (h : s.createProject path = .error e) : Refused s (.createProject path) e := by
  unfold createProject at h
  split at h
  · cases h
  · rename_i hpath
    dsimp only at h
    split at h
    · rename_i p hp
      cases h
      have hname := List.find?_some hp
      rw [beq_iff_eq] at hname
      rw [← hname]
      refine .nameTaken ?_ (List.mem_of_find?_eq_some hp) hname
      intro q hq
      have hne := List.find?_eq_none.mp hpath q hq
      simpa using hne
    · cases h

theorem refused_insertChunks {projectId : Int} {chunks : List Chunk} {e : StoreError}
    (h : s.insertChunks projectId chunks = .error e) :
    Refused s (.insertChunks projectId chunks) e := by
  have hfold : chunks.foldlM (writeChunk projectId) s = .error e := by
    rw [← insertChunksFrom_eq_foldlM projectId s []]
    exact congrArg (Except.map Prod.fst) h
  obtain ⟨done, c, rest, copy, hsplit, hdone, hc⟩ := exists_refused_of_foldlM hfold
  have hprojects := projects_of_foldlM_writeChunk hdone
  unfold writeChunk at hc
  dsimp only at hc
  split at hc
  · cases hc
  · rename_i hnew
    split at hc
    · cases hc
    · rename_i hnone
      cases hc
      refine .unknownProject hsplit hdone (eq_false_of_ne_true hnew) ?_
      rw [hasProject, ← hprojects]
      exact eq_false_of_ne_true hnone

theorem refused_insertEmbeddings {ids : List Int} {vectors : List Vec} {e : StoreError}
    (h : s.insertEmbeddings ids vectors = .error e) :
    Refused s (.insertEmbeddings ids vectors) e := by
  rw [insertEmbeddings, forM_checkDimensions_eq] at h
  split at h
  · rename_i hlength
    cases h
    exact .wrongCount hlength
  · cases hfind : vectors.find? fun v => v.length != s.dimensions with
    | some v =>
      rw [hfind] at h
      cases h
      have hwidth := List.find?_some hfind
      rw [bne_iff_ne] at hwidth
      exact .wrongWidth (List.mem_of_find?_eq_some hfind) hwidth
    | none =>
      rw [hfind] at h
      have hfold : (ids.zip vectors).foldlM writeEmbedding s = .error e := by
        rw [← insertEmbeddingsFrom_eq_foldlM s 0]
        exact congrArg (Except.map Prod.fst) h
      obtain ⟨done, ⟨id, v⟩, rest, copy, hsplit, hdone, hpair⟩ := exists_refused_of_foldlM hfold
      have hchunks := chunks_of_foldlM_writeEmbedding hdone
      unfold writeEmbedding at hpair
      dsimp only at hpair
      split at hpair
      · cases hpair
      · split at hpair
        · cases hpair
        · rename_i hnone
          cases hpair
          refine .unknownChunk hsplit hdone ?_
          rw [hasChunk, ← hchunks]
          exact eq_false_of_ne_true hnone

theorem failure?_eq_some_iff {ε β : Type} {result : Except ε β} {e : ε} :
    failure? result = some e ↔ result = .error e := by
  cases result with
  | error e' => simp [failure?]
  | ok b => simp [failure?]

theorem after_of_error {β : Type} {result : Except StoreError (Store × β)} {e : StoreError}
    (h : result = .error e) : s.after result = s := by
  rw [h]
  rfl

theorem refused_of_refusal? {op : StoreOp} {e : StoreError} (h : s.refusal? op = some e) :
    Refused s op e ∧ s.perform op = s := by
  cases op with
  | createProject path =>
    have herror := failure?_eq_some_iff.mp h
    exact ⟨refused_createProject herror, after_of_error herror⟩
  | insertChunks projectId chunks =>
    have herror := failure?_eq_some_iff.mp h
    exact ⟨refused_insertChunks herror, after_of_error herror⟩
  | insertEmbeddings ids vectors =>
    have herror := failure?_eq_some_iff.mp h
    exact ⟨refused_insertEmbeddings herror, after_of_error herror⟩
  | deleteProject id => cases h
  | deleteChunks ids => cases h
  | clearProject projectId => cases h

end Refusals

end Store

end CodeSearch
