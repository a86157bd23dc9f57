import CodeSearch.Proofs.Indexing.Runs
import CodeSearch.Proofs.Store.Atop

/-!
# Runs atop another store

A run of a project that is alone in its store, and the same run after other projects have been
indexed. As long as the chunks of its files are not known to what was there before, the same moves
do the same, on the rows that have been put behind the others.
-/

set_option autoImplicit false

namespace CodeSearch

/-- What is answered does not depend on the ids of the chunks. -/
def Embedder.Blind (embedder : Embedder) : Prop :=
  ∀ chunks last p, embedder (chunks.map (StoredChunk.moved last p)) = embedder chunks

theorem EmbeddingClient.blind_embedChunks (c : EmbeddingClient) :
    Embedder.Blind c.embedChunks := by
  intro chunks last p
  simp only [embedChunks, List.map_map]
  rfl

/-- The same cut for another project. -/
def Cut.under (p : Int) : Cut → Cut
  | made chunks => made (chunks.map (Chunk.under p))
  | died reason => died reason

theorem Cut.chunks_under (p : Int) (cut : Cut) :
    (cut.under p).chunks = cut.chunks.map (Chunk.under p) := by
  cases cut <;> rfl

namespace FileTask
variable {b s s' : Store} {p q : Int} {chunks : List Chunk} {t t' : FileTask}

/-- The task over the rows as they have been moved. -/
def moved (last p : Int) : FileTask → FileTask
  | cut _ chunks => cut p (chunks.map (Chunk.under p))
  | stored n pending => stored n (pending.map (StoredChunk.moved last p))
  | embedded n pending vectors => embedded n (pending.map (StoredChunk.moved last p)) vectors
  | failing pending e => failing (pending.map (StoredChunk.moved last p)) e
  | done result => done result

theorem moved_start (last p q : Int) (cut : Cut) :
    (start q cut).moved last p = start p (cut.under p) := by
  cases cut <;> rfl

theorem result?_moved (last p : Int) (t : FileTask) : (t.moved last p).result? = t.result? := by
  cases t <;> rfl

theorem StepsTo.dimensions (h : StepsTo s t s' t') : s'.dimensions = s.dimensions := by
  cases h with
  | nothingPending hinsert | inserted hinsert => rw [(Store.insertChunks_ok hinsert).1]
  | kept hkeep =>
    obtain ⟨_, rfl, _⟩ := Store.insertEmbeddings_ok hkeep
    rfl
  | _ => rfl

/-- A task of a file with these chunks, in a store in which ids begin at one. -/
structure Lone (q : Int) (chunks : List Chunk) (t : FileTask) : Prop where
  fresh : ∀ q' chunks', t = .cut q' chunks' → q' = q ∧ chunks' = chunks
  pendingId : ∀ c ∈ t.pending, 0 < c.id

theorem StepsTo.lone (h : StepsTo s t s' t') (hs : s.Lone q) (ht : t.Lone q chunks) :
    s'.Lone q ∧ t'.Lone q chunks := by
  have hs' : s'.Lone q := by
    refine ⟨?_, ?_, ?_, Int.le_trans hs.last h.later.le_last⟩
    · intro c hc
      rcases h.rows hc with hold | ⟨_, q', chunks', htask, id, d, _, rfl⟩
      · exact hs.project c hold
      · exact (ht.fresh q' chunks' htask).1
    · intro c hc
      rcases h.later.old_or_new c hc with hold | hnew
      · exact hs.chunkId c hold
      · exact Int.lt_of_le_of_lt hs.last hnew
    · intro e he
      have hhas : s'.hasEmbedding e.chunkId = true :=
        Store.hasEmbedding_iff.mpr (List.mem_map_of_mem he)
      cases hbefore : s.hasEmbedding e.chunkId with
      | true =>
        obtain ⟨d, hd, heq⟩ := List.mem_map.mp (Store.hasEmbedding_iff.mp hbefore)
        rw [← heq]
        exact hs.embeddingId d hd
      | false =>
        obtain ⟨n, pending, vectors, _, rfl, hid, _⟩ := h.embeds hhas hbefore
        obtain ⟨c, hc, heq⟩ := List.mem_map.mp hid
        rw [← heq]
        exact ht.pendingId c hc
  refine ⟨hs', ?_, ?_⟩
  · intro q' chunks' htask
    exact absurd htask (h.ne_cut q' chunks')
  · intro c hc
    rcases h.pending hc with hold | ⟨_, _, _, _, hc'⟩
    · exact ht.pendingId c hold
    · exact hs'.chunkId c (Store.mem_unembedded.mp hc').1

theorem map_id_moved (last p : Int) (pending : List StoredChunk) :
    (pending.map (StoredChunk.moved last p)).map StoredChunk.id =
      (pending.map StoredChunk.id).map (last + ·) := by
  rw [List.map_map, List.map_map]
  rfl

theorem insert_atop (hb : b.Ground p) (hregistered : s.hasProject q = true) (hs : s.Lone q)
    (hnew : ∀ c ∈ chunks, b.hasHash c.hash = false) :
    insert (s.atop b p) p (chunks.map (Chunk.under p)) =
      ((insert s q chunks).1.atop b p, (insert s q chunks).2.moved b.lastChunkId p) := by
  cases chunks with
  | nil => rfl
  | cons first rest =>
    obtain ⟨⟨s', rows⟩, hinsert⟩ : ∃ result, s.insertChunks q (first :: rest) = .ok result := by
      obtain ⟨rows, hinsert, _⟩ := Store.insertChunks_novel hregistered (first :: rest)
      exact ⟨_, hinsert⟩
    have habove := hb.insertChunks_atop hnew hinsert
    have hpending := hb.unembedded_atop (hs.insertChunks hregistered hinsert) first.filePath
    have hfile : (first.under p).filePath = first.filePath := rfl
    rw [List.map_cons] at habove ⊢
    simp only [insert, hinsert, habove, hfile, hpending]
    cases s'.unembedded q first.filePath with
    | nil => rfl
    | cons c more => simp only [List.map_cons, List.length_map, moved]

/-- The same step on the rows alone and on the rows above others, if what it stores is not known
below. -/
theorem step_atop (hb : b.Ground p) (hwidth : b.dimensions = s.dimensions)
    (hregistered : s.hasProject q = true) (hs : s.Lone q) (ht : t.Lone q chunks)
    (hnew : ∀ c ∈ chunks, b.hasHash c.hash = false) {embedder : Embedder}
    (hblind : Embedder.Blind embedder) :
    (t.moved b.lastChunkId p).step embedder (s.atop b p) =
      ((t.step embedder s).1.atop b p, (t.step embedder s).2.moved b.lastChunkId p) := by
  cases t with
  | cut q' chunks' =>
    obtain ⟨rfl, rfl⟩ := ht.fresh q' chunks' rfl
    exact insert_atop hb hregistered hs hnew
  | stored n pending =>
    simp only [moved, step, embed, hblind pending]
    cases embedder pending <;> rfl
  | embedded n pending vectors =>
    have hids : ∀ id ∈ pending.map StoredChunk.id, 0 < id := List.forall_mem_map.mpr ht.pendingId
    simp only [moved, step, keep, map_id_moved, hb.insertEmbeddings_atop hwidth hids]
    cases s.insertEmbeddings (pending.map StoredChunk.id) vectors <;> rfl
  | failing pending e =>
    have hids : ∀ id ∈ pending.map StoredChunk.id, 0 < id := List.forall_mem_map.mpr ht.pendingId
    simp only [moved, step, map_id_moved, hb.deleteChunks_atop hs hids]
  | done result => rfl

end FileTask

namespace IndexRun
variable {b : Store} {p : Int} {cut above : String → Cut} {r : IndexRun}

/-- The run over the rows as they have been moved. -/
def atop (r : IndexRun) (b : Store) (p : Int) : IndexRun where
  projectId := p
  store := r.store.atop b p
  files := r.files.map fun f => { f with task := f.task.moved b.lastChunkId p }
  waiting := r.waiting

/-- A run of the only project that has rows in its store. -/
structure Lone (cut : String → Cut) (r : IndexRun) : Prop where
  registered : r.store.hasProject r.projectId = true
  store : r.store.Lone r.projectId
  tasks : ∀ f ∈ r.files, f.task.Lone r.projectId (cut f.path).chunks

theorem Lone.run (h : Lone cut r) (moves : List Move) : Lone cut (r.run cut moves) := by
  apply run_induct (I := Lone cut)
  · intro _ r' place f s' t' _ h hplace hsteps
    have hf := List.mem_of_getElem? hplace
    obtain ⟨hs', ht'⟩ := hsteps.lone h.store (h.tasks f hf)
    refine ⟨?_, hs', ?_⟩
    · rw [Store.hasProject, hsteps.projects]
      exact h.registered
    · intro g hg
      rcases List.mem_or_eq_of_mem_set hg with hg | rfl
      · exact h.tasks g hg
      · exact ht'
  · intro _ r' group rest _ h _
    refine ⟨h.registered, h.store, ?_⟩
    intro f hf
    rcases List.mem_append.mp hf with hf | hf
    · exact h.tasks f hf
    · obtain ⟨path, _, rfl⟩ := List.mem_map.mp hf
      refine ⟨?_, by simp⟩
      intro q' chunks' htask
      obtain ⟨rfl, hmade⟩ := FileTask.start_eq_cut_iff.mp htask
      exact ⟨rfl, by rw [hmade, Cut.chunks]⟩
  · exact h

theorem isQuiet_atop : (r.atop b p).isQuiet = r.isQuiet := by
  simp only [isQuiet, atop, List.all_map]
  congr 1
  funext f
  exact congrArg Option.isSome (FileTask.result?_moved b.lastChunkId p f.task)

theorem dimensions_run (cut : String → Cut) (r : IndexRun) (moves : List Move) :
    (r.run cut moves).store.dimensions = r.store.dimensions :=
  run_induct (I := fun r' => r'.store.dimensions = r.store.dimensions)
    (fun _ _ _ _ _ _ _ h _ hsteps => hsteps.dimensions.trans h) (fun _ _ _ _ _ h _ => h) rfl moves

/-- The run has its store to itself, and what it stores is not known to `b`. -/
structure Apart (b : Store) (cut : String → Cut) (r : IndexRun) : Prop where
  lone : Lone cut r
  unknown : ∀ path ∈ r.taken ++ r.waiting.flatten, ∀ c ∈ (cut path).chunks,
    b.hasHash c.hash = false
  width : b.dimensions = r.store.dimensions

namespace Apart

theorem run (h : Apart b cut r) (moves : List Move) : Apart b cut (r.run cut moves) where
  lone := h.lone.run moves
  unknown := by
    rw [taken_append_waiting]
    exact h.unknown
  width := h.width.trans (dimensions_run cut r moves).symm

theorem unknown_file (h : Apart b cut r) {f : RunFile} (hf : f ∈ r.files) :
    ∀ c ∈ (cut f.path).chunks, b.hasHash c.hash = false :=
  h.unknown f.path (List.mem_append_left _ (List.mem_map_of_mem hf))

theorem step_atop (h : Apart b cut r) (hb : b.Ground p) (place : Nat) {embedder : Embedder}
    (hblind : Embedder.Blind embedder) :
    (r.atop b p).step place embedder = (r.step place embedder).atop b p := by
  cases hplace : r.files[place]? with
  | none => simp only [step, atop, List.getElem?_map, hplace, Option.map_none]
  | some f =>
    have hf := List.mem_of_getElem? hplace
    have habove : (r.atop b p).files[place]? =
        some { f with task := f.task.moved b.lastChunkId p } := by
      simp only [atop, List.getElem?_map, hplace, Option.map_some]
    have hstep := FileTask.step_atop hb h.width h.lone.registered h.lone.store (h.lone.tasks f hf)
      (h.unknown_file hf) hblind
    rw [step_eq hplace, step_eq habove]
    simp only [atop, hstep, List.map_set]

end Apart

theorem takeUp_atop (hcut : ∀ path, above path = (cut path).under p) :
    (r.atop b p).takeUp above = (r.takeUp cut).atop b p := by
  cases hwaiting : r.waiting with
  | nil => simp only [takeUp, atop, hwaiting]
  | cons group rest =>
    have hfresh : group.map (fun path => (⟨path, .start p (above path)⟩ : RunFile)) =
        (group.map fun path => (⟨path, .start r.projectId (cut path)⟩ : RunFile)).map
          fun f => { f with task := f.task.moved b.lastChunkId p } := by
      simp [hcut, FileTask.moved_start]
    have hwaiting' : (r.atop b p).waiting = group :: rest := hwaiting
    have hquiet := isQuiet_atop (r := r) (b := b) (p := p)
    simp only [takeUp, hwaiting, hquiet, hwaiting']
    split
    · simp only [atop, List.map_append, ← hfresh]
    · simp only [atop, hwaiting]

/-- Whatever the order of the moves. -/
theorem Apart.run_atop (h : Apart b cut r) (hb : b.Ground p)
    (hcut : ∀ path, above path = (cut path).under p) {moves : List Move}
    (hblind : ∀ place embedder, .step place embedder ∈ moves → Embedder.Blind embedder) :
    (r.atop b p).run above moves = (r.run cut moves).atop b p := by
  induction moves using List.reverseRecOn with
  | nil => rfl
  | append_singleton moves move ih =>
    have hbefore : ∀ place embedder, .step place embedder ∈ moves → Embedder.Blind embedder :=
      fun place embedder hmem => hblind place embedder (List.mem_append_left _ hmem)
    rw [run_append, run_append, ih hbefore]
    cases move with
    | step place embedder =>
      exact (h.run moves).step_atop hb place
        (hblind place embedder (List.mem_append_right _ (List.mem_singleton_self _)))
    | takeUp => exact takeUp_atop hcut

end IndexRun

end CodeSearch
