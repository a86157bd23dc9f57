import CodeSearch.Indexing.Task
import CodeSearch.Proofs.Store.Ids
import Mathlib

/-!
# Steps of a task

All that one step of a task can do, and what follows from that: what it leaves alone, where rows
come from and go to, and that a chunk without an embedding is left to nobody only if it was so
before.
-/

set_option autoImplicit false

namespace CodeSearch.FileTask
variable {s s' : Store} {t t' : FileTask}

@[simp] theorem start_made (projectId : Int) (chunks : List Chunk) :
    start projectId (.made chunks) = .cut projectId chunks := rfl

@[simp] theorem start_died (projectId : Int) (reason : String) :
    start projectId (.died reason) = .done (.error (.worker reason)) := rfl

theorem start_eq_cut_iff {projectId projectId' : Int} {cut : Cut} {chunks : List Chunk} :
    start projectId cut = .cut projectId' chunks ↔
      projectId = projectId' ∧ cut = .made chunks := by
  cases cut <;> simp

@[simp] theorem pending_start (projectId : Int) (cut : Cut) :
    (start projectId cut).pending = [] := by
  cases cut <;> rfl

/-- The chunks that a task has taken on, by their ids. -/
def owes (t : FileTask) : List Int := t.pending.map StoredChunk.id

/-- The chunks of the file are stored, and nothing has failed so far. -/
def OnTrack : FileTask → Prop
  | .stored _ _ | .embedded _ _ _ | .done (.ok _) => True
  | .cut _ _ | .failing _ _ | .done (.error _) => False

theorem not_onTrack_start (projectId : Int) (cut : Cut) : ¬ (start projectId cut).OnTrack := by
  cases cut <;> exact id

/-- Chunks of one file: this is what makes all that a task stores pending in it. -/
def OneFile (chunks : List Chunk) : Prop :=
  ∀ c ∈ chunks, ∀ d ∈ chunks, c.filePath = d.filePath

/-- A chunk that has no embedding after a step of a task is owed by the task then, or was there
before without being owed by it. -/
def Accounts (s : Store) (t : FileTask) (s' : Store) (t' : FileTask) : Prop :=
  ∀ c ∈ s'.chunks, s'.hasEmbedding c.id = true ∨ c.id ∈ t'.owes ∨
    (c ∈ s.chunks ∧ s.hasEmbedding c.id = false ∧ c.id ∉ t.owes)

/-- What a step may do to the store and the task, whatever a request comes to. -/
inductive StepsTo (s : Store) : FileTask → Store → FileTask → Prop where
  | blank {projectId : Int} : StepsTo s (.cut projectId []) s (.done (.ok {}))
  | refused {projectId : Int} {first : Chunk} {rest : List Chunk} {e : StoreError}
      (hinsert : s.insertChunks projectId (first :: rest) = .error e) :
      StepsTo s (.cut projectId (first :: rest)) s (.done (.error (.store e)))
  | nothingPending {s' : Store} {projectId : Int} {first : Chunk} {rest : List Chunk}
      {rows : List StoredChunk}
      (hinsert : s.insertChunks projectId (first :: rest) = .ok (s', rows))
      (hnone : s'.unembedded projectId first.filePath = []) :
      StepsTo s (.cut projectId (first :: rest)) s' (.done (.ok {}))
  | inserted {s' : Store} {projectId : Int} {first : Chunk} {rest : List Chunk}
      {rows : List StoredChunk}
      (hinsert : s.insertChunks projectId (first :: rest) = .ok (s', rows)) :
      StepsTo s (.cut projectId (first :: rest)) s'
        (.stored rows.length (s'.unembedded projectId first.filePath))
  | answered {n : Nat} {pending : List StoredChunk} {vectors : List Vec} :
      StepsTo s (.stored n pending) s (.embedded n pending vectors)
  | unanswered {n : Nat} {pending : List StoredChunk} {e : EmbedError} :
      StepsTo s (.stored n pending) s (.failing pending (.embedding e))
  | kept {s' : Store} {n total : Nat} {pending : List StoredChunk} {vectors : List Vec}
      (hkeep : s.insertEmbeddings (pending.map StoredChunk.id) vectors = .ok (s', total)) :
      StepsTo s (.embedded n pending vectors) s' (.done (.ok ⟨n, total⟩))
  | notKept {n : Nat} {pending : List StoredChunk} {vectors : List Vec} {e : StoreError} :
      StepsTo s (.embedded n pending vectors) s (.failing pending (.store e))
  | cleaned {pending : List StoredChunk} {e : IndexError} :
      StepsTo s (.failing pending e) (s.deleteChunks (pending.map StoredChunk.id)).1
        (.done (.error e))
  | stays {result : Except IndexError FileOutcome} : StepsTo s (.done result) s (.done result)

theorem step_stepsTo (embedder : Embedder) (s : Store) (t : FileTask) :
    StepsTo s t (step embedder s t).1 (step embedder s t).2 := by
  cases t with
  | cut projectId chunks =>
    simp only [step, insert]
    cases chunks with
    | nil => exact .blank
    | cons first rest =>
      cases hinsert : s.insertChunks projectId (first :: rest) with
      | error e => exact .refused hinsert
      | ok result =>
        obtain ⟨s', rows⟩ := result
        simp only
        cases hpending : s'.unembedded projectId first.filePath with
        | nil => exact .nothingPending hinsert hpending
        | cons c more =>
          have hstored := StepsTo.inserted hinsert
          rwa [hpending] at hstored
  | stored n pending =>
    simp only [step, embed]
    cases embedder pending with
    | ok vectors => exact .answered
    | error e => exact .unanswered
  | embedded n pending vectors =>
    simp only [step, keep]
    cases hkeep : s.insertEmbeddings (pending.map StoredChunk.id) vectors with
    | ok result => exact .kept hkeep
    | error e => exact .notKept
  | failing pending e => exact .cleaned
  | done result => exact .stays

namespace StepsTo

theorem projects (h : StepsTo s t s' t') : s'.projects = s.projects := by
  cases h with
  | nothingPending hinsert | inserted hinsert => rw [(Store.insertChunks_ok hinsert).1]
  | kept hkeep =>
    obtain ⟨_, rfl, _⟩ := Store.insertEmbeddings_ok hkeep
    rfl
  | _ => rfl

theorem later (h : StepsTo s t s' t') : Store.Later s s' := by
  cases h with
  | nothingPending hinsert | inserted hinsert => exact Store.later_insertChunks hinsert
  | kept hkeep => exact Store.later_insertEmbeddings hkeep
  | cleaned => exact Store.later_keepChunks _
  | _ => exact Store.Later.refl s

theorem keyed (h : StepsTo s t s' t') (hkeyed : s.Keyed) : s'.Keyed := by
  cases h with
  | nothingPending hinsert | inserted hinsert => exact hkeyed.insertChunks hinsert
  | kept hkeep => exact hkeyed.insertEmbeddings hkeep
  | cleaned => exact hkeyed.keepChunks _
  | _ => exact hkeyed

/-- A pending chunk was pending before the step, or is a row without embedding of the file. -/
theorem pending (h : StepsTo s t s' t') {c : StoredChunk} (hc : c ∈ t'.pending) :
    c ∈ t.pending ∨ ∃ projectId first rest, t = .cut projectId (first :: rest) ∧
      c ∈ s'.unembedded projectId first.filePath := by
  cases h with
  | inserted hinsert => exact Or.inr ⟨_, _, _, rfl, hc⟩
  | answered | unanswered | notKept => exact Or.inl hc
  | _ => exact absurd hc List.not_mem_nil

/-- A row was there before the step, or is made from one of the task's chunks. -/
theorem rows (h : StepsTo s t s' t') {c : StoredChunk} (hc : c ∈ s'.chunks) :
    c ∈ s.chunks ∨ t'.OnTrack ∧ ∃ projectId chunks, t = .cut projectId chunks ∧
      ∃ id, ∃ d ∈ chunks, c = Store.row id projectId d := by
  have hinserted : ∀ {projectId chunks rows}, s.insertChunks projectId chunks = .ok (s', rows) →
      c ∈ s.chunks ∨ ∃ id, ∃ d ∈ chunks, c = Store.row id projectId d := by
    intro projectId chunks rows hinsert
    obtain ⟨rfl, hrows⟩ := Store.insertChunks_ok hinsert
    exact (List.mem_append.mp hc).imp_right (hrows c)
  cases h with
  | nothingPending hinsert | inserted hinsert =>
    exact (hinserted hinsert).imp_right fun hrow => ⟨trivial, _, _, rfl, hrow⟩
  | kept hkeep =>
    obtain ⟨_, rfl, _⟩ := Store.insertEmbeddings_ok hkeep
    exact Or.inl hc
  | cleaned => exact Or.inl (List.mem_filter.mp hc).1
  | _ => exact Or.inl hc

/-- Only a cleanup takes a row away, and only one whose id is pending. -/
theorem mem_or_cleaned (h : StepsTo s t s' t') {c : StoredChunk} (hc : c ∈ s.chunks) :
    c ∈ s'.chunks ∨ ∃ e, t' = .done (.error e) ∧ c.id ∈ t.owes := by
  cases h with
  | nothingPending hinsert | inserted hinsert =>
    rw [(Store.insertChunks_ok hinsert).1]
    exact Or.inl (List.mem_append_left _ hc)
  | kept hkeep =>
    obtain ⟨_, rfl, _⟩ := Store.insertEmbeddings_ok hkeep
    exact Or.inl hc
  | @cleaned pending e =>
    by_cases howed : c.id ∈ pending.map StoredChunk.id
    · exact Or.inr ⟨e, rfl, howed⟩
    · apply Or.inl
      apply List.mem_filter.mpr
      exact ⟨hc, by simpa using howed⟩
  | _ => exact Or.inl hc

theorem hasEmbedding (h : StepsTo s t s' t') {c : StoredChunk} (hc : c ∈ s'.chunks)
    (hhas : s.hasEmbedding c.id = true) : s'.hasEmbedding c.id = true := by
  cases h with
  | nothingPending hinsert | inserted hinsert =>
    rw [(Store.insertChunks_ok hinsert).1]
    exact hhas
  | kept hkeep =>
    obtain ⟨_, rfl, _⟩ := Store.insertEmbeddings_ok hkeep
    rw [Store.hasEmbedding_iff] at hhas ⊢
    simp only [List.map_append]
    exact List.mem_append_left _ hhas
  | cleaned => exact (Store.keepChunks_hasEmbedding hc).trans hhas
  | _ => exact hhas

/-- Only a task that has it pending embeds a chunk, and is done then. -/
theorem embeds (h : StepsTo s t s' t') {id : Int} (hhas : s'.hasEmbedding id = true)
    (hnot : s.hasEmbedding id = false) :
    ∃ n pending vectors outcome, t = .embedded n pending vectors ∧
      id ∈ pending.map StoredChunk.id ∧ t' = .done (.ok outcome) := by
  cases h with
  | nothingPending hinsert | inserted hinsert =>
    rw [(Store.insertChunks_ok hinsert).1] at hhas
    exact absurd hhas (ne_true_of_eq_false hnot)
  | kept hkeep =>
    rcases Store.insertEmbeddings_new hkeep hhas with hhas | hmem
    · exact absurd hhas (ne_true_of_eq_false hnot)
    · exact ⟨_, _, _, _, rfl, hmem, rfl⟩
  | cleaned =>
    rw [Store.hasEmbedding_iff] at hhas
    have hbefore := (Store.keepChunks_embeddings_sublist.map Embedding.chunkId).subset hhas
    rw [← Store.hasEmbedding_iff] at hbefore
    exact absurd hbefore (ne_true_of_eq_false hnot)
  | _ => exact absurd hhas (ne_true_of_eq_false hnot)

/-- A chunk with an embedding does not become pending. -/
theorem not_owed (h : StepsTo s t s' t') {c : StoredChunk} (hc : c ∈ s'.chunks)
    (hhas : s.hasEmbedding c.id = true) (hnot : c.id ∉ t.owes) : c.id ∉ t'.owes := by
  intro howed
  obtain ⟨d, hd, hid⟩ := List.mem_map.mp howed
  rcases h.pending hd with hd | ⟨_, _, _, _, hd⟩
  · exact hnot (List.mem_map.mpr ⟨d, hd, hid⟩)
  · have hembedded := h.hasEmbedding hc hhas
    have hbare := (Store.mem_unembedded.mp hd).2.2.2
    rw [hid, hembedded] at hbare
    simp at hbare

theorem nodup (h : StepsTo s t s' t') (hnodup : (s.embeddings.map Embedding.chunkId).Nodup) :
    (s'.embeddings.map Embedding.chunkId).Nodup := by
  cases h with
  | nothingPending hinsert | inserted hinsert => rwa [(Store.insertChunks_ok hinsert).1]
  | kept hkeep =>
    obtain ⟨_, _, _, hkeeps⟩ := Store.insertEmbeddings_ok hkeep
    exact hkeeps hnodup
  | cleaned => exact hnodup.sublist (Store.keepChunks_embeddings_sublist.map _)
  | _ => exact hnodup

theorem ne_cut (h : StepsTo s t s' t') (projectId : Int) (chunks : List Chunk) :
    t' ≠ .cut projectId chunks := by
  cases h <;> simp

theorem onTrack (h : StepsTo s t s' t') (ht' : t'.OnTrack) :
    t.OnTrack ∨ ∃ projectId chunks, t = .cut projectId chunks := by
  cases h with
  | blank | nothingPending | inserted => exact Or.inr ⟨_, _, rfl⟩
  | answered | kept => exact Or.inl trivial
  | stays => exact Or.inl ht'
  | refused | unanswered | notKept | cleaned => exact ht'.elim

section Cut
variable {projectId : Int} {chunks : List Chunk}

theorem hasHash_of_cut (h : StepsTo s (.cut projectId chunks) s' t') (ht' : t'.OnTrack) :
    ∀ c ∈ chunks, s'.hasHash c.hash = true := by
  cases h with
  | blank => simp
  | refused => exact ht'.elim
  | nothingPending hinsert | inserted hinsert => exact Store.insertChunks_hasHash hinsert

/-- Rows of the file without an embedding are pending once its chunks are stored, whoever has
stored those rows. -/
theorem owed_of_cut (h : StepsTo s (.cut projectId chunks) s' t') (ht' : t'.OnTrack)
    {path : String} (hfile : ∀ d ∈ chunks, d.filePath = path) (hne : chunks ≠ [])
    {c : StoredChunk} (hc : c ∈ s'.chunks) (hproject : c.projectId = projectId)
    (hpath : c.filePath = path) (hbare : s'.hasEmbedding c.id = false) : c.id ∈ t'.owes := by
  have hmem : ∀ first : Chunk, first ∈ chunks → c ∈ s'.unembedded projectId first.filePath := by
    intro first hfirst
    exact Store.mem_unembedded.mpr ⟨hc, hproject, hpath.trans (hfile first hfirst).symm, hbare⟩
  cases h with
  | blank => exact absurd rfl hne
  | refused => exact ht'.elim
  | nothingPending hinsert hnone =>
    have := hmem _ List.mem_cons_self
    rw [hnone] at this
    exact absurd this List.not_mem_nil
  | inserted hinsert => exact List.mem_map_of_mem (hmem _ List.mem_cons_self)

end Cut

/-- A chunk that was pending and is still there is embedded now or pending still. -/
theorem embedded_or_owed (h : StepsTo s t s' t') {c : StoredChunk} (hc : c ∈ s'.chunks)
    (howed : c.id ∈ t.owes) : s'.hasEmbedding c.id = true ∨ c.id ∈ t'.owes := by
  cases h with
  | answered | unanswered | notKept => exact Or.inr howed
  | kept hkeep =>
    obtain ⟨_, rfl, hall, _⟩ := Store.insertEmbeddings_ok hkeep
    exact Or.inl (hall c.id howed)
  | @cleaned pending e =>
    have hnot := (List.mem_filter.mp hc).2
    exact absurd howed (by simpa [owes, FileTask.pending] using hnot)
  | _ => exact absurd howed List.not_mem_nil

theorem accounts (h : StepsTo s t s' t')
    (hfile : ∀ projectId chunks, t = .cut projectId chunks → OneFile chunks) :
    Accounts s t s' t' := by
  intro c hc
  by_cases hhas : s'.hasEmbedding c.id = true
  · exact Or.inl hhas
  by_cases howed : c.id ∈ t'.owes
  · exact Or.inr (Or.inl howed)
  refine Or.inr (Or.inr ⟨?_, ?_, ?_⟩)
  · rcases h.rows hc with hold | ⟨ht', projectId, chunks, rfl, id, d, hd, rfl⟩
    · exact hold
    · -- What is stored belongs to the file whose rows are looked up, so all of it is pending.
      have hpath := fun c hc => hfile projectId chunks rfl c hc d hd
      exact absurd (h.owed_of_cut ht' hpath (List.ne_nil_of_mem hd) hc rfl rfl
        (eq_false_of_ne_true hhas)) howed
  · apply eq_false_of_ne_true
    intro hbefore
    exact hhas (h.hasEmbedding hc hbefore)
  · intro hbefore
    rcases h.embedded_or_owed hc hbefore with hhas' | howed'
    · exact hhas hhas'
    · exact howed howed'

end StepsTo

end CodeSearch.FileTask
