import CodeSearch.Proofs.Indexing.Turns

/-!
# What a cleanup removes

A task that fails removes the chunks it has pending. It has read them before its request, and they
had no embedding then; by the time they are removed another task that had read them too may have
embedded them, and the cleanup does not look again.
-/

set_option autoImplicit false

namespace CodeSearch.Pool

/-- In the course of the turns a task at another place comes to the step in which it stores the
embedding of `c`. -/
def EmbeddedByOther (p : Pool) (turns : List Turn) (place : Nat) (c : StoredChunk) : Prop :=
  ∃ earlier other embedder later n pending vectors,
    turns = earlier ++ .step other embedder :: later ∧ other ≠ place ∧
      (p.run earlier).tasks[other]? = some (.embedded n pending vectors) ∧ c ∈ pending

/-- What a task removes after it has failed: rows of its own file and project that had no embedding
when it read them. If one has an embedding by then, another task that had the same row pending has
stored it in the meantime. -/
structure RightlyRemoved (p : Pool) (turns : List Turn) (place : Nat) (projectId : Int)
    (chunks : List Chunk) (c : StoredChunk) : Prop where
  stored : c ∈ p.store.chunks
  bare : p.store.hasEmbedding c.id = false
  ofProject : c.projectId = projectId
  ofFile : ∃ d ∈ chunks, c.filePath = d.filePath
  since : (p.run turns).store.hasEmbedding c.id = true → EmbeddedByOther p turns place c

theorem embeddedByOther {p : Pool} (hkeyed : p.Keyed) {turns : List Turn} {place : Nat}
    {c : StoredChunk} (hstored : c ∈ p.store.chunks)
    (hbefore : p.store.hasEmbedding c.id = false) (hlast : c ∈ (p.run turns).store.chunks)
    (hafter : (p.run turns).store.hasEmbedding c.id = true)
    (hopen : ∀ outcome, (p.run turns).tasks[place]? ≠ some (.done (.ok outcome))) :
    EmbeddedByOther p turns place c := by
  obtain ⟨earlier, other, embedder, later, n, pending, vectors, outcome, rfl, htask, hmem, hdone⟩ :=
    embeds_run hbefore hafter
  refine ⟨earlier, other, embedder, later, n, pending, vectors, rfl, ?_, htask, ?_⟩
  · -- The task that stores the embedding is done with that, and this one has not come to its end.
    rintro rfl
    obtain ⟨t', ht', _, hstays⟩ := taken_run hdone (by simp) later
    apply hopen outcome
    rw [run_append, run_cons, ht', hstays _ rfl]
  · obtain ⟨d, hd, hid⟩ := List.mem_map.mp hmem
    have hown := (keyed_run hkeyed earlier).pending _ (List.mem_of_getElem? htask) d hd
    have hthere : c ∈ (p.run earlier).store.chunks := by
      have hlater := later_run (p.run earlier) (.step other embedder :: later)
      rw [run_append] at hlast
      rcases hlater.old_or_new c hlast with hold | hnew
      · exact hold
      · have hle := hkeyed.store.le_last c hstored
        have hle' := (later_run p earlier).le_last
        omega
    rwa [hown.eq_of_id c hthere hid.symm]

theorem cleanup_removes_rightly (s : Store) (before after : List Turn) (place : Nat)
    (embedder embedder' : Embedder) {projectId : Int} {chunks : List Chunk}
    {pending : List StoredChunk} {e : IndexError} {p : Pool} (hkeyed : s.Keyed)
    (hcut : (Pool.run { store := s } before).tasks[place]? = some (.cut projectId chunks))
    (hp : p = (Pool.run { store := s } before).turn (.step place embedder))
    (hfailing : (p.run after).tasks[place]? = some (.failing pending e)) :
    ∀ c ∈ (p.run after).store.chunks,
      c ∉ ((p.run after).turn (.step place embedder')).store.chunks →
        RightlyRemoved p after place projectId chunks c := by
  intro c hc hremoved
  have hkeyed₀ : Keyed { store := s } := ⟨hkeyed, by simp⟩
  have hsteps := FileTask.step_stepsTo embedder (Pool.run { store := s } before).store
    (.cut projectId chunks)
  have hkeyed₁ : p.Keyed := hp ▸ keyed_turn (keyed_run hkeyed₀ before) (.step place embedder)
  have htask := getElem?_turn_step hcut embedder
  rw [← hp] at htask
  -- What is pending now was read when the task stored its chunks.
  obtain ⟨t', ht', hsub, _⟩ := taken_run htask hsteps.ne_cut after
  obtain rfl := Option.some.inj (ht'.symm.trans hfailing)
  have howed : c.id ∈ pending.map StoredChunk.id := by
    rw [turn_step hfailing] at hremoved
    rcases (FileTask.step_stepsTo embedder' _ (.failing pending e)).mem_or_cleaned hc with
      hkept | ⟨_, _, howed⟩
    · exact absurd hkept hremoved
    · exact howed
  obtain ⟨d, hd, hid⟩ := List.mem_map.mp howed
  have hread : ∃ first rest, chunks = first :: rest ∧
      d ∈ p.store.unembedded projectId first.filePath := by
    rcases hsteps.pending (hsub hd) with hnone | ⟨_, first, rest, heq, hmem⟩
    · exact absurd hnone List.not_mem_nil
    · obtain ⟨rfl, rfl⟩ := FileTask.cut.inj heq
      refine ⟨first, rest, rfl, ?_⟩
      rwa [hp, turn_step hcut]
  obtain ⟨first, rest, rfl, hmem⟩ := hread
  obtain ⟨hstored, hproject, hpath, hbare⟩ := Store.mem_unembedded.mp hmem
  have hown := (hkeyed₁.store.ownId hstored).later (later_run p after)
  obtain rfl := hown.eq_of_id c hc hid.symm
  exact
    { stored := hstored
      bare := hbare
      ofProject := hproject
      ofFile := ⟨first, List.mem_cons_self, hpath⟩
      since := fun hafter => embeddedByOther hkeyed₁ hstored hbare hc hafter (by simp [hfailing]) }

/-- Two tasks for the note. The first has stored its chunk. -/
def rivals : Pool :=
  (Pool.run { store := notes } [.join 1 (.made noteChunks), .join 1 (.made noteChunks)]).turn
    (.step 0 works)

/-- While the request of the first is out the second embeds the chunk; then the request fails. -/
def overtaken : List Turn :=
  [.step 1 works, .step 1 works, .step 1 works, .step 0 fails]

def noteRow : StoredChunk :=
  ⟨1, 1, "fish", "note", 1, 1, "text", "text", textHash "fish".toList, 4⟩

theorem run_overtaken : rivals.run overtaken =
    { store := { notes with chunks := [noteRow], embeddings := [⟨1, [0]⟩], lastChunkId := 2 }
      tasks := [.failing [noteRow] (.embedding (.worker "busy")), .done (.ok ⟨0, 1⟩)] } := by
  simp [rivals, overtaken, works, fails, noteRow, noteChunks, notes, run, turn, FileTask.step,
    FileTask.insert, FileTask.embed, FileTask.keep, Store.insertChunks, Store.insertChunksFrom,
    Store.hasHash, Store.hasProject, Store.row, Store.unembedded, Store.hasEmbedding,
    Store.insertEmbeddings, Store.checkDimensions, Store.insertEmbeddingsFrom, Store.hasChunk]

theorem noteRow_removed :
    noteRow ∉ ((rivals.run overtaken).turn (.step 0 fails)).store.chunks := by
  rw [run_overtaken]
  simp [turn, FileTask.step, Store.deleteChunks, Store.keepChunks, Store.dropOrphans]

theorem overtaken_removed_rightly :
    noteRow ∈ (rivals.run overtaken).store.chunks ∧
      noteRow ∉ ((rivals.run overtaken).turn (.step 0 fails)).store.chunks ∧
      RightlyRemoved rivals overtaken 0 1 noteChunks noteRow := by
  have hkeyed : notes.Keyed := ⟨List.nodup_nil, by simp [notes]⟩
  have hthere : noteRow ∈ (rivals.run overtaken).store.chunks := by
    rw [run_overtaken]
    exact List.mem_singleton_self _
  have hfailing : (rivals.run overtaken).tasks[0]? =
      some (.failing [noteRow] (.embedding (.worker "busy"))) := by
    rw [run_overtaken]
    rfl
  refine ⟨hthere, noteRow_removed, ?_⟩
  exact cleanup_removes_rightly notes [.join 1 (.made noteChunks), .join 1 (.made noteChunks)]
    overtaken 0 works fails hkeyed rfl rfl hfailing noteRow hthere noteRow_removed

/-- The second task is done and has reported its embedding; the cleanup of the first takes the chunk
and the embedding away. -/
theorem embedded_chunk_removed :
    ∃ pending e outcome,
      (rivals.run overtaken).tasks = [.failing pending e, .done (.ok outcome)] ∧
        outcome.newEmbeddings = 1 ∧
        noteRow ∈ (rivals.run overtaken).store.chunks ∧
        (rivals.run overtaken).store.hasEmbedding noteRow.id = true ∧
        noteRow ∉ ((rivals.run overtaken).turn (.step 0 fails)).store.chunks := by
  refine ⟨[noteRow], .embedding (.worker "busy"), ⟨0, 1⟩, ?_, rfl, ?_, ?_, noteRow_removed⟩
  · rw [run_overtaken]
  · rw [run_overtaken]
    exact List.mem_singleton_self _
  · rw [run_overtaken]
    simp [Store.hasEmbedding, noteRow]

end CodeSearch.Pool
