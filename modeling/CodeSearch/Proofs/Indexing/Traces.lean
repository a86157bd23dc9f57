import CodeSearch.Proofs.Indexing.Runs

/-!
# What a run leaves in the store

Each row is from before the run or made from a chunk of a file that was taken up. Chunks that had an
embedding stay. As long as no file has failed nothing is lost at all, the chunks of each file whose
task is on track are stored, and a row of such a file that has no embedding is pending in a task.
-/

set_option autoImplicit false

namespace CodeSearch

/-- A chunk with that hash is stored, with exactly one embedding. -/
def Store.Searchable (s : Store) (hash : String) : Prop :=
  ∃ c ∈ s.chunks, c.hash = hash ∧ s.embeddings.countP (fun e => e.chunkId == c.id) = 1

theorem Store.Settled.searchable {s : Store} (h : s.Settled) {hash : String}
    (hhash : s.hasHash hash = true) : s.Searchable hash := by
  obtain ⟨c, hc, heq⟩ := List.any_eq_true.mp hhash
  exact ⟨c, hc, beq_iff_eq.mp heq, h c hc⟩

theorem Store.Searchable.hasHash {s : Store} {hash : String} (h : s.Searchable hash) :
    s.hasHash hash = true := by
  obtain ⟨c, hc, heq, _⟩ := h
  exact List.any_eq_true.mpr ⟨c, hc, beq_iff_eq.mpr heq⟩

namespace IndexRun
variable {cut : String → Cut} {r : IndexRun}

section Origins

structure Traced (cut : String → Cut) (s : Store) (r : IndexRun) : Prop where
  fresh : ∀ f ∈ r.files, ∀ projectId chunks, f.task = .cut projectId chunks →
    projectId = r.projectId ∧ cut f.path = .made chunks
  died : ∀ f ∈ r.files, ∀ reason, cut f.path = .died reason →
    f.task = .done (.error (.worker reason))
  pending : ∀ f ∈ r.files, ∀ c ∈ f.task.pending, c.filePath = Path.withSlashes f.path
  rows : ∀ c ∈ r.store.chunks, c ∈ s.chunks ∨
    ∃ path ∈ r.taken, ∃ id, ∃ d ∈ (cut path).chunks, c = Store.row id r.projectId d

theorem Traced.set {s s' : Store} (hcut : OfPaths cut) (h : Traced cut s r) {place : Nat}
    {f : RunFile} {t' : FileTask} (hplace : r.files[place]? = some f)
    (hsteps : FileTask.StepsTo r.store f.task s' t') :
    Traced cut s { r with store := s', files := r.files.set place { f with task := t' } } := by
  have hf := List.mem_of_getElem? hplace
  refine ⟨?_, ?_, ?_, ?_⟩
  · intro g hg projectId chunks htask
    rcases List.mem_or_eq_of_mem_set hg with hg | rfl
    · exact h.fresh g hg projectId chunks htask
    · exact absurd htask (hsteps.ne_cut projectId chunks)
  · intro g hg reason hdied
    rcases List.mem_or_eq_of_mem_set hg with hg | rfl
    · exact h.died g hg reason hdied
    · rw [h.died f hf reason hdied] at hsteps
      cases hsteps
      rfl
  · intro g hg c hc
    rcases List.mem_or_eq_of_mem_set hg with hg | rfl
    · exact h.pending g hg c hc
    · rcases hsteps.pending hc with hc | ⟨projectId, first, rest, htask, hc⟩
      · exact h.pending f hf c hc
      · obtain ⟨_, hchunks⟩ := h.fresh f hf _ _ htask
        rw [(Store.mem_unembedded.mp hc).2.2.1]
        exact hcut f.path first (by rw [hchunks, Cut.chunks]; exact List.mem_cons_self)
  · intro c hc
    simp only [taken, map_path_set t' hplace]
    rcases hsteps.rows hc with hc | ⟨_, projectId, chunks, htask, id, d, hd, rfl⟩
    · exact h.rows c hc
    · obtain ⟨rfl, hmade⟩ := h.fresh f hf _ _ htask
      exact Or.inr ⟨f.path, List.mem_map_of_mem hf, id, d, by rwa [hmade], rfl⟩

theorem traced_run (hcut : OfPaths cut) (hfiles : r.files = []) (moves : List Move) :
    Traced cut r.store (r.run cut moves) := by
  apply run_induct (I := Traced cut r.store)
  · intro _ r' place f s' t' _ h hplace hsteps
    exact h.set hcut hplace hsteps
  · intro _ r' group rest _ h _
    refine ⟨?_, ?_, ?_, ?_⟩
    · intro f hf projectId chunks htask
      rcases List.mem_append.mp hf with hf | hf
      · exact h.fresh f hf projectId chunks htask
      · obtain ⟨path, _, rfl⟩ := List.mem_map.mp hf
        obtain ⟨hproject, hmade⟩ := FileTask.start_eq_cut_iff.mp htask
        exact ⟨hproject.symm, hmade⟩
    · intro f hf reason hdied
      rcases List.mem_append.mp hf with hf | hf
      · exact h.died f hf reason hdied
      · obtain ⟨path, _, rfl⟩ := List.mem_map.mp hf
        exact congrArg (FileTask.start r'.projectId) hdied
    · intro f hf c hc
      rcases List.mem_append.mp hf with hf | hf
      · exact h.pending f hf c hc
      · obtain ⟨path, _, rfl⟩ := List.mem_map.mp hf
        rw [FileTask.pending_start] at hc
        exact absurd hc List.not_mem_nil
    · intro c hc
      rcases h.rows c hc with hc | ⟨path, hpath, hrow⟩
      · exact Or.inl hc
      · refine Or.inr ⟨path, ?_, hrow⟩
        simp only [taken, List.map_append]
        exact List.mem_append_left _ hpath
  · exact ⟨by simp [hfiles], by simp [hfiles], by simp [hfiles], fun c hc => Or.inl hc⟩

end Origins

section Finished

/-- The chunk is stored with an embedding, and no task has it pending. -/
def Finished (r : IndexRun) (c : StoredChunk) : Prop :=
  c ∈ r.store.chunks ∧ r.store.hasEmbedding c.id = true ∧ ∀ f ∈ r.files, c.id ∉ f.task.owes

theorem finished_run {c : StoredChunk} (h : r.Finished c) (moves : List Move) :
    (r.run cut moves).Finished c := by
  apply run_induct (I := fun r' => r'.Finished c)
  · intro _ r' place f s' t' _ h hplace hsteps
    obtain ⟨hc, hhas, hfree⟩ := h
    have hf := List.mem_of_getElem? hplace
    have hc' : c ∈ s'.chunks := by
      rcases hsteps.mem_or_cleaned hc with hc' | ⟨_, _, howed⟩
      · exact hc'
      · exact absurd howed (hfree f hf)
    refine ⟨hc', hsteps.hasEmbedding hc' hhas, ?_⟩
    intro g hg
    rcases List.mem_or_eq_of_mem_set hg with hg | rfl
    · exact hfree g hg
    · exact hsteps.not_owed hc' hhas (hfree f hf)
  · intro _ r' group rest _ h _
    obtain ⟨hc, hhas, hfree⟩ := h
    refine ⟨hc, hhas, ?_⟩
    intro f hf
    rcases List.mem_append.mp hf with hf | hf
    · exact hfree f hf
    · obtain ⟨path, _, rfl⟩ := List.mem_map.mp hf
      simp [FileTask.owes]
  · exact h

end Finished

section Undisturbed

/-- If no file has failed then no row is lost, and the chunks of files on track are stored. -/
structure Undisturbed (cut : String → Cut) (s : Store) (r : IndexRun) : Prop where
  rows : ∀ c ∈ s.chunks, c ∈ r.store.chunks
  stored : ∀ f ∈ r.files, f.task.OnTrack → ∀ c ∈ (cut f.path).chunks,
    r.store.hasHash c.hash = true

theorem undisturbed_run (hcut : OfPaths cut) (hfiles : r.files = []) (moves : List Move)
    (hfailed : ¬ (r.run cut moves).Failed) : Undisturbed cut r.store (r.run cut moves) := by
  have hor : (r.run cut moves).Failed ∨ Undisturbed cut r.store (r.run cut moves) := by
    apply run_induct (I := fun r' => r'.Failed ∨ Undisturbed cut r.store r')
    · intro moves r' place f s' t' hr h hplace hsteps
      have hf := List.mem_of_getElem? hplace
      rcases h with h | h
      · exact Or.inl (h.set hplace hsteps)
      by_cases herror : ∃ e, t' = .done (.error e)
      · obtain ⟨e, rfl⟩ := herror
        exact Or.inl ⟨_, List.mem_set (List.getElem?_eq_some_iff.mp hplace).1 _, e, rfl⟩
      -- Without a failure the step was no cleanup, so all rows are still there.
      have hkept : ∀ c ∈ r'.store.chunks, c ∈ s'.chunks := by
        intro c hc
        rcases hsteps.mem_or_cleaned hc with hc' | ⟨e, he, _⟩
        · exact hc'
        · exact absurd ⟨e, he⟩ herror
      have hhash : ∀ hash, r'.store.hasHash hash = true → s'.hasHash hash = true := by
        intro hash hhas
        obtain ⟨c, hc, heq⟩ := List.any_eq_true.mp hhas
        exact List.any_eq_true.mpr ⟨c, hkept c hc, heq⟩
      refine Or.inr ⟨fun c hc => hkept c (h.rows c hc), ?_⟩
      intro g hg htrack c hc
      rcases List.mem_or_eq_of_mem_set hg with hg | rfl
      · exact hhash _ (h.stored g hg htrack c hc)
      · rcases hsteps.onTrack htrack with hold | ⟨projectId, chunks, htask⟩
        · exact hhash _ (h.stored f hf hold c hc)
        · subst hr
          obtain ⟨_, hmade⟩ := (traced_run hcut hfiles moves).fresh f hf _ _ htask
          rw [htask] at hsteps
          rw [hmade] at hc
          exact hsteps.hasHash_of_cut htrack c hc
    · intro _ r' group rest _ h _
      rcases h with ⟨f, hf, e, he⟩ | h
      · exact Or.inl ⟨f, List.mem_append_left _ hf, e, he⟩
      · refine Or.inr ⟨h.rows, ?_⟩
        intro f hf htrack
        rcases List.mem_append.mp hf with hf | hf
        · exact h.stored f hf htrack
        · obtain ⟨path, _, rfl⟩ := List.mem_map.mp hf
          exact absurd htrack (FileTask.not_onTrack_start _ _)
    · exact Or.inr ⟨fun c hc => hc, by simp [hfiles]⟩
  exact hor.resolve_left hfailed

end Undisturbed

section Covered

/-- A row without an embedding is pending in a task; or it was without one before the run, and no
file on track is its file. -/
def Covered (cut : String → Cut) (s : Store) (r : IndexRun) : Prop :=
  ∀ c ∈ r.store.chunks, r.store.hasEmbedding c.id = false →
    (∃ f ∈ r.files, c.id ∈ f.task.owes) ∨
      (c ∈ s.chunks ∧ s.hasEmbedding c.id = false ∧
        ∀ f ∈ r.files, f.task.OnTrack → (cut f.path).chunks ≠ [] →
          ¬ (c.projectId = r.projectId ∧ c.filePath = Path.withSlashes f.path))

theorem covered_run (hcut : OfPaths cut) (hfiles : r.files = []) (moves : List Move) :
    Covered cut r.store (r.run cut moves) := by
  apply run_induct (I := Covered cut r.store)
  · intro moves r' place f s' t' hr h hplace hsteps c hc hbare
    have hf := List.mem_of_getElem? hplace
    have htraced := hr ▸ traced_run hcut hfiles moves
    by_cases howed : c.id ∈ t'.owes
    · exact Or.inl ⟨_, List.mem_set (List.getElem?_eq_some_iff.mp hplace).1 _, howed⟩
    have haccounts := hsteps.accounts (fun projectId chunks htask => by
      obtain ⟨_, hmade⟩ := htraced.fresh f hf _ _ htask
      have hone := hcut.oneFile f.path
      rwa [hmade] at hone) c hc
    rcases haccounts with hhas | howed' | ⟨hold, hbare', hnot⟩
    · exact absurd hhas (ne_true_of_eq_false hbare)
    · exact absurd howed' howed
    rcases h c hold hbare' with ⟨g, hg, hgowed⟩ | ⟨hs, hsbare, hnone⟩
    · have hne : g ≠ f := by
        rintro rfl
        exact hnot hgowed
      exact Or.inl ⟨g, Pool.mem_set_of_ne hplace hg hne, hgowed⟩
    · refine Or.inr ⟨hs, hsbare, ?_⟩
      intro g hg htrack hne
      rcases List.mem_or_eq_of_mem_set hg with hg | rfl
      · exact hnone g hg htrack hne
      · rcases hsteps.onTrack htrack with htrack' | ⟨projectId, chunks, htask⟩
        · exact hnone f hf htrack' hne
        · rintro ⟨hproject, hpath⟩
          obtain ⟨rfl, hmade⟩ := htraced.fresh f hf _ _ htask
          have hpaths := hcut f.path
          rw [hmade] at hpaths hne
          rw [htask] at hsteps
          exact howed (hsteps.owed_of_cut htrack hpaths hne hc hproject hpath hbare)
  · intro _ r' group rest _ h _ c hc hbare
    rcases h c hc hbare with ⟨f, hf, howed⟩ | ⟨hs, hsbare, hnone⟩
    · exact Or.inl ⟨f, List.mem_append_left _ hf, howed⟩
    · refine Or.inr ⟨hs, hsbare, ?_⟩
      intro f hf htrack
      rcases List.mem_append.mp hf with hf | hf
      · exact hnone f hf htrack
      · obtain ⟨path, _, rfl⟩ := List.mem_map.mp hf
        exact absurd htrack (FileTask.not_onTrack_start _ _)
  · intro c hc hbare
    exact Or.inr ⟨hc, hbare, by simp [hfiles]⟩

/-- When no task is under way no row is pending, so what has no embedding is left from before. -/
theorem bare_of_quiet {moves : List Move} (hcut : OfPaths cut) (hfiles : r.files = [])
    (hquiet : (r.run cut moves).isQuiet = true) {c : StoredChunk}
    (hc : c ∈ (r.run cut moves).store.chunks)
    (hbare : (r.run cut moves).store.hasEmbedding c.id = false) :
    c ∈ r.store.chunks ∧ r.store.hasEmbedding c.id = false ∧
      ∀ f ∈ (r.run cut moves).files, f.task.OnTrack → (cut f.path).chunks ≠ [] →
        ¬ (c.projectId = (r.run cut moves).projectId ∧
          c.filePath = Path.withSlashes f.path) := by
  rcases covered_run hcut hfiles moves c hc hbare with ⟨f, hf, howed⟩ | hleft
  · exact absurd howed (not_owed_of_quiet hquiet hf c.id)
  · exact hleft

end Covered

section Completes
variable {moves : List Move}

/-- The moves lead to the end of the run, and no file fails. -/
structure Completes (cut : String → Cut) (r : IndexRun) (moves : List Move) : Prop where
  ended : (r.run cut moves).Over
  noneFailed : (r.run cut moves).report.failed = 0

theorem Completes.onTrack (h : Completes cut r moves) {f : RunFile}
    (hf : f ∈ (r.run cut moves).files) : f.task.OnTrack := by
  obtain ⟨outcome, htask⟩ :=
    processed_of_quiet h.ended.1 (not_failed_of_report h.noneFailed) hf
  rw [htask]
  trivial

/-- No worker died over a file of a run without failures. -/
theorem Completes.made (h : Completes cut r moves) (hcut : OfPaths cut) (hfiles : r.files = [])
    {f : RunFile} (hf : f ∈ (r.run cut moves).files) : ∃ chunks, cut f.path = .made chunks := by
  cases hpath : cut f.path with
  | made chunks => exact ⟨chunks, rfl⟩
  | died reason =>
    have htask := (traced_run hcut hfiles moves).died f hf reason hpath
    have htrack := h.onTrack hf
    rw [htask] at htrack
    exact htrack.elim

theorem Completes.exists_file (h : Completes cut r moves) {path : String}
    (hpath : path ∈ r.waiting.flatten) : ∃ f ∈ (r.run cut moves).files, f.path = path := by
  apply List.mem_map.mp
  change path ∈ (r.run cut moves).taken
  rw [taken_of_over h.ended]
  exact List.mem_append_right _ hpath

theorem Completes.undisturbed (h : Completes cut r moves) (hcut : OfPaths cut)
    (hfiles : r.files = []) : Undisturbed cut r.store (r.run cut moves) :=
  undisturbed_run hcut hfiles moves (not_failed_of_report h.noneFailed)

end Completes

end IndexRun

end CodeSearch
