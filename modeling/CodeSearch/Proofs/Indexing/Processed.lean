import CodeSearch.Proofs.Indexing.Plans

/-!
# Files that count as processed

A file counts as processed once its chunks are stored and those pending in its own task are
embedded. A chunk that another task had stored before is not among them. If that task fails it
removes the chunk, and no task is left to store it again; this is the only way in which a chunk of a
processed file can be missing when the run is over.
-/

set_option autoImplicit false

namespace CodeSearch

namespace IndexRun
variable {cut : String → Cut} {r r' : IndexRun}

/-- A file has failed, and a chunk with that hash is of a file stored under the same path. -/
def LostWith (cut : String → Cut) (r : IndexRun) (hash : String) : Prop :=
  ∃ g ∈ r.files, (∃ e, g.task = .done (.error e)) ∧
    ∃ path ∈ r.taken, Path.withSlashes path = Path.withSlashes g.path ∧
      ∃ d ∈ (cut path).chunks, d.hash = hash

theorem LostWith.set {hash : String} (h : LostWith cut r hash) {place : Nat} {f : RunFile}
    {s' : Store} {t' : FileTask} (hplace : r.files[place]? = some f)
    (hsteps : FileTask.StepsTo r.store f.task s' t') :
    LostWith cut { r with store := s', files := r.files.set place { f with task := t' } } hash := by
  obtain ⟨g, hg, ⟨e, hdone⟩, path, hpath, heq, hd⟩ := h
  refine ⟨g, mem_set_of_done hplace hsteps hg hdone, ⟨e, hdone⟩, path, ?_, heq, hd⟩
  simpa only [taken, map_path_set t' hplace] using hpath

/-- A row that a step takes away was stored by the run, for a file with the stored path of the one
that fails in that step. -/
theorem lostWith_of_removed {s : Store} (hcut : OfPaths cut) (htraced : Traced cut s r)
    (hkeyed : r.toPool.Keyed) (hfinished : ∀ c ∈ s.chunks, r.Finished c) {place : Nat}
    {f : RunFile} {s' : Store} {t' : FileTask} (hplace : r.files[place]? = some f)
    (hsteps : FileTask.StepsTo r.store f.task s' t') {c : StoredChunk} (hc : c ∈ r.store.chunks)
    (hremoved : c ∉ s'.chunks) :
    LostWith cut { r with store := s', files := r.files.set place { f with task := t' } }
      c.hash := by
  have hf := List.mem_of_getElem? hplace
  have hplace' := (List.getElem?_eq_some_iff.mp hplace).1
  rcases hsteps.mem_or_cleaned hc with hkept | ⟨e, rfl, howed⟩
  · exact absurd hkept hremoved
  -- By its id the pending chunk is the row itself; rows from before the run are pending nowhere.
  obtain ⟨d, hd, hid⟩ := List.mem_map.mp howed
  obtain rfl := (hkeyed.pending f.task (List.mem_map_of_mem hf) d hd).eq_of_id c hc hid.symm
  rcases htraced.rows c hc with hold | ⟨path, hpath, id, d, hdmem, rfl⟩
  · exact absurd howed ((hfinished c hold).2.2 f hf)
  · refine ⟨_, List.mem_set hplace' _, ⟨e, rfl⟩, path, ?_, ?_, d, hdmem, rfl⟩
    · simpa only [taken, map_path_set _ hplace] using hpath
    · rw [← hcut path d hdmem]
      exact htraced.pending f hf _ hd

/-- The chunks of the files on track are stored, unless a failing file has taken them away. -/
def Held (cut : String → Cut) (r : IndexRun) : Prop :=
  ∀ f ∈ r.files, f.task.OnTrack → ∀ c ∈ (cut f.path).chunks,
    r.store.hasHash c.hash = true ∨ LostWith cut r c.hash

theorem held_run (hcut : OfPaths cut) (hfiles : r.files = []) (hkeyed : r.store.Keyed)
    (hembedded : ∀ c ∈ r.store.chunks, r.store.hasEmbedding c.id = true)
    (moves : List Move) : Held cut (r.run cut moves) := by
  apply run_induct (I := Held cut)
  · intro moves r' place f s' t' hr h hplace hsteps
    have hf := List.mem_of_getElem? hplace
    have htraced : Traced cut r.store r' := hr ▸ traced_run hcut hfiles moves
    have hkeyed' : r'.toPool.Keyed := hr ▸ keyed_run ⟨hkeyed, by simp [toPool, hfiles]⟩ moves
    have hfinished : ∀ c ∈ r.store.chunks, r'.Finished c := by
      intro c hc
      exact hr ▸ finished_run ⟨hc, hembedded c hc, by simp [hfiles]⟩ moves
    -- What was stored or lost before the step is so after it, whichever file has moved.
    have hkept : ∀ hash, (r'.store.hasHash hash = true ∨ LostWith cut r' hash) →
        s'.hasHash hash = true ∨
          LostWith cut { r' with store := s', files := r'.files.set place { f with task := t' } }
            hash := by
      rintro hash (hhas | hlost)
      · obtain ⟨c, hc, heq⟩ := List.any_eq_true.mp hhas
        by_cases hc' : c ∈ s'.chunks
        · exact Or.inl (List.any_eq_true.mpr ⟨c, hc', heq⟩)
        · rw [← beq_iff_eq.mp heq]
          exact Or.inr (lostWith_of_removed hcut htraced hkeyed' hfinished hplace hsteps hc hc')
      · exact Or.inr (hlost.set hplace hsteps)
    intro g hg htrack c hc
    rcases List.mem_or_eq_of_mem_set hg with hg | rfl
    · exact hkept c.hash (h g hg htrack c hc)
    · rcases hsteps.onTrack htrack with hold | ⟨projectId, chunks, htask⟩
      · exact hkept c.hash (h f hf hold c hc)
      · obtain ⟨_, hmade⟩ := htraced.fresh f hf _ _ htask
        rw [htask] at hsteps
        rw [hmade] at hc
        exact Or.inl (hsteps.hasHash_of_cut htrack c hc)
  · intro moves r' group rest hr h hwaiting f hf htrack c hc
    rcases List.mem_append.mp hf with hf | hf
    · apply (h f hf htrack c hc).imp_right
      rintro ⟨g, hg, hfailed, path, hpath, hrest⟩
      refine ⟨g, List.mem_append_left _ hg, hfailed, path, ?_, hrest⟩
      simp only [taken, List.map_append]
      exact List.mem_append_left _ hpath
    · obtain ⟨path, _, rfl⟩ := List.mem_map.mp hf
      exact absurd htrack (FileTask.not_onTrack_start _ _)
  · simp [Held, hfiles]

theorem settled_of_over {moves : List Move} (hcut : OfPaths cut) (hfiles : r.files = [])
    (hunique : (r.store.embeddings.map Embedding.chunkId).Nodup) (hsettled : r.store.Settled)
    (hover : (r.run cut moves).Over) : (r.run cut moves).store.Settled := by
  apply (Store.settled_iff (unique_run hunique moves)).mpr
  intro c hc
  by_contra hbare
  obtain ⟨hold, hbefore, _⟩ := bare_of_quiet hcut hfiles hover.1 hc (eq_false_of_ne_true hbare)
  have hhas := (Store.settled_iff hunique).mp hsettled c hold
  exact absurd hhas (ne_true_of_eq_false hbefore)

end IndexRun

namespace Indexer

theorem processed_searchable_or_lost (x : Indexer) (t : FileTree) (s : Store) (path : String)
    (moves : List IndexRun.Move) {r r' : IndexRun} {f : RunFile} {outcome : FileOutcome}
    (hkeyed : s.Keyed) (hunique : (s.embeddings.map Embedding.chunkId).Nodup)
    (hsettled : s.Settled) (hplan : x.plan t s path = .ok r)
    (hrun : r.run (x.cut t r.projectId) moves = r') (hover : r'.Over) (hf : f ∈ r'.files)
    (hprocessed : f.task = .done (.ok outcome)) :
    ∀ c ∈ (x.cut t r.projectId f.path).chunks,
      r'.store.Searchable c.hash ∨ IndexRun.LostWith (x.cut t r.projectId) r' c.hash := by
  subst hrun
  intro c hc
  have hcut := ofPaths_cut x t r.projectId
  have hfiles := files_of_plan hplan
  have hstore := store_of_plan hplan
  have hkeyed' : r.store.Keyed := by
    rw [hstore]
    exact ⟨hkeyed.nodup, hkeyed.le_last⟩
  have hunique' : (r.store.embeddings.map Embedding.chunkId).Nodup := by rwa [hstore]
  have hsettled' : r.store.Settled := by
    rw [hstore]
    exact hsettled
  have hheld := IndexRun.held_run hcut hfiles hkeyed'
    ((Store.settled_iff hunique').mp hsettled') moves
  have hend := IndexRun.settled_of_over hcut hfiles hunique' hsettled' hover
  apply (hheld f hf (by simp [hprocessed, FileTask.OnTrack]) c hc).imp_left
  exact hend.searchable

theorem twin_searchable :
    (twinRun.run (mdIndexer.cut twinTree 1) sideBySide).store.Searchable
      (textHash "fish".toList) := by
  have hkeyed : Store.Keyed { dimensions := 1 } := ⟨List.nodup_nil, by simp⟩
  have hsettled : Store.Settled { dimensions := 1 } := List.forall_mem_nil _
  have hover : (twinRun.run (mdIndexer.cut twinTree 1) sideBySide).Over := by
    rw [run_sideBySide]
    exact ⟨rfl, rfl⟩
  have hmem : (⟨"/d/b.md", .done (.ok {})⟩ : RunFile) ∈
      (twinRun.run (mdIndexer.cut twinTree 1) sideBySide).files := by
    rw [run_sideBySide]
    exact List.mem_cons_of_mem _ List.mem_cons_self
  have hor := processed_searchable_or_lost mdIndexer twinTree { dimensions := 1 } "/d" sideBySide
    hkeyed List.nodup_nil hsettled plan_twinTree rfl hover hmem rfl (twin "/d/b.md") twin_mem_cut
  apply hor.resolve_right
  rintro ⟨g, hg, ⟨e, hfailed⟩, _⟩
  change g ∈ (twinRun.run (mdIndexer.cut twinTree 1) sideBySide).files at hg
  rw [run_sideBySide] at hg
  rcases List.mem_pair.mp hg with rfl | rfl <;> simp at hfailed

/-- The second note finds its chunk stored by the first and has nothing to do; then the request of
the first fails. -/
def leftBehind : List IndexRun.Move :=
  [.takeUp, .step 0 Pool.works, .step 1 Pool.works, .step 0 Pool.fails, .step 0 Pool.fails]

theorem run_leftBehind : twinRun.run (mdIndexer.cut twinTree 1) leftBehind =
    { projectId := 1
      store := { twinRun.store with lastChunkId := 2 }
      files := [⟨"/d/a.md", .done (.error (.embedding (.worker "busy")))⟩,
        ⟨"/d/b.md", .done (.ok {})⟩] } := by
  simp [leftBehind, IndexRun.run, IndexRun.move, IndexRun.takeUp, IndexRun.step, twinRun,
    cut_twinTree, twin, FileTask.step, FileTask.insert, FileTask.embed, Store.insertChunks,
    Store.insertChunksFrom, Store.hasHash, Store.hasProject, Store.row, Store.unembedded,
    Store.hasEmbedding, IndexRun.isQuiet, Pool.fails, Store.deleteChunks, Store.keepChunks,
    Store.dropOrphans]

theorem processed_not_stored :
    ∃ (x : Indexer) (t : FileTree) (s : Store) (path : String) (r : IndexRun)
      (moves : List IndexRun.Move) (f : RunFile) (c : Chunk), s.Settled ∧
        x.plan t s path = .ok r ∧ (r.run (x.cut t r.projectId) moves).Over ∧
        f ∈ (r.run (x.cut t r.projectId) moves).files ∧ f.task = .done (.ok {}) ∧
        c ∈ (x.cut t r.projectId f.path).chunks ∧
        (r.run (x.cut t r.projectId) moves).store.hasHash c.hash = false := by
  refine ⟨mdIndexer, twinTree, { dimensions := 1 }, "/d", twinRun, leftBehind,
    ⟨"/d/b.md", .done (.ok {})⟩, twin "/d/b.md", List.forall_mem_nil _, plan_twinTree, ?_, ?_, rfl,
    twin_mem_cut, ?_⟩
  · change (twinRun.run (mdIndexer.cut twinTree 1) leftBehind).Over
    rw [run_leftBehind]
    exact ⟨rfl, rfl⟩
  · change _ ∈ (twinRun.run (mdIndexer.cut twinTree 1) leftBehind).files
    rw [run_leftBehind]
    exact List.mem_cons_of_mem _ List.mem_cons_self
  · change (twinRun.run (mdIndexer.cut twinTree 1) leftBehind).store.hasHash _ = false
    rw [run_leftBehind]
    rfl

end Indexer

end CodeSearch
