import CodeSearch.Proofs.Indexing.Plans

/-!
# Indexing an unchanged tree again

A run in which no file has failed leaves nothing to do for its files: each chunk is found by its
hash, and no row under one of their paths lacks an embedding. So in the next run each task is done
with its first step, asks nothing of the provider and changes nothing but the counter of ids.
-/

set_option autoImplicit false

namespace CodeSearch

/-- The chunks whose embeddings the next step of a task asks for. -/
def FileTask.request? : FileTask → Option (List StoredChunk)
  | .stored _ pending => some pending
  | .cut _ _ | .embedded _ _ _ | .failing _ _ | .done _ => none

namespace IndexRun
variable {cut : String → Cut} {r : IndexRun} {s : Store} {moves : List Move}

/-- The requests that are made in the course of the moves. -/
def requests (cut : String → Cut) (r : IndexRun) : List Move → List (List StoredChunk)
  | [] => []
  | .step place embedder :: moves =>
    (r.files[place]?.bind fun f => f.task.request?).toList ++
      requests cut (r.step place embedder) moves
  | .takeUp :: moves => requests cut (r.takeUp cut) moves

/-- The files at these paths have nothing to add to the store. -/
structure Exhausted (cut : String → Cut) (projectId : Int) (paths : List String)
    (s : Store) : Prop where
  made : ∀ path ∈ paths, ∃ chunks, cut path = .made chunks
  stored : ∀ path ∈ paths, ∀ c ∈ (cut path).chunks, s.hasHash c.hash = true
  embedded : ∀ path ∈ paths, (cut path).chunks ≠ [] →
    s.unembedded projectId (Path.withSlashes path) = []

theorem Completes.exhausted (h : Completes cut r moves) (hcut : OfPaths cut)
    (hfiles : r.files = []) :
    Exhausted cut r.projectId r.waiting.flatten (r.run cut moves).store := by
  refine ⟨?_, ?_, ?_⟩
  · intro path hpath
    obtain ⟨f, hf, rfl⟩ := h.exists_file hpath
    exact h.made hcut hfiles hf
  · intro path hpath
    obtain ⟨f, hf, rfl⟩ := h.exists_file hpath
    exact (h.undisturbed hcut hfiles).stored f hf (h.onTrack hf)
  · intro path hpath hne
    obtain ⟨f, hf, rfl⟩ := h.exists_file hpath
    apply List.eq_nil_iff_forall_not_mem.mpr
    intro c hc
    obtain ⟨hmem, hproject, hfile, hbare⟩ := Store.mem_unembedded.mp hc
    obtain ⟨_, _, hnone⟩ := bare_of_quiet hcut hfiles h.ended.1 hmem hbare
    apply hnone f hf (h.onTrack hf) hne
    exact ⟨hproject.trans (projectId_run cut r moves).symm, hfile⟩

/-- The first step of a task whose file has nothing to add is its last. -/
theorem Exhausted.step {projectId : Int} {paths : List String} (h : Exhausted cut projectId paths s)
    (hcut : OfPaths cut) {path : String} (hpath : path ∈ paths) (embedder : Embedder) (last : Int) :
    ∃ last', FileTask.step embedder { s with lastChunkId := last } (.start projectId (cut path)) =
      ({ s with lastChunkId := last' }, .done (.ok {})) := by
  obtain ⟨chunks, hmade⟩ := h.made path hpath
  have hchunks : (cut path).chunks = chunks := by rw [hmade, Cut.chunks]
  rw [hmade, FileTask.start_made]
  cases chunks with
  | nil => exact ⟨last, rfl⟩
  | cons first rest =>
    have hhash : ∀ c ∈ first :: rest,
        Store.hasHash { s with lastChunkId := last } c.hash = true := by
      rw [← hchunks]
      exact h.stored path hpath
    have hfile : first.filePath = Path.withSlashes path := by
      apply hcut path first
      rw [hchunks]
      exact List.mem_cons_self
    have hnone : ∀ last', Store.unembedded { s with lastChunkId := last' } projectId
        first.filePath = [] := by
      intro last'
      rw [hfile]
      exact h.embedded path hpath (by simp [hchunks])
    refine ⟨last + (first :: rest).length, ?_⟩
    simp only [FileTask.step, FileTask.insert, Store.insertChunks,
      Store.insertChunksFrom_of_hasHash hhash, hnone]

/-- Nothing but the counter of ids has changed, and no task has got beyond its first step without
being done. -/
structure Idle (cut : String → Cut) (s : Store) (paths : List String) (r : IndexRun) : Prop where
  store : ∃ last, r.store = { s with lastChunkId := last }
  tasks : ∀ f ∈ r.files, f.task = .start r.projectId (cut f.path) ∨ f.task = .done (.ok {})
  made : ∀ path ∈ paths, ∃ chunks, cut path = .made chunks
  paths : r.taken ++ r.waiting.flatten = paths

theorem Idle.step {paths : List String} (h : Idle cut s paths r) (hcut : OfPaths cut)
    (hexhausted : Exhausted cut r.projectId paths s) (place : Nat) (embedder : Embedder) :
    Idle cut s paths (r.step place embedder) := by
  cases hplace : r.files[place]? with
  | none => simpa only [IndexRun.step, hplace] using h
  | some f =>
    have hf := List.mem_of_getElem? hplace
    have hpath : f.path ∈ paths := by
      rw [← h.paths]
      exact List.mem_append_left _ (List.mem_map_of_mem hf)
    obtain ⟨last, hstore⟩ := h.store
    have hdone : ∃ last', f.task.step embedder r.store =
        ({ s with lastChunkId := last' }, .done (.ok {})) := by
      rw [hstore]
      rcases h.tasks f hf with htask | htask
      · rw [htask]
        exact hexhausted.step hcut hpath embedder last
      · rw [htask]
        exact ⟨last, rfl⟩
    obtain ⟨last', hstep⟩ := hdone
    rw [step_eq hplace, hstep]
    refine ⟨⟨last', rfl⟩, ?_, h.made, ?_⟩
    · intro g hg
      rcases List.mem_or_eq_of_mem_set hg with hg | rfl
      · exact h.tasks g hg
      · exact Or.inr rfl
    · simpa only [taken, map_path_set _ hplace] using h.paths

theorem Idle.takeUp {paths : List String} (h : Idle cut s paths r) :
    Idle cut s paths (r.takeUp cut) := by
  unfold IndexRun.takeUp
  split
  · exact h
  · rename_i group rest hwaiting
    split
    · refine ⟨h.store, ?_, h.made, ?_⟩
      · intro f hf
        rcases List.mem_append.mp hf with hf | hf
        · exact h.tasks f hf
        · obtain ⟨path, _, rfl⟩ := List.mem_map.mp hf
          exact Or.inl rfl
      · rw [← h.paths, hwaiting]
        simp only [taken, List.map_append, map_path_fresh, List.flatten_cons, List.append_assoc]
    · exact h

theorem Idle.request?_eq_none {paths : List String} (h : Idle cut s paths r) {f : RunFile}
    (hf : f ∈ r.files) : f.task.request? = none := by
  rcases h.tasks f hf with htask | htask
  · rw [htask]
    cases cut f.path <;> rfl
  · rw [htask]
    rfl

theorem Idle.run {paths : List String} (h : Idle cut s paths r) (hcut : OfPaths cut)
    (hexhausted : Exhausted cut r.projectId paths s) (moves : List Move) :
    r.requests cut moves = [] ∧ Idle cut s paths (r.run cut moves) := by
  induction moves generalizing r with
  | nil => exact ⟨rfl, h⟩
  | cons move moves ih =>
    cases move with
    | step place embedder =>
      have hproject : (r.step place embedder).projectId = r.projectId :=
        projectId_run cut r [.step place embedder]
      obtain ⟨hrest, hidle⟩ := ih (h.step hcut hexhausted place embedder) (by rwa [hproject])
      refine ⟨?_, hidle⟩
      rw [requests, hrest, List.append_nil]
      cases hplace : r.files[place]? with
      | none => rfl
      | some f =>
        simp [h.request?_eq_none (List.mem_of_getElem? hplace)]
    | takeUp =>
      have hproject : (r.takeUp cut).projectId = r.projectId := projectId_run cut r [.takeUp]
      exact ih h.takeUp (by rwa [hproject])

theorem Idle.not_failed {paths : List String} (h : Idle cut s paths r) : ¬ r.Failed := by
  rintro ⟨f, hf, e, htask⟩
  have hpath : f.path ∈ paths := by
    rw [← h.paths]
    exact List.mem_append_left _ (List.mem_map_of_mem hf)
  obtain ⟨chunks, hmade⟩ := h.made f.path hpath
  rcases h.tasks f hf with htask' | htask' <;> simp [htask, hmade] at htask'

theorem report_of_idle (h : Completes cut r moves)
    (hfiles : r.files = []) {r₁ : IndexRun} (hidle : Idle cut s r.waiting.flatten r₁)
    (hover : r₁.Over) : r₁.report = (r.run cut moves).report := by
  have htaken : r₁.taken = (r.run cut moves).taken := by
    have hpaths := hidle.paths
    rw [hover.2, List.flatten_nil, List.append_nil] at hpaths
    rw [hpaths, taken_of_over h.ended, taken, hfiles, List.map_nil, List.nil_append]
  rw [report_of_over hover hidle.not_failed,
    report_of_over h.ended (not_failed_of_report h.noneFailed), htaken]

end IndexRun

namespace Indexer

/-- The run may have started from any store, and neither its order nor that of the next run matters,
nor does what the provider would say. -/
theorem reindex_changes_nothing (x : Indexer) (t : FileTree) (s : Store) (path : String)
    (moves : List IndexRun.Move) {r r' : IndexRun} (hplan : x.plan t s path = .ok r)
    (hrun : r.run (x.cut t r.projectId) moves = r') (hover : r'.Over)
    (hfailed : r'.report.failed = 0) :
    ∃ r₁, x.plan t r'.store path = .ok r₁ ∧
      (∀ moves₁, r₁.requests (x.cut t r₁.projectId) moves₁ = [] ∧
        (∃ last, (r₁.run (x.cut t r₁.projectId) moves₁).store =
          { r'.store with lastChunkId := last }) ∧
        ((r₁.run (x.cut t r₁.projectId) moves₁).Over →
          (r₁.run (x.cut t r₁.projectId) moves₁).report = r'.report)) ∧
      ∃ last, x.index t r'.store path =
        ({ r'.store with lastChunkId := last }, .ok r'.report) := by
  subst hrun
  have hcut := ofPaths_cut x t r.projectId
  have hfiles := files_of_plan hplan
  have hcompletes : IndexRun.Completes (x.cut t r.projectId) r moves := ⟨hover, hfailed⟩
  have hexhausted := hcompletes.exhausted hcut hfiles
  have hagain := plan_again hplan
    (IndexRun.projects_run (x.cut t r.projectId) r moves)
  have hstart : IndexRun.Idle (x.cut t r.projectId) (r.run (x.cut t r.projectId) moves).store
      r.waiting.flatten { r with store := (r.run (x.cut t r.projectId) moves).store } :=
    ⟨⟨_, rfl⟩, by simp [hfiles], hexhausted.made, by simp [IndexRun.taken, hfiles]⟩
  have hidle := hstart.run hcut hexhausted
  refine ⟨_, hagain, ?_, ?_⟩
  · intro moves₁
    obtain ⟨hrequests, hidle₁⟩ := hidle moves₁
    exact ⟨hrequests, hidle₁.store, IndexRun.report_of_idle hcompletes hfiles hidle₁⟩
  · obtain ⟨moves₁, hover₁, hindex⟩ := exists_moves_index hagain
    obtain ⟨_, hidle₁⟩ := hidle moves₁
    obtain ⟨last, hstore⟩ := hidle₁.store
    refine ⟨last, ?_⟩
    rw [hindex, hstore, IndexRun.report_of_idle hcompletes hfiles hidle₁ hover₁]

/-- The provider crashes on each request, and is not asked. -/
theorem twin_reindexed : ∃ last,
    mdIndexer.index twinTree (twinRun.run (mdIndexer.cut twinTree 1) sideBySide).store "/d" =
      ({ (twinRun.run (mdIndexer.cut twinTree 1) sideBySide).store with lastChunkId := last },
        .ok { total := 2, processed := 2 }) := by
  have hover : (twinRun.run (mdIndexer.cut twinTree 1) sideBySide).Over := by
    rw [run_sideBySide]
    exact ⟨rfl, rfl⟩
  have hreport : (twinRun.run (mdIndexer.cut twinTree 1) sideBySide).report =
      { total := 2, processed := 2 } := by
    rw [run_sideBySide]
    rfl
  obtain ⟨_, _, _, last, hindex⟩ := reindex_changes_nothing mdIndexer twinTree { dimensions := 1 }
    "/d" sideBySide plan_twinTree rfl hover (congrArg IndexReport.failed hreport)
  refine ⟨last, ?_⟩
  rw [← hreport]
  exact hindex

end Indexer

end CodeSearch
