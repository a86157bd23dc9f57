import CodeSearch.Proofs.Indexing.Processed

/-!
# Reports

A run takes up each of its files once, in the order in which they were found, however they are
grouped: what is taken up and what waits are the files, all along. Each file taken up has one task,
which goes its own way from the chunks of the file to its end. When the run is over the report is
read off what became of the files, one by one.
-/

set_option autoImplicit false

namespace CodeSearch

/-- What a step of a task may make of it, on some store and with some answers. -/
def FileTask.Becomes (t t' : FileTask) : Prop := ∃ embedder s, t' = (t.step embedder s).2

theorem FileTask.isNone_result?_step (embedder : Embedder) (s : Store) {t : FileTask}
    (h : t.result?.isNone = false) : (t.step embedder s).2.result?.isNone = false := by
  cases t with
  | done result => exact h
  | _ => cases h

namespace IndexRun
variable {cut : String → Cut} {r : IndexRun}

theorem becomes_run (hfiles : r.files = []) (moves : List Move) :
    ∀ f ∈ (r.run cut moves).files,
      Relation.ReflTransGen FileTask.Becomes (.start r.projectId (cut f.path)) f.task := by
  apply run_induct_step (I := fun r' => ∀ f ∈ r'.files,
    Relation.ReflTransGen FileTask.Becomes (.start r.projectId (cut f.path)) f.task)
  · intro _ r' place f embedder _ h hplace g hg
    rcases List.mem_or_eq_of_mem_set hg with hg | rfl
    · exact h g hg
    · exact (h f (List.mem_of_getElem? hplace)).tail ⟨embedder, r'.store, rfl⟩
  · intro moves r' group rest hr h _ _ g hg
    rcases List.mem_append.mp hg with hg | hg
    · exact h g hg
    · obtain ⟨path, -, rfl⟩ := List.mem_map.mp hg
      rw [hr, projectId_run]
  · rw [hfiles]
    exact List.forall_mem_nil _

theorem countP_set_le {α : Type} {p : α → Bool} {xs : List α} {place : Nat} {x y : α}
    (hplace : xs[place]? = some x) (h : p x = false → p y = false) :
    (xs.set place y).countP p ≤ xs.countP p := by
  obtain ⟨hlt, hx⟩ := List.getElem?_eq_some_iff.mp hplace
  rw [List.countP_set hlt, hx]
  cases hy : p y with
  | false => exact Nat.sub_le _ _
  | true =>
    have hbefore : p x = true := by
      by_contra hnot
      rw [h (eq_false_of_ne_true hnot)] at hy
      cases hy
    have hpos : 0 < xs.countP p := List.countP_pos_iff.mpr ⟨x, List.mem_of_getElem? hplace, hbefore⟩
    rw [hbefore, if_pos rfl]
    omega

def underWay (r : IndexRun) : Nat := r.files.countP fun f => f.task.result?.isNone

theorem underWay_of_quiet (h : r.isQuiet = true) : r.underWay = 0 := by
  apply List.countP_eq_zero.mpr
  intro f hf
  obtain ⟨result, htask⟩ := done_of_quiet h hf
  rw [htask]
  exact Bool.false_ne_true

theorem underWay_le {bound : Nat} (hfiles : r.files = [])
    (hgroups : ∀ group ∈ r.waiting, group.length ≤ bound) (moves : List Move) :
    (r.run cut moves).underWay ≤ bound := by
  have hboth : (r.run cut moves).underWay ≤ bound ∧
      ∀ group ∈ (r.run cut moves).waiting, group.length ≤ bound := by
    apply run_induct_step (I := fun r' =>
      r'.underWay ≤ bound ∧ ∀ group ∈ r'.waiting, group.length ≤ bound)
    · rintro _ r' place f embedder - ⟨h, hwait⟩ hplace
      refine ⟨?_, hwait⟩
      -- A task that is done stays done, so none is under way that was not before.
      exact (countP_set_le hplace (FileTask.isNone_result?_step embedder r'.store)).trans h
    · rintro _ r' group rest - ⟨-, hwait⟩ hquiet hwaiting
      rw [hwaiting] at hwait
      obtain ⟨hgroup, hrest⟩ := List.forall_mem_cons.mp hwait
      refine ⟨?_, hrest⟩
      -- The group is taken up alone: all tasks before it are done.
      have hnone := underWay_of_quiet hquiet
      rw [underWay] at hnone ⊢
      rw [List.countP_append, hnone, Nat.zero_add]
      exact List.countP_le_length.trans (by rwa [List.length_map])
    · rw [underWay, hfiles]
      exact ⟨Nat.zero_le _, hgroups⟩
  exact hboth.1

theorem files_of_quiet (h : r.isQuiet = true) :
    r.files = r.outcomes.map fun outcome => ⟨outcome.1, .done outcome.2⟩ := by
  have hdone : ∀ f ∈ r.files, ∃ result, f.task = .done result := fun f hf => done_of_quiet h hf
  rw [outcomes]
  generalize r.files = files at hdone
  induction files with
  | nil => rfl
  | cons f files ih =>
    obtain ⟨⟨result, htask⟩, hrest⟩ := List.forall_mem_cons.mp hdone
    obtain ⟨path, task⟩ := f
    subst htask
    rw [List.filterMap_cons]
    exact congrArg _ (ih hrest)

theorem map_fst_outcomes (h : r.isQuiet = true) : r.outcomes.map Prod.fst = r.taken := by
  rw [taken, files_of_quiet h, List.map_map]
  rfl

theorem total_report (r : IndexRun) : r.report.total = (r.taken ++ r.waiting.flatten).length := by
  rw [report_eq, List.length_append, taken, List.length_map]

theorem processed_add_failed (r : IndexRun) :
    r.report.processed + r.report.failed = r.outcomes.length := by
  have hsplit := List.length_eq_countP_add_countP (l := r.outcomes) fun o => isError o.2
  simp only [Bool.not_eq_true, Bool.decide_eq_false] at hsplit
  rw [report_eq, hsplit, Nat.add_comm]

theorem length_failures (r : IndexRun) : r.report.failures.length = r.report.failed := by
  rw [report_eq, List.length_filterMap_eq_countP]
  apply List.countP_congr
  rintro ⟨path, result⟩ -
  cases result with
  | ok outcome => exact Iff.rfl
  | error e => exact Iff.rfl

theorem report_of_outcomes {r' : IndexRun} (h : r.Over) (h' : r'.Over)
    (houtcomes : r'.outcomes = r.outcomes) : r'.report = r.report := by
  rw [report_eq, report_eq, ← length_outcomes h.1, ← length_outcomes h'.1, h.2, h'.2, houtcomes]

end IndexRun

section Groups
variable {α : Type}

/-- A size of zero counts as one. -/
theorem groupsOf_max (size : Nat) (items : List α) :
    groupsOf (max size 1) items = groupsOf size items := by
  have hsize : max size 1 - 1 = size - 1 := by omega
  fun_induction groupsOf size items with
  | case1 => rw [groupsOf]
  | case2 x xs ih => rw [groupsOf, hsize, ih]

namespace Indexer

theorem groups_max (x : Indexer) (files : List α) :
    { x with
      batchSize := max x.batchSize 1
      maxConcurrency := max x.maxConcurrency 1 }.groups files = x.groups files := by
  simp only [groups, groupsOf_max]

theorem length_le_of_mem_groups {x : Indexer} {files group : List α} (h : group ∈ x.groups files) :
    group.length ≤ max x.batchSize 1 * max x.maxConcurrency 1 := by
  obtain ⟨batches, hbatches, rfl⟩ := List.mem_map.mp h
  have hsize : ∀ n ∈ batches.map List.length, n ≤ max x.batchSize 1 := by
    intro n hn
    obtain ⟨batch, hbatch, rfl⟩ := List.mem_map.mp hn
    have hbatch' : batch ∈ groupsOf x.batchSize files := by
      rw [← flatten_groupsOf x.maxConcurrency (groupsOf x.batchSize files)]
      exact List.mem_flatten_of_mem hbatches hbatch
    exact length_le_of_mem_groupsOf hbatch'
  calc batches.flatten.length = (batches.map List.length).sum := List.length_flatten
    _ ≤ (batches.map List.length).length * max x.batchSize 1 := List.sum_le_card_nsmul _ _ hsize
    _ ≤ max x.maxConcurrency 1 * max x.batchSize 1 := by
      rw [List.length_map]
      exact Nat.mul_le_mul_right _ (length_le_of_mem_groupsOf hbatches)
    _ = max x.batchSize 1 * max x.maxConcurrency 1 := Nat.mul_comm _ _

end Indexer

end Groups

namespace Indexer

/-- All along a run, the files taken up and those that wait are the files found, in their order, and
no more tasks are under way than a group may have files. A file is taken up with one task, which
goes from the cut of the file to its end; when the run is over, the report has each file once, and
it can be read off what became of the files. -/
theorem every_file_accounted_for (x : Indexer) (cut : String → Cut) (projectId : Int)
    (s : Store) (files : List String) (moves : List IndexRun.Move) {r : IndexRun}
    (hrun : (x.start projectId s files).run cut moves = r) :
    ((x.groups files).flatten = files ∧
      (∀ group ∈ x.groups files, group.length ≤ max x.batchSize 1 * max x.maxConcurrency 1) ∧
      { x with
        batchSize := max x.batchSize 1
        maxConcurrency := max x.maxConcurrency 1 }.groups files = x.groups files) ∧
    (r.taken ++ r.waiting.flatten = files ∧
      (∀ f ∈ r.files,
        Relation.ReflTransGen FileTask.Becomes (.start projectId (cut f.path)) f.task) ∧
      r.underWay ≤ max x.batchSize 1 * max x.maxConcurrency 1 ∧
      r.report.total = files.length) ∧
    (r.Over →
      r.files = r.outcomes.map (fun outcome => ⟨outcome.1, .done outcome.2⟩) ∧
      r.outcomes.map Prod.fst = files ∧
      r.report.processed + r.report.failed = files.length ∧
      r.report.failures = r.outcomes.filterMap IndexRun.failure? ∧
      r.report.failures.length = r.report.failed ∧
      ∀ (y : Indexer) (cut' : String → Cut) (projectId' : Int) (s' : Store)
        (files' : List String) (moves' : List IndexRun.Move),
        ((y.start projectId' s' files').run cut' moves').Over →
        ((y.start projectId' s' files').run cut' moves').outcomes = r.outcomes →
        ((y.start projectId' s' files').run cut' moves').report = r.report) ∧
    ∀ (t : FileTree) (s₀ : Store) (path : String) (planned : IndexRun),
      x.plan t s₀ path = .ok planned → ∃ found moves',
        Discovery.discover (x.ignored t) t x.selection path = .ok found ∧
        planned = x.start planned.projectId planned.store (found.map Path.ofNames) ∧
        (planned.run (x.cut t planned.projectId) moves').Over ∧
        x.index t s₀ path = ((planned.run (x.cut t planned.projectId) moves').store,
          .ok (planned.run (x.cut t planned.projectId) moves').report) := by
  have htaken : r.taken ++ r.waiting.flatten = files := by
    rw [← hrun, IndexRun.taken_append_waiting]
    exact flatten_groups x files
  have hcourses : ∀ f ∈ r.files,
      Relation.ReflTransGen FileTask.Becomes (.start projectId (cut f.path)) f.task := by
    rw [← hrun]
    exact IndexRun.becomes_run rfl moves
  have hunder : r.underWay ≤ max x.batchSize 1 * max x.maxConcurrency 1 := by
    rw [← hrun]
    exact IndexRun.underWay_le rfl (fun group => length_le_of_mem_groups) moves
  have htotal : r.report.total = files.length := by rw [r.total_report, htaken]
  refine ⟨⟨flatten_groups x files, fun group => length_le_of_mem_groups, groups_max x files⟩,
    ⟨htaken, hcourses, hunder, htotal⟩, ?_, ?_⟩
  · intro hover
    have hpaths : r.outcomes.map Prod.fst = files := by
      rw [IndexRun.map_fst_outcomes hover.1, ← htaken, hover.2, List.flatten_nil, List.append_nil]
    refine ⟨IndexRun.files_of_quiet hover.1, hpaths, ?_, ?_, r.length_failures, ?_⟩
    · rw [r.processed_add_failed, ← hpaths, List.length_map]
    · rw [r.report_eq]
    · exact fun _ _ _ _ _ _ hover' => IndexRun.report_of_outcomes hover hover'
  · intro t s₀ path planned hplan
    obtain ⟨found, hfound, hplanned⟩ := start_of_plan hplan
    obtain ⟨moves', hover, hindex⟩ := exists_moves_index hplan
    exact ⟨found, moves', hfound, hplanned, hover, hindex⟩

section OneByOne

def slowIndexer : Indexer := { mdIndexer with batchSize := 1, maxConcurrency := 0 }

def notes : List String := ["/d/a.md", "/d/b.md"]

/-- The second note is empty. -/
def cutFirst (path : String) : Cut := .made (if path = "/d/a.md" then [twin path] else [])

/-- The request of the first note fails, and only then the second is taken up. -/
def oneByOne : List IndexRun.Move :=
  [.takeUp, .step 0 Pool.works, .step 0 Pool.fails, .step 0 Pool.fails, .takeUp,
    .step 1 Pool.works]

theorem start_notes : mdIndexer.start 1 twinRun.store notes = twinRun ∧
    (slowIndexer.start 1 twinRun.store notes).waiting = [["/d/a.md"], ["/d/b.md"]] := by
  have htogether : mdIndexer.groups notes = [["/d/a.md", "/d/b.md"]] := by cbv
  have halone : slowIndexer.groups notes = [["/d/a.md"], ["/d/b.md"]] := by cbv
  rw [start, start, htogether, halone]
  exact ⟨rfl, rfl⟩

theorem run_oneByOne : (slowIndexer.start 1 twinRun.store notes).run cutFirst oneByOne =
    { projectId := 1
      store := { twinRun.store with lastChunkId := 1 }
      files := [⟨"/d/a.md", .done (.error (.embedding (.worker "busy")))⟩,
        ⟨"/d/b.md", .done (.ok {})⟩] } := by
  have hstart : slowIndexer.start 1 twinRun.store notes =
      { twinRun with waiting := [["/d/a.md"], ["/d/b.md"]] } := by
    rw [← start_notes.2]
    rfl
  rw [hstart]
  simp [oneByOne, IndexRun.run, IndexRun.move, IndexRun.takeUp, IndexRun.step, twinRun,
    cutFirst, twin, FileTask.step, FileTask.insert, FileTask.embed, Store.insertChunks,
    Store.insertChunksFrom, Store.hasHash, Store.hasProject, Store.row, Store.unembedded,
    Store.hasEmbedding, IndexRun.isQuiet, FileTask.result?, Pool.fails,
    Store.deleteChunks, Store.keepChunks, Store.dropOrphans]

theorem notes_reported_alike :
    (twinRun.run (mdIndexer.cut twinTree 1) leftBehind).Over ∧
    ((slowIndexer.start 1 twinRun.store notes).run cutFirst oneByOne).Over ∧
    (twinRun.run (mdIndexer.cut twinTree 1) leftBehind).report.processed +
      (twinRun.run (mdIndexer.cut twinTree 1) leftBehind).report.failed = 2 ∧
    (twinRun.run (mdIndexer.cut twinTree 1) leftBehind).report.failures =
      [⟨"/d/a.md", .embedding (.worker "busy")⟩] ∧
    ((slowIndexer.start 1 twinRun.store notes).run cutFirst oneByOne).report =
      (twinRun.run (mdIndexer.cut twinTree 1) leftBehind).report ∧
    mdIndexer.plan twinTree { dimensions := 1 } "/d" = .ok twinRun ∧
    ∃ found moves,
      Discovery.discover (mdIndexer.ignored twinTree) twinTree mdIndexer.selection "/d" =
        .ok found ∧
      (twinRun.run (mdIndexer.cut twinTree 1) moves).Over ∧
      (mdIndexer.index twinTree { dimensions := 1 } "/d").2 =
        .ok (twinRun.run (mdIndexer.cut twinTree 1) moves).report := by
  have hrun := congrArg (fun r => r.run (mdIndexer.cut twinTree 1) leftBehind) start_notes.1
  obtain ⟨-, -, hreport, hindex⟩ := every_file_accounted_for mdIndexer (mdIndexer.cut twinTree 1) 1
    twinRun.store notes leftBehind hrun
  have hover : (twinRun.run (mdIndexer.cut twinTree 1) leftBehind).Over := by
    rw [run_leftBehind]
    exact ⟨rfl, rfl⟩
  have hover' : ((slowIndexer.start 1 twinRun.store notes).run cutFirst oneByOne).Over := by
    rw [run_oneByOne]
    exact ⟨rfl, rfl⟩
  have houtcomes : ((slowIndexer.start 1 twinRun.store notes).run cutFirst oneByOne).outcomes =
      (twinRun.run (mdIndexer.cut twinTree 1) leftBehind).outcomes := by
    rw [run_oneByOne, run_leftBehind]
    rfl
  obtain ⟨-, -, hall, hfailures, -, hsame⟩ := hreport hover
  obtain ⟨found, moves, hfound, -, hend, hdone⟩ := hindex _ _ _ _ plan_twinTree
  refine ⟨hover, hover', hall, ?_, hsame _ _ _ _ _ _ hover' houtcomes, plan_twinTree, found, moves,
    hfound, hend, ?_⟩
  · have hfirst : IndexRun.failure? ("/d/a.md", .error (.embedding (.worker "busy"))) =
        some ⟨"/d/a.md", .embedding (.worker "busy")⟩ := by cbv
    rw [hfailures, run_leftBehind]
    exact congrArg Option.toList hfirst
  · rw [hdone]
    rfl

end OneByOne

end Indexer

end CodeSearch
