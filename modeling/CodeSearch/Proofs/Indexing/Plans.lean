import CodeSearch.Proofs.Indexing.Traces

/-!
# Plans

The run that an indexer sets out on. The project of the directory is registered, and all files found
below the directory wait to be taken up. Planning again comes to the same run on the store as it is
then. What `index` does is one of the orders in which that run may go to its end.
-/

set_option autoImplicit false

namespace CodeSearch.Indexer
variable {x : Indexer} {t : FileTree} {s s' : Store} {path : String} {r : IndexRun}

theorem plan_ok (h : x.plan t s path = .ok r) :
    ∃ root s' project, Discovery.resolveRoot t path = .ok root ∧ x.deaths (.find root) = none ∧
      s.createProject (Path.withSlashes (Path.ofNames root)) = .ok (s', project) ∧
      r =
        { projectId := project.id
          store := s'
          waiting := x.groups
            ((Discovery.filesUnder (x.ignored t) t x.selection root).map Path.ofNames) } := by
  unfold plan at h
  split at h
  · simp at h
  · rename_i root hroot
    split at h
    · simp at h
    · rename_i halive
      split at h
      · simp at h
      · rename_i s' project hproject
        exact ⟨root, s', project, hroot, halive, hproject, (Except.ok.inj h).symm⟩

theorem files_of_plan (h : x.plan t s path = .ok r) : r.files = [] := by
  obtain ⟨_, _, _, _, _, _, rfl⟩ := plan_ok h
  rfl

/-- Planning touches neither chunks nor embeddings. -/
theorem store_of_plan (h : x.plan t s path = .ok r) :
    r.store = { s with projects := r.store.projects, lastProjectId := r.store.lastProjectId } := by
  obtain ⟨_, _, _, _, _, hproject, rfl⟩ := plan_ok h
  exact (Store.createProject_ok hproject).1

theorem flatten_groups {α : Type} (x : Indexer) (files : List α) :
    (x.groups files).flatten = files := by
  rw [groups, ← List.flatten_flatten, flatten_groupsOf, flatten_groupsOf]

def start (x : Indexer) (projectId : Int) (s : Store) (files : List String) : IndexRun where
  projectId := projectId
  store := s
  waiting := x.groups files

theorem start_of_plan (h : x.plan t s path = .ok r) :
    ∃ found, Discovery.discover (x.ignored t) t x.selection path = .ok found ∧
      r = x.start r.projectId r.store (found.map Path.ofNames) := by
  obtain ⟨root, _, _, hroot, _, _, rfl⟩ := plan_ok h
  refine ⟨Discovery.filesUnder (x.ignored t) t x.selection root, ?_, rfl⟩
  rw [Discovery.discover, hroot]

theorem discover_of_plan (h : x.plan t s path = .ok r) :
    ∃ found, Discovery.discover (x.ignored t) t x.selection path = .ok found ∧
      r.waiting.flatten = found.map Path.ofNames := by
  obtain ⟨found, hfound, hr⟩ := start_of_plan h
  rw [hr]
  exact ⟨found, hfound, flatten_groups x _⟩

/-- The project is found by its path from then on, so planning again leads to the same run. -/
theorem plan_again (h : x.plan t s path = .ok r) (hprojects : s'.projects = r.store.projects) :
    x.plan t s' path = .ok { r with store := s' } := by
  obtain ⟨root, s₁, project, hroot, halive, hproject, rfl⟩ := plan_ok h
  have hat : s'.projectAt? (Path.withSlashes (Path.ofNames root)) = some project := by
    rw [← (Store.createProject_ok hproject).2]
    simp only [Store.projectAt?, hprojects]
  rw [plan, hroot]
  simp only [halive, Store.createProject_of_projectAt? hat]

theorem ofPaths_cut (x : Indexer) (t : FileTree) (projectId : Int) :
    IndexRun.OfPaths (x.cut t projectId) :=
  fun _ _ hc => filePath_of_mem_cut hc

theorem exists_moves_index (h : x.plan t s path = .ok r) :
    ∃ moves, (r.run (x.cut t r.projectId) moves).Over ∧
      x.index t s path =
        ((r.run (x.cut t r.projectId) moves).store,
          .ok (r.run (x.cut t r.projectId) moves).report) := by
  obtain ⟨moves, hmoves, hover⟩ :=
    IndexRun.exists_moves_finish (x.cut t r.projectId) x.client.embedChunks r
  refine ⟨moves, hmoves ▸ hover, ?_⟩
  simp only [index, h, hmoves]

section Twins

def twinTree : FileTree where
  root := .directory
    [("d", .directory
      [("a.md", .file (.bytes [102, 105, 115, 104])),
        ("b.md", .file (.bytes [102, 105, 115, 104]))])]
  current := []

def mdIndexer : Indexer where
  client := { provider := { dimensions := 1, answer := fun _ => .crashed } }
  parse language _ := .error (.noTree language)
  selection := { extensions := ["md"], ignores := fun _ => false }
  ignored _ _ _ := false

/-- Both notes wait in one group. -/
def twinRun : IndexRun where
  projectId := 1
  store := { dimensions := 1, projects := [⟨1, "d", "/d", none⟩], lastProjectId := 1 }
  waiting := [["/d/a.md", "/d/b.md"]]

def twin (path : String) : Chunk :=
  ⟨"fish", path, 1, 1, "text", "md", textHash "fish".toList, 4, some 1⟩

/-- There is neither a pattern nor an ignore file. -/
theorem leftOut_twinTree (root names : List String) (isDirectory : Bool) :
    Discovery.leftOut (mdIndexer.ignored twinTree) mdIndexer.selection root names isDirectory =
      false := rfl

theorem filesUnder_twinTree :
    Discovery.filesUnder (mdIndexer.ignored twinTree) twinTree mdIndexer.selection ["d"] =
      [["d", "a.md"], ["d", "b.md"]] := by
  have hnode : twinTree.root.at? ["d"] = some (.directory
      [("a.md", .file (.bytes [102, 105, 115, 104])),
        ("b.md", .file (.bytes [102, 105, 115, 104]))]) := rfl
  have hsupports : mdIndexer.selection.supports "a.md" = true ∧
      mdIndexer.selection.supports "b.md" = true := by cbv
  have hle : Path.namesLe ["d", "a.md"] ["d", "b.md"] = true := by decide
  rw [Discovery.filesUnder, hnode]
  simp only [Discovery.walk, Discovery.walkAll, FileNode.isDirectory, List.cons_append,
    List.nil_append, leftOut_twinTree, Bool.false_eq_true, if_false, List.append_nil,
    List.filter_cons, List.getLastD_cons, List.getLastD_nil, hsupports, if_true, List.filter_nil]
  exact List.mergeSort_of_pairwise (by simp [hle])

theorem discover_twinTree :
    Discovery.discover (mdIndexer.ignored twinTree) twinTree mdIndexer.selection "/d" =
      .ok [["d", "a.md"], ["d", "b.md"]] := by
  have hroot : Discovery.resolveRoot twinTree "/d" = .ok ["d"] := by cbv
  rw [Discovery.discover, hroot]
  simp only [filesUnder_twinTree]

theorem plan_twinTree : mdIndexer.plan twinTree { dimensions := 1 } "/d" = .ok twinRun := by
  have hroot : Discovery.resolveRoot twinTree "/d" = .ok ["d"] := by cbv
  have hpath : Path.withSlashes (Path.ofNames ["d"]) = "/d" := by cbv
  have hname : ProjectName.ofPath "/d" = "d" := by cbv
  have hfiles : [["d", "a.md"], ["d", "b.md"]].map Path.ofNames = ["/d/a.md", "/d/b.md"] := by cbv
  have hgroups : mdIndexer.groups ["/d/a.md", "/d/b.md"] = [["/d/a.md", "/d/b.md"]] := by cbv
  have halive : mdIndexer.deaths (.find ["d"]) = none := rfl
  simp only [plan, hroot, halive, hpath, filesUnder_twinTree, hfiles, hgroups,
    Store.createProject, Store.projectAt?, List.find?_nil, hname]
  rfl

theorem cut_twinTree :
    mdIndexer.cut twinTree 1 "/d/a.md" = .made [twin "/d/a.md"] ∧
      mdIndexer.cut twinTree 1 "/d/b.md" = .made [twin "/d/b.md"] := by
  have htext : twinTree.readText "/d/a.md" = .ok "fish" ∧
      twinTree.readText "/d/b.md" = .ok "fish" := by
    constructor <;> rw [FileTree.readText, FileTree.read,
      FileTree.resolve_eq_follow (by cbv) (by decide +kernel)] <;> cbv
  have hpath : Path.withSlashes "/d/a.md" = "/d/a.md" ∧
      Path.withSlashes "/d/b.md" = "/d/b.md" := by cbv
  have hstrategy : ChunkStrategy.ofPath "/d/a.md" = .passages ∧
      ChunkStrategy.ofPath "/d/b.md" = .passages := by cbv
  have hlanguage : Passages.language "/d/a.md" = "md" ∧ Passages.language "/d/b.md" = "md" := by cbv
  have hpassages : Passages.join {} (Passages.pieces 1536 Passages.separators "fish".toList) =
      ["fish".toList] := by cbv
  simp only [cut, mdIndexer, Chunking.ofFile?, htext, hpath, hstrategy, Chunking.ofText?,
    Passages.chunks, hpassages, Passages.place, Passages.chunk?, hlanguage]
  exact ⟨rfl, rfl⟩

theorem twin_mem_cut : twin "/d/b.md" ∈ (mdIndexer.cut twinTree 1 "/d/b.md").chunks := by
  rw [cut_twinTree.2]
  exact List.mem_singleton_self _

/-- Both notes are indexed at once: one is stored and embedded, the other finds nothing to do. -/
def sideBySide : List IndexRun.Move :=
  [.takeUp, .step 0 Pool.works, .step 1 Pool.works, .step 0 Pool.works, .step 0 Pool.works]

theorem run_sideBySide : twinRun.run (mdIndexer.cut twinTree 1) sideBySide =
    { projectId := 1
      store :=
        { twinRun.store with
          chunks := [Store.row 1 1 (twin "/d/a.md")]
          embeddings := [⟨1, [0]⟩]
          lastChunkId := 2 }
      files := [⟨"/d/a.md", .done (.ok ⟨1, 1⟩)⟩, ⟨"/d/b.md", .done (.ok {})⟩] } := by
  simp [sideBySide, IndexRun.run, IndexRun.move, IndexRun.takeUp, IndexRun.step, twinRun,
    cut_twinTree, twin, FileTask.step, FileTask.insert, FileTask.embed, FileTask.keep,
    Store.insertChunks, Store.insertChunksFrom, Store.hasHash, Store.hasProject, Store.row,
    Store.unembedded, Store.hasEmbedding, IndexRun.isQuiet, Pool.works, Store.insertEmbeddings,
    Store.checkDimensions, Store.insertEmbeddingsFrom, Store.hasChunk]

end Twins

end CodeSearch.Indexer
