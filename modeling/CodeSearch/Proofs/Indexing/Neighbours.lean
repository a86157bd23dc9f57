import CodeSearch.Proofs.Indexing.FirstRun
import CodeSearch.Proofs.Search.Atop

/-!
# Projects side by side

What a project that was indexed before means for one that is indexed after it. A hash is stored
once, whichever project it is of: what the second run stores is what it would store alone, less the
chunks whose hash is there already. Where there are none of these the two runs go the same way, and
a search within the second project shows the same.
-/

set_option autoImplicit false

namespace CodeSearch

/-- Each request in the course of the moves comes to what `embedder` says. -/
def IndexRun.Asks (embedder : Embedder) (moves : List Move) : Prop :=
  ∀ place embedder', .step place embedder' ∈ moves → embedder' = embedder

/-- Two stores hold the same chunks of a project, and show the same in a search within it. -/
structure Store.SameFor (client : EmbeddingClient) (name : String) (s : Store) (p : Int)
    (s₀ : Store) (q : Int) : Prop where
  contents : s.contents p = s₀.contents q
  shown : ∀ query only (o : SearchOptions Float), ProjectName.normalize only = name →
    Search.shown s client query { o with projects := [only] } =
      Search.shown s₀ client query { o with projects := [only] }

namespace Indexer
variable {x : Indexer} {t : FileTree} {s : Store} {path : String} {root : List String}
  {moves moves₀ : List IndexRun.Move}

section Contents

theorem allWork_of_asks {width : Nat} (hworks : x.client.provider.Works width)
    (hasks : IndexRun.Asks x.client.embedChunks moves) : IndexRun.AllWork width moves := by
  intro place embedder hmem
  rw [hasks place embedder hmem]
  exact EmbeddingClient.works_embedChunks hworks

/-- What is new among the chunks of the files that have come. -/
theorem contents_run_firstRun (h : s.Consistent) (hworks : x.client.provider.Works s.dimensions)
    (hasks : IndexRun.Asks x.client.embedChunks moves) (cut : String → Cut) :
    ((x.firstRun t s root).run cut moves).store.contents (x.firstRun t s root).projectId =
      Store.novel s.hasHash
        (Store.bareRows (IndexRun.chunksOf cut ((x.firstRun t s root).arrivals cut moves))) := by
  have hwork : IndexRun.AllWork (x.firstRun t s root).store.dimensions moves :=
    allWork_of_asks hworks hasks
  obtain ⟨_, hext⟩ := (sound_firstRun cut).run hwork
  rw [hext.contents (ground_firstRun h).vacant]
  rfl

theorem contents_finish_firstRun (h : s.Consistent)
    (hworks : x.client.provider.Works s.dimensions) (cut : String → Cut) :
    ((x.firstRun t s root).finish cut x.client.embedChunks).store.contents
        (x.firstRun t s root).projectId =
      Store.novel s.hasHash
        (Store.bareRows (IndexRun.chunksOf cut (x.firstRun t s root).waiting.flatten)) := by
  have hsound : IndexRun.Sound cut (x.firstRun t s root) := sound_firstRun cut
  have hext := hsound.finish rfl (EmbeddingClient.works_embedChunks hworks)
  rw [hext.contents (ground_firstRun h).vacant]
  rfl

/-- To the left is what comes after others, to the right the same alone. -/
theorem novel_eq_filter_novel (p q : Int) (paths : List String) :
    Store.novel s.hasHash (Store.bareRows (IndexRun.chunksOf (x.cut t p) paths)) =
      (Store.novel (Store.hasHash { dimensions := s.dimensions })
        (Store.bareRows (IndexRun.chunksOf (x.cut t q) paths))).filter
          fun c => !s.hasHash c.hash := by
  rw [← Store.novel_or, bareRows_chunksOf_cut x t p q]
  rfl

end Contents

section Aside

/-- What a run `r` over the directory at a path, planned on the store `before`, leaves of its
project, next to what the run `r₀` leaves that has a store to itself. -/
structure Aside (x : Indexer) (t : FileTree) (path name : String) (before : Store)
    (r r₀ : IndexRun) : Prop where
  /-- If the files come in one order, the chunks whose hash was there before are left out, and
  nothing else is. -/
  contents : ∀ moves moves₀, IndexRun.Asks x.client.embedChunks moves →
    IndexRun.Asks x.client.embedChunks moves₀ →
    r.arrivals (x.cut t r.projectId) moves = r₀.arrivals (x.cut t r₀.projectId) moves₀ →
    (r.run (x.cut t r.projectId) moves).store.contents r.projectId =
      ((r₀.run (x.cut t r₀.projectId) moves₀).store.contents r₀.projectId).filter
        fun c => !before.hasHash c.hash
  /-- The whole run has such an order. -/
  indexed : (x.index t before path).1.contents r.projectId =
    ((x.index t { dimensions := before.dimensions } path).1.contents r₀.projectId).filter
      fun c => !before.hasHash c.hash
  /-- If none of the hashes was there before, all is the same after the same moves. -/
  apart : (∀ file ∈ r₀.waiting.flatten, ∀ c ∈ (x.cut t r₀.projectId file).chunks,
      before.hasHash c.hash = false) →
    (∀ moves, IndexRun.Asks x.client.embedChunks moves →
      Store.SameFor x.client name (r.run (x.cut t r.projectId) moves).store r.projectId
        (r₀.run (x.cut t r₀.projectId) moves).store r₀.projectId) ∧
      Store.SameFor x.client name (x.index t before path).1 r.projectId
        (x.index t { dimensions := before.dimensions } path).1 r₀.projectId

theorem apart_firstRun
    (hnew : ∀ file ∈ (x.firstRun t { dimensions := s.dimensions } root).waiting.flatten,
      ∀ c ∈ (x.cut t 1 file).chunks, s.hasHash c.hash = false) :
    IndexRun.Apart (x.firstRun t s root).store (x.cut t 1)
      (x.firstRun t { dimensions := s.dimensions } root) where
  lone := lone_firstRun _ _
  unknown := hnew
  width := rfl

/-- What the run alone has come to, above the others and by itself. -/
theorem sameFor_firstRun (h : s.Consistent)
    (hname : ∀ p ∈ s.projects, p.name ≠ projectName root) (moves : List IndexRun.Move) :
    Store.SameFor x.client (projectName root)
      (((x.firstRun t { dimensions := s.dimensions } root).run (x.cut t 1) moves).store.atop
        (x.firstRun t s root).store (x.firstRun t s root).projectId)
      (x.firstRun t s root).projectId
      ((x.firstRun t { dimensions := s.dimensions } root).run (x.cut t 1) moves).store 1 := by
  have hb : (x.firstRun t s root).store.Ground (x.firstRun t s root).projectId :=
    ground_firstRun h
  have hstart : IndexRun.Lone (x.cut t 1) (x.firstRun t { dimensions := s.dimensions } root) :=
    lone_firstRun _ _
  have hlone := (hstart.run moves).store
  rw [IndexRun.projectId_run] at hlone
  have hwidth : (x.firstRun t s root).store.dimensions =
      ((x.firstRun t { dimensions := s.dimensions } root).run (x.cut t 1)
        moves).store.dimensions := by
    rw [IndexRun.dimensions_run]
    rfl
  have habove : (((x.firstRun t { dimensions := s.dimensions } root).run (x.cut t 1)
      moves).store.atop (x.firstRun t s root).store (x.firstRun t s root).projectId).projects =
        s.projects ++ [⟨s.lastProjectId + 1, projectName root, projectPath root, none⟩] := rfl
  have halone : ((x.firstRun t { dimensions := s.dimensions } root).run (x.cut t 1)
      moves).store.projects = [] ++ [⟨1, projectName root, projectPath root, none⟩] := by
    rw [IndexRun.projects_run]
    rfl
  constructor
  · exact hb.contents_atop hlone
  · intro query only o honly
    exact Search.shown_atop hb hlone hwidth x.client
      (Search.projectIds_of_only habove hname honly o)
      (Search.projectIds_of_only halone (List.forall_mem_nil _) honly o)

theorem aside_firstRun (h : s.Consistent) (hworks : x.client.provider.Works s.dimensions)
    (hname : ∀ p ∈ s.projects, p.name ≠ projectName root)
    (hplan : x.plan t s path = .ok (x.firstRun t s root))
    (hplan₀ : x.plan t { dimensions := s.dimensions } path =
      .ok (x.firstRun t { dimensions := s.dimensions } root)) :
    Aside x t path (projectName root) s (x.firstRun t s root)
      (x.firstRun t { dimensions := s.dimensions } root) := by
  have hempty := Store.consistent_empty s.dimensions
  refine ⟨?_, ?_, ?_⟩
  · -- The arrivals say all there is to say about the contents; the moves may differ otherwise.
    intro moves moves₀ hasks hasks₀ harrivals
    rw [contents_run_firstRun h hworks hasks, contents_run_firstRun hempty hworks hasks₀,
      harrivals]
    exact novel_eq_filter_novel _ _ _
  · rw [index_eq hplan, index_eq hplan₀, contents_finish_firstRun h hworks,
      contents_finish_firstRun hempty hworks]
    exact novel_eq_filter_novel _ _ _
  · -- Nothing is known below, so the run goes as it does alone, move by move.
    intro hnew
    have hb : (x.firstRun t s root).store.Ground (x.firstRun t s root).projectId :=
      ground_firstRun h
    have hapart := apart_firstRun hnew
    have hcut := cut_under x t (x.firstRun t s root).projectId 1
    have hblind := EmbeddingClient.blind_embedChunks x.client
    constructor
    · intro moves hasks
      have hblinds : ∀ place embedder, .step place embedder ∈ moves →
          Embedder.Blind embedder := by
        intro place embedder hmem
        rw [hasks place embedder hmem]
        exact hblind
      have hrun := hapart.run_atop hb hcut hblinds
      rw [atop_firstRun] at hrun
      rw [hrun]
      exact sameFor_firstRun h hname moves
    · obtain ⟨moves, hmoves, _⟩ := IndexRun.exists_moves_finish (x.cut t 1)
        x.client.embedChunks (x.firstRun t { dimensions := s.dimensions } root)
      have hfinish := hapart.finish_atop hb hcut hblind
      rw [atop_firstRun, hmoves] at hfinish
      have hfinish₀ : (x.firstRun t { dimensions := s.dimensions } root).finish
          (x.cut t (x.firstRun t { dimensions := s.dimensions } root).projectId)
            x.client.embedChunks =
          (x.firstRun t { dimensions := s.dimensions } root).run (x.cut t 1) moves := hmoves
      rw [index_eq hplan, index_eq hplan₀, hfinish, hfinish₀]
      exact sameFor_firstRun h hname moves

end Aside

section Twins

/-- The indexer of notes with a provider that answers: the vector zero for each text. -/
def answering : Indexer :=
  { mdIndexer with
    client :=
      { provider :=
          { dimensions := 1
            answer := fun texts => .vectors (texts.map fun _ => [0]) } } }

theorem works_answering : answering.client.provider.Works 1 := by
  intro texts
  refine ⟨texts.map fun _ => [0], rfl, List.length_map _, ?_⟩
  intro v hv
  obtain ⟨_, _, rfl⟩ := List.mem_map.mp hv
  rfl

theorem resolveRoot_twinTree : Discovery.resolveRoot twinTree "/" = .ok [] ∧
    Discovery.resolveRoot twinTree "/d" = .ok ["d"] := by
  constructor <;> cbv

theorem projectPath_twinTree : projectPath [] = "/" ∧ projectPath ["d"] = "/d" := by
  constructor <;> cbv

theorem projectName_twinTree :
    projectName [] = "untitled-project" ∧ projectName ["d"] = "d" := by
  constructor <;> cbv

/-- From above their directory the same two notes are found. -/
theorem filesUnder_top :
    Discovery.filesUnder (mdIndexer.ignored twinTree) twinTree mdIndexer.selection [] =
      [["d", "a.md"], ["d", "b.md"]] := by
  have hskip : Discovery.leftOut (mdIndexer.ignored twinTree) mdIndexer.selection [] =
      Discovery.leftOut (mdIndexer.ignored twinTree) mdIndexer.selection ["d"] := rfl
  have hnode : twinTree.root.at? ["d"] = some (.directory
      [("a.md", .file (.bytes [102, 105, 115, 104])),
        ("b.md", .file (.bytes [102, 105, 115, 104]))]) := rfl
  have htop : twinTree.root.at? [] = some (.directory [("d", .directory
      [("a.md", .file (.bytes [102, 105, 115, 104])),
        ("b.md", .file (.bytes [102, 105, 115, 104]))])]) := rfl
  rw [← filesUnder_twinTree, Discovery.filesUnder, Discovery.filesUnder, hnode, htop, hskip]
  simp only [Discovery.walk, Discovery.walkAll, FileNode.isDirectory, List.nil_append,
    leftOut_twinTree, Bool.false_eq_true, if_false, List.append_nil]

theorem waiting_top (s : Store) :
    (answering.firstRun twinTree s []).waiting = [["/d/a.md", "/d/b.md"]] := by
  have hfiles : [["d", "a.md"], ["d", "b.md"]].map Path.ofNames = ["/d/a.md", "/d/b.md"] := by cbv
  have hgroups : answering.groups ["/d/a.md", "/d/b.md"] = [["/d/a.md", "/d/b.md"]] := by cbv
  have hfound : Discovery.filesUnder (answering.ignored twinTree) twinTree answering.selection [] =
      [["d", "a.md"], ["d", "b.md"]] := filesUnder_top
  rw [firstRun, hfound, hfiles, hgroups]

theorem cut_answering (p : Int) :
    IndexRun.chunksOf (answering.cut twinTree p) ["/d/a.md", "/d/b.md"] =
      [(twin "/d/a.md").under p, (twin "/d/b.md").under p] := by
  have hcut : answering.cut twinTree 1 = mdIndexer.cut twinTree 1 := rfl
  rw [IndexRun.chunksOf, List.flatMap_cons, List.flatMap_cons, List.flatMap_nil,
    cut_under answering twinTree p 1, cut_under answering twinTree p 1, hcut, cut_twinTree.1,
    cut_twinTree.2]
  rfl

theorem plan_top : answering.plan twinTree { dimensions := 1 } "/" =
    .ok (answering.firstRun twinTree { dimensions := 1 } []) :=
  plan_eq_firstRun resolveRoot_twinTree.1 rfl (List.forall_mem_nil _) (List.forall_mem_nil _)

theorem plan_twins : answering.plan twinTree { dimensions := 1 } "/d" =
    .ok (answering.firstRun twinTree { dimensions := 1 } ["d"]) :=
  plan_eq_firstRun resolveRoot_twinTree.2 rfl (List.forall_mem_nil _) (List.forall_mem_nil _)

/-- What is left when the notes have been indexed from their own directory. -/
def afterTwins : Store := (answering.index twinTree { dimensions := 1 } "/d").1

theorem hasHash_afterTwins : afterTwins.hasHash (textHash "fish".toList) = true := by
  have hrun : answering.firstRun twinTree { dimensions := 1 } ["d"] = twinRun :=
    Except.ok.inj (plan_twins.symm.trans plan_twinTree)
  have hsound : IndexRun.Sound (answering.cut twinTree 1) twinRun := hrun ▸ sound_firstRun _
  have hext := hsound.finish rfl (EmbeddingClient.works_embedChunks works_answering)
  have hstored : Store.hasHash (twinRun.finish (answering.cut twinTree 1)
      answering.client.embedChunks).store (textHash "fish".toList) = true := by
    have hflat : twinRun.waiting.flatten = ["/d/a.md", "/d/b.md"] := rfl
    rw [hext.hasHash, hflat, cut_answering]
    simp [Store.bareRows, Store.row, Chunk.under, twin]
  rw [afterTwins, index_eq plan_twins, hrun]
  exact hstored

/-- Of the two notes the first that is new is stored. -/
theorem contents_index_top {s : Store} (h : s.Consistent) (hwidth : s.dimensions = 1)
    (hplan : answering.plan twinTree s "/" = .ok (answering.firstRun twinTree s [])) :
    (answering.index twinTree s "/").1.contents (s.lastProjectId + 1) =
      Store.novel s.hasHash [Store.row 0 0 (twin "/d/a.md"), Store.row 0 0 (twin "/d/b.md")] := by
  have hworks : answering.client.provider.Works s.dimensions := hwidth ▸ works_answering
  rw [index_eq hplan]
  refine (contents_finish_firstRun h hworks _).trans ?_
  rw [waiting_top, List.flatten_singleton, cut_answering]
  rfl

theorem contents_top :
    (answering.index twinTree { dimensions := 1 } "/").1.contents 1 =
      [Store.row 0 0 (twin "/d/a.md")] := by
  refine (contents_index_top (Store.consistent_empty 1) rfl plan_top).trans ?_
  simp [Store.novel, Store.row, Store.hasHash, twin]

theorem plan_afterTwins : answering.plan twinTree afterTwins "/" =
    .ok (answering.firstRun twinTree afterTwins []) := by
  have hprojects : afterTwins.projects = [⟨1, projectName ["d"], projectPath ["d"], none⟩] :=
    projects_index plan_twins
  apply plan_eq_firstRun resolveRoot_twinTree.1 rfl
  · simp [hprojects, projectPath_twinTree]
  · simp [hprojects, projectName_twinTree]

theorem contents_afterTwins :
    (answering.index twinTree afterTwins "/").1.contents
      (answering.firstRun twinTree afterTwins []).projectId = [] := by
  have hconsistent : afterTwins.Consistent :=
    (reachable_index (.opened 1) plan_twins).consistent
  refine (contents_index_top hconsistent (dimensions_index plan_twins) plan_afterTwins).trans ?_
  simp only [Store.novel, Store.row, twin, hasHash_afterTwins, if_true]

end Twins

/-- Projects meet only in the hashes of their chunks and in their names, if the workers find the
files of both. The first may have been indexed in any order and with any success. -/
theorem projects_meet_in_hashes (x : Indexer) (t : FileTree) (dimensions : Nat)
    {pathA pathB : String} {rootA rootB : List String}
    (hrootA : Discovery.resolveRoot t pathA = .ok rootA)
    (hrootB : Discovery.resolveRoot t pathB = .ok rootB)
    (hfindA : x.deaths (.find rootA) = none) (hfindB : x.deaths (.find rootB) = none)
    (hworks : x.client.provider.Works dimensions) :
    ∃ rA r₀, x.plan t { dimensions } pathA = .ok rA ∧ x.plan t { dimensions } pathB = .ok r₀ ∧
      ∀ moves s, (rA.run (x.cut t rA.projectId) moves).store = s →
        (projectPath rootA ≠ projectPath rootB → projectName rootA = projectName rootB →
          x.plan t s pathB =
            .error (.store (.nameTaken (projectName rootB) (projectPath rootA)))) ∧
        (projectName rootA ≠ projectName rootB →
          ∃ r, x.plan t s pathB = .ok r ∧ Aside x t pathB (projectName rootB) s r r₀) := by
  have hplanA : x.plan t { dimensions } pathA = .ok (x.firstRun t { dimensions } rootA) :=
    plan_eq_firstRun hrootA hfindA (List.forall_mem_nil _) (List.forall_mem_nil _)
  have hplanB : x.plan t { dimensions } pathB = .ok (x.firstRun t { dimensions } rootB) :=
    plan_eq_firstRun hrootB hfindB (List.forall_mem_nil _) (List.forall_mem_nil _)
  refine ⟨_, _, hplanA, hplanB, ?_⟩
  intro moves s hs
  have hprojects : s.projects = [⟨1, projectName rootA, projectPath rootA, none⟩] := by
    rw [← hs, IndexRun.projects_run]
    rfl
  have hconsistent : s.Consistent := by
    rw [← hs]
    exact (IndexRun.reachable_run (reachable_plan (.opened dimensions) hplanA) moves).consistent
  obtain rfl : s.dimensions = dimensions := by
    rw [← hs, IndexRun.dimensions_run]
    rfl
  constructor
  · intro hpaths hnames
    exact plan_of_nameTaken hrootB hfindB hprojects hpaths hnames
  · intro hnames
    have hpaths : projectPath rootA ≠ projectPath rootB :=
      fun heq => hnames (congrArg ProjectName.ofPath heq)
    have hname : ∀ p ∈ s.projects, p.name ≠ projectName rootB := by
      simpa only [hprojects, List.forall_mem_singleton] using hnames
    have hpath : ∀ p ∈ s.projects, p.path ≠ projectPath rootB := by
      simpa only [hprojects, List.forall_mem_singleton] using hpaths
    have hplan := plan_eq_firstRun (x := x) hrootB hfindB hpath hname
    exact ⟨_, hplan, aside_firstRun hconsistent hworks hname hplan hplanB⟩

/-- After the notes have been indexed from their own directory, nothing of them is left to store;
had the first run been cut off before its first move, all would be as if it had not been. -/
theorem nested_twins_meet :
    (∃ r, answering.plan twinTree afterTwins "/" = .ok r ∧
      (answering.index twinTree afterTwins "/").1.contents r.projectId = []) ∧
    ∃ rA r r₀, answering.plan twinTree { dimensions := 1 } "/d" = .ok rA ∧
      answering.plan twinTree rA.store "/" = .ok r ∧
      answering.plan twinTree { dimensions := 1 } "/" = .ok r₀ ∧
      Store.SameFor answering.client "untitled-project" (answering.index twinTree rA.store "/").1
        r.projectId (answering.index twinTree { dimensions := 1 } "/").1 r₀.projectId := by
  have hnames : projectName ["d"] ≠ projectName [] := by
    rw [projectName_twinTree.1, projectName_twinTree.2]
    decide
  obtain ⟨rA, r₀, hplanA, hplan₀, h⟩ := projects_meet_in_hashes answering twinTree 1
    resolveRoot_twinTree.2 resolveRoot_twinTree.1 rfl rfl works_answering
  obtain rfl := Except.ok.inj (plan_twins.symm.trans hplanA)
  obtain rfl := Except.ok.inj (plan_top.symm.trans hplan₀)
  constructor
  · obtain ⟨moves, _, hindex⟩ := exists_moves_index plan_twins
    obtain ⟨r, hplan, haside⟩ := (h moves afterTwins (congrArg Prod.fst hindex).symm).2 hnames
    refine ⟨r, hplan, ?_⟩
    have hwidth : afterTwins.dimensions = 1 := dimensions_index plan_twins
    have hindexed := haside.indexed
    rw [hwidth] at hindexed
    have htop : (answering.index twinTree { dimensions := 1 } "/").1.contents
        (answering.firstRun twinTree { dimensions := 1 } []).projectId =
          [Store.row 0 0 (twin "/d/a.md")] := contents_top
    rw [hindexed, htop]
    simp only [List.filter_cons, List.filter_nil, Store.row, twin, hasHash_afterTwins,
      Bool.not_true, Bool.false_eq_true, if_false]
  · obtain ⟨r, hplan, haside⟩ := (h [] _ rfl).2 hnames
    refine ⟨_, r, _, plan_twins, hplan, plan_top, ?_⟩
    have hnew : ∀ file ∈ (answering.firstRun twinTree { dimensions := 1 } []).waiting.flatten,
        ∀ c ∈ (answering.cut twinTree 1 file).chunks,
          (answering.firstRun twinTree { dimensions := 1 } ["d"]).store.hasHash c.hash = false :=
      fun _ _ _ _ => rfl
    have hsame := (haside.apart hnew).2
    rw [projectName_twinTree.1] at hsame
    exact hsame

/-- The text of a note is stored under the first project alone, and not for a search in the second:
hashes are unique in the whole store. -/
theorem second_project_left_empty :
    ∃ (x : Indexer) (t : FileTree) (dimensions : Nat) (pathA pathB : String)
      (rootA rootB : List String) (r r₀ : IndexRun), x.client.provider.Works dimensions ∧
        Discovery.resolveRoot t pathA = .ok rootA ∧ Discovery.resolveRoot t pathB = .ok rootB ∧
        rootA ≠ rootB ∧ x.plan t (x.index t { dimensions } pathA).1 pathB = .ok r ∧
        x.plan t { dimensions } pathB = .ok r₀ ∧
        (x.index t (x.index t { dimensions } pathA).1 pathB).1.contents r.projectId = [] ∧
        (x.index t { dimensions } pathB).1.contents r₀.projectId =
          [Store.row 0 0 (twin "/d/a.md")] :=
  ⟨answering, twinTree, 1, "/d", "/", ["d"], [], _, _, works_answering, resolveRoot_twinTree.2,
    resolveRoot_twinTree.1, by simp, plan_afterTwins, plan_top, contents_afterTwins, contents_top⟩

end Indexer

end CodeSearch
