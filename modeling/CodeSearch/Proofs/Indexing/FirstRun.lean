import CodeSearch.Proofs.Indexing.Finish
import CodeSearch.Proofs.Indexing.Plans
import CodeSearch.Proofs.Store.Reachable

/-!
# The first run over a directory

A run whose project is not registered yet, on any store: what it starts from, and what the store it
is planned on can be said to be. What a run leaves is a reachable store.
-/

set_option autoImplicit false

namespace CodeSearch

namespace FileTask.StepsTo
variable {s s' : Store} {t t' : FileTask}

theorem reachable (h : StepsTo s t s' t') (hs : s.Reachable) : s'.Reachable := by
  cases h with
  | nothingPending hinsert | inserted hinsert => exact hs.insertChunks hinsert
  | kept hkeep => exact hs.insertEmbeddings hkeep
  | @cleaned pending e => exact hs.performed (.deleteChunks (pending.map StoredChunk.id))
  | _ => exact hs

end FileTask.StepsTo

theorem IndexRun.reachable_run {cut : String → Cut} {r : IndexRun} (h : r.store.Reachable)
    (moves : List Move) : (r.run cut moves).store.Reachable :=
  run_induct (I := fun r' => r'.store.Reachable)
    (fun _ _ _ _ _ _ _ h _ hsteps => hsteps.reachable h) (fun _ _ _ _ _ h _ => h) h moves

namespace Indexer
variable {x : Indexer} {t : FileTree} {s : Store} {path : String} {root : List String}

theorem reachable_plan {r : IndexRun} (h : s.Reachable) (hplan : x.plan t s path = .ok r) :
    r.store.Reachable := by
  obtain ⟨root, s', project, _, _, hproject, rfl⟩ := plan_ok hplan
  exact h.createProject hproject

/-- The path under which the project of a directory is registered. -/
def projectPath (root : List String) : String := Path.withSlashes (Path.ofNames root)

def projectName (root : List String) : String := ProjectName.ofPath (projectPath root)

def firstRun (x : Indexer) (t : FileTree) (s : Store) (root : List String) : IndexRun where
  projectId := s.lastProjectId + 1
  store :=
    { s with
      projects := s.projects ++
        [⟨s.lastProjectId + 1, projectName root, projectPath root, none⟩]
      lastProjectId := s.lastProjectId + 1 }
  waiting :=
    x.groups ((Discovery.filesUnder (x.ignored t) t x.selection root).map Path.ofNames)

section Planning

theorem plan_eq_firstRun (hroot : Discovery.resolveRoot t path = .ok root)
    (halive : x.deaths (.find root) = none)
    (hpath : ∀ p ∈ s.projects, p.path ≠ projectPath root)
    (hname : ∀ p ∈ s.projects, p.name ≠ projectName root) :
    x.plan t s path = .ok (x.firstRun t s root) := by
  have hnone : s.projectAt? (projectPath root) = none := by
    apply List.find?_eq_none.mpr
    intro p hp
    simpa using hpath p hp
  have hcreate := Store.createProject_new hnone hname
  simp only [projectPath] at hcreate
  simp only [plan, hroot, halive, hcreate]
  rfl

/-- Another directory is refused if its project would have the name of the one that is there. -/
theorem plan_of_nameTaken {id : Int} {name path' : String}
    (hroot : Discovery.resolveRoot t path = .ok root) (halive : x.deaths (.find root) = none)
    (hprojects : s.projects = [⟨id, name, path', none⟩]) (hpath : path' ≠ projectPath root)
    (hname : name = projectName root) :
    x.plan t s path = .error (.store (.nameTaken (projectName root) path')) := by
  have hat : s.projectAt? (projectPath root) = none := by
    simp [Store.projectAt?, hprojects, hpath]
  have htaken : s.projects.find? (fun p => p.name == ProjectName.ofPath (projectPath root)) =
      some ⟨id, name, path', none⟩ := by
    simp [hprojects, hname, projectName]
  have hcreate : s.createProject (projectPath root) =
      .error (.nameTaken (projectName root) path') := by
    simp only [Store.createProject, hat, htaken]
    rfl
  rw [projectPath] at hcreate
  simp only [plan, hroot, halive, hcreate]

end Planning

section Start

theorem registered_firstRun :
    (x.firstRun t s root).store.hasProject (x.firstRun t s root).projectId = true := by
  simp [firstRun, Store.hasProject]

/-- The project is new, so its id is that of no row. -/
theorem ground_firstRun (h : s.Consistent) :
    (x.firstRun t s root).store.Ground (x.firstRun t s root).projectId := by
  refine ⟨registered_firstRun, ?_, h.keyed.le_last, h.linked.owned⟩
  intro c hc heq
  obtain ⟨p, hp, hid⟩ := List.any_eq_true.mp (h.linked.housed c hc)
  have hle := h.linked.numbered p hp
  rw [beq_iff_eq.mp hid, heq] at hle
  simp only [firstRun] at hle
  omega

theorem sound_firstRun (cut : String → Cut) : IndexRun.Sound cut (x.firstRun t s root) :=
  ⟨registered_firstRun, List.forall_mem_nil _⟩

theorem lone_firstRun (cut : String → Cut) (dimensions : Nat) :
    IndexRun.Lone cut (x.firstRun t { dimensions } root) where
  registered := registered_firstRun
  store := ⟨List.forall_mem_nil _, List.forall_mem_nil _, List.forall_mem_nil _, Int.le_refl 0⟩
  tasks := List.forall_mem_nil _

/-- A first run on a store starts as one on an empty store would above it. -/
theorem atop_firstRun :
    (x.firstRun t { dimensions := s.dimensions } root).atop (x.firstRun t s root).store
      (x.firstRun t s root).projectId = x.firstRun t s root := by
  simp [firstRun, IndexRun.atop, Store.atop]

end Start

section Index
variable {r : IndexRun}

theorem index_eq (hplan : x.plan t s path = .ok r) :
    (x.index t s path).1 = (r.finish (x.cut t r.projectId) x.client.embedChunks).store := by
  rw [index, hplan]

theorem projects_index (hplan : x.plan t s path = .ok r) :
    (x.index t s path).1.projects = r.store.projects := by
  obtain ⟨moves, _, hindex⟩ := exists_moves_index hplan
  rw [hindex, IndexRun.projects_run]

theorem dimensions_index (hplan : x.plan t s path = .ok r) :
    (x.index t s path).1.dimensions = r.store.dimensions := by
  obtain ⟨moves, _, hindex⟩ := exists_moves_index hplan
  rw [hindex, IndexRun.dimensions_run]

theorem reachable_index (h : s.Reachable) (hplan : x.plan t s path = .ok r) :
    (x.index t s path).1.Reachable := by
  obtain ⟨moves, _, hindex⟩ := exists_moves_index hplan
  rw [hindex]
  exact IndexRun.reachable_run (reachable_plan h hplan) moves

end Index

section Cut

/-- The chunks of a file are the same for each project but for its id. -/
theorem cut_under (x : Indexer) (t : FileTree) (p q : Int) (path : String) :
    x.cut t p path = (x.cut t q path).under p := by
  have hchunks : Chunking.ofFile? x.parse t x.limits (some p) path =
      (Chunking.ofFile? x.parse t x.limits (some q) path).map (List.map (Chunk.under p)) := by
    unfold Chunking.ofFile?
    split
    · rfl
    · rename_i text _
      cases Chunking.ofText? x.parse x.limits (Path.withSlashes path) text (.ofPath path) with
      | none => rfl
      | some result =>
        cases result with
        | error e => rfl
        | ok chunks =>
          simp only [Option.bind_eq_bind, Option.bind_some, Option.pure_def, Option.map_some,
            List.map_map]
          rfl
  unfold cut
  rw [hchunks]
  cases x.deaths (.cut path) with
  | some reason => rfl
  | none => cases Chunking.ofFile? x.parse t x.limits (some q) path <;> rfl

theorem bareRows_chunksOf_cut (x : Indexer) (t : FileTree) (p q : Int) (paths : List String) :
    Store.bareRows (IndexRun.chunksOf (x.cut t p) paths) =
      Store.bareRows (IndexRun.chunksOf (x.cut t q) paths) := by
  have hcut : ∀ path, (x.cut t p path).chunks = (x.cut t q path).chunks.map (Chunk.under p) := by
    intro path
    rw [cut_under x t p q, Cut.chunks_under]
  simp only [IndexRun.chunksOf, hcut]
  rw [Store.bareRows, Store.bareRows, List.map_flatMap, List.map_flatMap]
  congr 1
  funext path
  rw [List.map_map]
  rfl

end Cut

end Indexer

end CodeSearch
