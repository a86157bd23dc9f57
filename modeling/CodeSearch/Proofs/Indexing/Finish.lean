import CodeSearch.Proofs.Indexing.Arrivals
import CodeSearch.Proofs.Indexing.Atop

/-!
# The whole run in file order

The order in which an indexer goes through a run by itself: all tasks of a group take their steps in
turn. With a provider that works the files come to the store in the order in which they were found;
and above other projects the run goes as it does alone.
-/

set_option autoImplicit false

namespace CodeSearch

namespace RunFile
variable {s : Store} {p : Int} {cut : String → Cut} {files : List RunFile}
  {embedder : Embedder}

/-- The files whose chunks are still to be stored. -/
def uncut (files : List RunFile) : List String :=
  (files.filter fun f => f.task.isCut).map RunFile.path

theorem isCut_step (embedder : Embedder) (s : Store) (t : FileTask) :
    (t.step embedder s).2.isCut = false := by
  have hsteps := FileTask.step_stepsTo embedder s t
  cases htask : (t.step embedder s).2 with
  | cut projectId chunks => exact absurd htask (hsteps.ne_cut projectId chunks)
  | _ => rfl

theorem uncut_stepAll (embedder : Embedder) (s : Store) (files : List RunFile) :
    uncut (stepAll embedder s files).2 = [] := by
  induction files generalizing s with
  | nil => rfl
  | cons f rest ih =>
    have hrest := ih (f.task.step embedder s).1
    rw [uncut] at hrest ⊢
    simp only [stepAll]
    rw [List.filter_cons_of_neg, hrest]
    rw [isCut_step]
    exact Bool.false_ne_true

/-- In a round all files that are cut come to the store, in order. -/
theorem sound_stepAll (hworks : Embedder.Works embedder s.dimensions)
    (hregistered : s.hasProject p = true)
    (hfiles : ∀ f ∈ files, f.task.Sound p (cut f.path) s) :
    (∀ f ∈ (stepAll embedder s files).2, f.task.Sound p (cut f.path) (stepAll embedder s files).1) ∧
      Store.Extends p s (IndexRun.chunksOf cut (uncut files)) (stepAll embedder s files).1 := by
  induction files generalizing s with
  | nil => exact ⟨List.forall_mem_nil _, Store.Extends.refl p s⟩
  | cons f rest ih =>
    obtain ⟨hf, hrest⟩ := List.forall_mem_cons.mp hfiles
    obtain ⟨hstep, hext⟩ := hf.step hregistered hworks
    obtain ⟨hall, hext'⟩ := ih (by rwa [hext.dimensions]) ((hext.hasProject p).trans hregistered)
      fun g hg => (hrest g hg).mono hext
    refine ⟨List.forall_mem_cons.mpr ⟨hstep.mono hext', hall⟩, ?_⟩
    have hcome : IndexRun.chunksOf cut (uncut (f :: rest)) =
        (if f.task.isCut then (cut f.path).chunks else []) ++
          IndexRun.chunksOf cut (uncut rest) := by
      rw [uncut, uncut, List.filter_cons]
      split <;> rfl
    rw [hcome]
    exact hext.trans hext'

end RunFile

namespace IndexRun
variable {cut above : String → Cut} {r : IndexRun} {b : Store} {p : Int}
  {embedder : Embedder}

section Order

theorem uncut_of_quiet (h : r.isQuiet = true) : RunFile.uncut r.files = [] := by
  rw [RunFile.uncut, List.filter_eq_nil_iff.mpr, List.map_nil]
  intro f hf
  obtain ⟨result, htask⟩ := done_of_quiet h hf
  simp [htask, FileTask.isCut]

theorem Sound.settle (h : Sound cut r) (hworks : Embedder.Works embedder r.store.dimensions) :
    Sound cut (r.settle embedder) ∧ Store.Extends r.projectId r.store
      (chunksOf cut (RunFile.uncut r.files)) (r.settle embedder).store := by
  fun_induction IndexRun.settle embedder r with
  | case1 r hquiet =>
    rw [uncut_of_quiet hquiet]
    exact ⟨h, Store.Extends.refl r.projectId r.store⟩
  | case2 r hquiet next ih =>
    obtain ⟨htasks, hext⟩ := RunFile.sound_stepAll hworks h.registered h.tasks
    obtain ⟨hsound, hext'⟩ := ih ⟨(hext.hasProject r.projectId).trans h.registered, htasks⟩
      (by rwa [hext.dimensions])
    refine ⟨hsound, ?_⟩
    -- After one round nothing is cut any more, so the rounds that follow offer no chunks.
    rw [RunFile.uncut_stepAll] at hext'
    simpa [chunksOf] using hext.trans hext'

theorem takeUp_of_quiet (hquiet : r.isQuiet = true) {group : List String}
    {groups : List (List String)} (hwaiting : r.waiting = group :: groups) :
    r.takeUp cut =
      { r with
        files := r.files ++ group.map fun path => ⟨path, .start r.projectId (cut path)⟩
        waiting := groups } := by
  simp only [takeUp, hwaiting, hquiet, if_true]

variable (cut) in
/-- A file whose worker died has no chunks to miss. -/
theorem chunksOf_uncut_fresh (projectId : Int) (group : List String) :
    chunksOf cut (RunFile.uncut (group.map fun path => ⟨path, .start projectId (cut path)⟩)) =
      chunksOf cut group := by
  induction group with
  | nil => rfl
  | cons path group ih =>
    simp only [RunFile.uncut, chunksOf] at ih ⊢
    rw [List.map_cons, List.filter_cons, List.flatMap_cons, ← ih]
    dsimp only
    cases hcut : cut path with
    | made chunks =>
      have hhead : (FileTask.start projectId (.made chunks)).isCut = true := rfl
      rw [if_pos hhead, List.map_cons, List.flatMap_cons, hcut]
    | died reason =>
      have hhead : (FileTask.start projectId (.died reason)).isCut ≠ true := Bool.false_ne_true
      rw [if_neg hhead]
      rfl

theorem chunksOf_uncut_takeUp (hquiet : r.isQuiet = true) {group : List String}
    {groups : List (List String)} (hwaiting : r.waiting = group :: groups) :
    chunksOf cut (RunFile.uncut (r.takeUp cut).files) = chunksOf cut group := by
  have hold := uncut_of_quiet hquiet
  have hfresh := chunksOf_uncut_fresh cut r.projectId group
  rw [RunFile.uncut] at hold hfresh ⊢
  rw [takeUp_of_quiet hquiet hwaiting, List.filter_append, List.map_append, hold,
    List.nil_append, hfresh]

/-- Group after group, each to its end. -/
theorem Sound.foldl_settle (h : Sound cut r) (hquiet : r.isQuiet = true)
    {groups : List (List String)} (hwaiting : r.waiting = groups)
    (hworks : Embedder.Works embedder r.store.dimensions) :
    Store.Extends r.projectId r.store (chunksOf cut groups.flatten)
      (groups.foldl (fun r _ => (r.takeUp cut).settle embedder) r).store := by
  induction groups generalizing r with
  | nil => exact Store.Extends.refl r.projectId r.store
  | cons group groups ih =>
    have hproject : (r.takeUp cut).projectId = r.projectId := projectId_run cut r [.takeUp]
    obtain ⟨hsound, hext⟩ := h.takeUp.settle (by rwa [store_takeUp])
    obtain ⟨⟨moves, hmoves⟩, hquiet', hwaiting'⟩ :=
      exists_moves_settle cut embedder (r.takeUp cut)
    have hproject' : ((r.takeUp cut).settle embedder).projectId = r.projectId := by
      rw [hmoves, projectId_run, hproject]
    have hrest : ((r.takeUp cut).settle embedder).waiting = groups := by
      rw [hwaiting', takeUp_of_quiet hquiet hwaiting]
    rw [chunksOf_uncut_takeUp hquiet hwaiting, store_takeUp, hproject] at hext
    have hext' := ih hsound hquiet' hrest (by rwa [hext.dimensions])
    rw [hproject'] at hext'
    rw [List.foldl_cons, List.flatten_cons, chunksOf_append]
    exact hext.trans hext'

/-- In the whole run the files come to the store in the order in which they were found. -/
theorem Sound.finish (h : Sound cut r) (hfiles : r.files = [])
    (hworks : Embedder.Works embedder r.store.dimensions) :
    Store.Extends r.projectId r.store (chunksOf cut r.waiting.flatten)
      (r.finish cut embedder).store := by
  have hquiet : r.isQuiet = true := by simp [isQuiet, hfiles]
  have hsettled : r.settle embedder = r := by rw [IndexRun.settle, dif_pos hquiet]
  rw [IndexRun.finish, hsettled]
  exact h.foldl_settle hquiet rfl hworks

end Order

section Above

theorem stepAll_atop {s : Store} {q : Int} {files : List RunFile} (hb : b.Ground p)
    (hwidth : b.dimensions = s.dimensions) (hregistered : s.hasProject q = true) (hs : s.Lone q)
    (hlone : ∀ f ∈ files, f.task.Lone q (cut f.path).chunks)
    (hnew : ∀ f ∈ files, ∀ c ∈ (cut f.path).chunks, b.hasHash c.hash = false)
    (hblind : Embedder.Blind embedder) :
    RunFile.stepAll embedder (s.atop b p)
        (files.map fun f => { f with task := f.task.moved b.lastChunkId p }) =
      ((RunFile.stepAll embedder s files).1.atop b p,
        (RunFile.stepAll embedder s files).2.map fun f =>
          { f with task := f.task.moved b.lastChunkId p }) := by
  induction files generalizing s with
  | nil => rfl
  | cons f rest ih =>
    obtain ⟨hf, hrest⟩ := List.forall_mem_cons.mp hlone
    obtain ⟨hnewf, hnewrest⟩ := List.forall_mem_cons.mp hnew
    have hsteps := FileTask.step_stepsTo embedder s f.task
    have hstep := FileTask.step_atop hb hwidth hregistered hs hf hnewf hblind
    have hwidth' : b.dimensions = (f.task.step embedder s).1.dimensions :=
      hwidth.trans hsteps.dimensions.symm
    have hregistered' : (f.task.step embedder s).1.hasProject q = true := by
      rw [Store.hasProject, hsteps.projects]
      exact hregistered
    have hih := ih hwidth' hregistered' (hsteps.lone hs hf).1 hrest hnewrest
    simp only [List.map_cons, RunFile.stepAll, hstep, hih]

theorem Apart.settle_atop (h : Apart b cut r) (hb : b.Ground p)
    (hblind : Embedder.Blind embedder) :
    (r.atop b p).settle embedder = (r.settle embedder).atop b p := by
  fun_induction IndexRun.settle embedder r with
  | case1 r hquiet =>
    rw [IndexRun.settle, dif_pos (isQuiet_atop.trans hquiet)]
  | case2 r hquiet next ih =>
    -- A round is a course of moves, so what the induction needs holds after it as well.
    have hround := stepAll_atop hb h.width h.lone.registered h.lone.store h.lone.tasks
      (fun f hf => h.unknown_file hf) hblind
    obtain ⟨moves, hmoves⟩ := exists_moves_stepAll cut embedder r.files [] r rfl
    have h' := h.run moves
    rw [hmoves] at h'
    have habove : ¬ (r.atop b p).isQuiet = true := fun hq => hquiet (isQuiet_atop.symm.trans hq)
    rw [IndexRun.settle, dif_neg habove, ← ih h']
    simp only [atop, hround]
    rfl

theorem Apart.foldl_settle_atop (h : Apart b cut r) (hb : b.Ground p)
    (hcut : ∀ path, above path = (cut path).under p)
    (hblind : Embedder.Blind embedder) (groups : List (List String)) :
    groups.foldl (fun r _ => (r.takeUp above).settle embedder) (r.atop b p) =
      (groups.foldl (fun r _ => (r.takeUp cut).settle embedder) r).atop b p := by
  induction groups generalizing r with
  | nil => rfl
  | cons group groups ih =>
    have htaken : Apart b cut (r.takeUp cut) := h.run [.takeUp]
    obtain ⟨⟨moves, hmoves⟩, _⟩ := exists_moves_settle cut embedder (r.takeUp cut)
    have hsettled := htaken.run moves
    rw [← hmoves] at hsettled
    rw [List.foldl_cons, List.foldl_cons, takeUp_atop hcut, htaken.settle_atop hb hblind]
    exact ih hsettled

theorem Apart.finish_atop (h : Apart b cut r) (hb : b.Ground p)
    (hcut : ∀ path, above path = (cut path).under p)
    (hblind : Embedder.Blind embedder) :
    (r.atop b p).finish above embedder = (r.finish cut embedder).atop b p := by
  obtain ⟨⟨moves, hmoves⟩, _⟩ := exists_moves_settle cut embedder r
  have hsettled := h.run moves
  rw [← hmoves] at hsettled
  rw [IndexRun.finish, IndexRun.finish, h.settle_atop hb hblind]
  exact hsettled.foldl_settle_atop hb hcut hblind r.waiting

end Above

end IndexRun

end CodeSearch
