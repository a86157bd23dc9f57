import CodeSearch.Proofs.Indexing.Turns

/-!
# Runs over the files of a project

The moves of a run are turns of the pool of its tasks, so what turns keep is kept by runs. Where a
row comes from, and which file a pending chunk belongs to, can be read off the paths that the run
has taken up. Going on until no task is under way is one of the orders of moves.
-/

set_option autoImplicit false

namespace CodeSearch

namespace IndexRun
variable {cut : String → Cut} {r : IndexRun}

section Induction

theorem step_eq {place : Nat} {f : RunFile} (h : r.files[place]? = some f) (embedder : Embedder) :
    r.step place embedder =
      { r with
        store := (f.task.step embedder r.store).1
        files := r.files.set place { f with task := (f.task.step embedder r.store).2 } } := by
  simp only [step, h]

theorem run_cons (cut : String → Cut) (r : IndexRun) (move : Move) (moves : List Move) :
    r.run cut (move :: moves) = (r.move cut move).run cut moves := rfl

theorem run_append (cut : String → Cut) (r : IndexRun) (moves moves' : List Move) :
    r.run cut (moves ++ moves') = (r.run cut moves).run cut moves' := List.foldl_append

/-- What holds at the start and is kept by steps and by taking up a group holds all along. The moves
so far are at hand, so what is known of all runs is known of the one before the step. -/
theorem run_induct_step {I : IndexRun → Prop}
    (hstep : ∀ moves r' place f embedder, r' = r.run cut moves → I r' →
      r'.files[place]? = some f →
      I { r' with
          store := (f.task.step embedder r'.store).1
          files := r'.files.set place { f with task := (f.task.step embedder r'.store).2 } })
    (htakeUp : ∀ moves r' group rest, r' = r.run cut moves → I r' → r'.isQuiet = true →
      r'.waiting = group :: rest →
      I { r' with
          files := r'.files ++ group.map fun path => ⟨path, .start r'.projectId (cut path)⟩
          waiting := rest })
    (h : I r) (moves : List Move) : I (r.run cut moves) := by
  induction moves using List.reverseRecOn with
  | nil => exact h
  | append_singleton moves move ih =>
    rw [run_append]
    cases move with
    | step place embedder =>
      change I ((r.run cut moves).step place embedder)
      cases hplace : (r.run cut moves).files[place]? with
      | none => simpa only [step, hplace] using ih
      | some f =>
        rw [step_eq hplace]
        exact hstep moves _ place f embedder rfl ih hplace
    | takeUp =>
      change I ((r.run cut moves).takeUp cut)
      unfold takeUp
      split
      · exact ih
      · rename_i group rest hwaiting
        split
        · rename_i hquiet
          exact htakeUp moves _ group rest rfl ih hquiet hwaiting
        · exact ih

theorem run_induct {I : IndexRun → Prop}
    (hstep : ∀ moves r' place f s' t', r' = r.run cut moves → I r' → r'.files[place]? = some f →
      FileTask.StepsTo r'.store f.task s' t' →
      I { r' with store := s', files := r'.files.set place { f with task := t' } })
    (htakeUp : ∀ moves r' group rest, r' = r.run cut moves → I r' → r'.waiting = group :: rest →
      I { r' with
          files := r'.files ++ group.map fun path => ⟨path, .start r'.projectId (cut path)⟩
          waiting := rest })
    (h : I r) (moves : List Move) : I (r.run cut moves) := by
  apply run_induct_step _ _ h
  · intro moves r' place f embedder hr hI hplace
    exact hstep moves r' place f _ _ hr hI hplace (FileTask.step_stepsTo embedder r'.store f.task)
  · intro moves r' group rest hr hI _ hwaiting
    exact htakeUp moves r' group rest hr hI hwaiting

theorem projectId_run (cut : String → Cut) (r : IndexRun) (moves : List Move) :
    (r.run cut moves).projectId = r.projectId :=
  run_induct (I := fun r' => r'.projectId = r.projectId) (fun _ _ _ _ _ _ _ h _ _ => h)
    (fun _ _ _ _ _ h _ => h) rfl moves

theorem projects_run (cut : String → Cut) (r : IndexRun) (moves : List Move) :
    (r.run cut moves).store.projects = r.store.projects :=
  run_induct (I := fun r' => r'.store.projects = r.store.projects)
    (fun _ _ _ _ _ _ _ h _ hsteps => hsteps.projects.trans h) (fun _ _ _ _ _ h _ => h) rfl moves

theorem unique_run (h : (r.store.embeddings.map Embedding.chunkId).Nodup) (moves : List Move) :
    ((r.run cut moves).store.embeddings.map Embedding.chunkId).Nodup :=
  run_induct (I := fun r' => (r'.store.embeddings.map Embedding.chunkId).Nodup)
    (fun _ _ _ _ _ _ _ h _ hsteps => hsteps.nodup h) (fun _ _ _ _ _ h _ => h) h moves

end Induction

section Paths

/-- The chunks of a file carry its path. -/
def OfPaths (cut : String → Cut) : Prop :=
  ∀ path, ∀ c ∈ (cut path).chunks, c.filePath = Path.withSlashes path

theorem OfPaths.oneFile (h : OfPaths cut) (path : String) : FileTask.OneFile (cut path).chunks := by
  intro c hc d hd
  rw [h path c hc, h path d hd]

def taken (r : IndexRun) : List String := r.files.map RunFile.path

theorem map_path_set {files : List RunFile} {place : Nat} {f : RunFile} (t' : FileTask)
    (h : files[place]? = some f) :
    (files.set place { f with task := t' }).map RunFile.path = files.map RunFile.path := by
  apply List.ext_getElem?
  intro i
  rw [List.map_set, List.getElem?_set]
  split
  · rename_i heq
    subst heq
    obtain ⟨hlt, rfl⟩ := List.getElem?_eq_some_iff.mp h
    simp [hlt]
  · rfl

theorem map_path_fresh (group : List String) (projectId : Int) :
    (group.map fun path => (⟨path, .start projectId (cut path)⟩ : RunFile)).map RunFile.path =
      group := by
  simp [Function.comp_def]

/-- No file is lost and none is added. -/
theorem taken_append_waiting (cut : String → Cut) (r : IndexRun) (moves : List Move) :
    (r.run cut moves).taken ++ (r.run cut moves).waiting.flatten =
      r.taken ++ r.waiting.flatten := by
  apply run_induct (I := fun r' =>
    r'.taken ++ r'.waiting.flatten = r.taken ++ r.waiting.flatten)
  · intro _ r' place f s' t' _ h hplace _
    simpa only [taken, map_path_set t' hplace] using h
  · intro _ r' group rest _ h hwaiting
    rw [← h, hwaiting]
    simp only [taken, List.map_append, map_path_fresh, List.flatten_cons, List.append_assoc]
  · rfl

theorem taken_of_over {moves : List Move} (hover : (r.run cut moves).Over) :
    (r.run cut moves).taken = r.taken ++ r.waiting.flatten := by
  have h := taken_append_waiting cut r moves
  rwa [hover.2, List.flatten_nil, List.append_nil] at h

end Paths

section Pools

def toPool (r : IndexRun) : Pool := { store := r.store, tasks := r.files.map RunFile.task }

theorem toPool_step (r : IndexRun) (place : Nat) (embedder : Embedder) :
    (r.step place embedder).toPool = r.toPool.turn (.step place embedder) := by
  cases hplace : r.files[place]? with
  | none =>
    rw [Pool.turn_step_none (by simp [toPool, hplace])]
    simp only [step, hplace]
  | some f =>
    have htask : r.toPool.tasks[place]? = some f.task := by simp [toPool, hplace]
    rw [step_eq hplace, Pool.turn_step htask]
    simp only [toPool, List.map_set]

/-- Moves are turns: files are taken up by joining one by one. -/
theorem exists_turns_run (cut : String → Cut) (r : IndexRun) (moves : List Move) :
    ∃ turns, (r.run cut moves).toPool = r.toPool.run turns := by
  induction moves generalizing r with
  | nil => exact ⟨[], rfl⟩
  | cons move moves ih =>
    obtain ⟨turns, hturns⟩ := ih (r.move cut move)
    rw [run_cons, hturns]
    cases move with
    | step place embedder =>
      refine ⟨.step place embedder :: turns, ?_⟩
      rw [Pool.run_cons, ← toPool_step]
      rfl
    | takeUp =>
      simp only [IndexRun.move, takeUp]
      split
      · exact ⟨turns, rfl⟩
      · rename_i group rest _
        split
        · refine ⟨group.map (fun path => .join r.projectId (cut path)) ++ turns, ?_⟩
          rw [Pool.run_append, Pool.run_map_join]
          simp [toPool, Function.comp_def]
        · exact ⟨turns, rfl⟩

theorem keyed_run (h : r.toPool.Keyed) (moves : List Move) : (r.run cut moves).toPool.Keyed := by
  obtain ⟨turns, hturns⟩ := exists_turns_run cut r moves
  rw [hturns]
  exact Pool.keyed_run h turns

end Pools

section Ends

def Failed (r : IndexRun) : Prop := ∃ f ∈ r.files, ∃ e, f.task = .done (.error e)

theorem done_of_quiet (h : r.isQuiet = true) {f : RunFile} (hf : f ∈ r.files) :
    ∃ result, f.task = .done result := by
  have hdone := List.all_eq_true.mp h f hf
  cases htask : f.task with
  | done result => exact ⟨result, rfl⟩
  | _ => simp [htask, FileTask.result?] at hdone

theorem processed_of_quiet (h : r.isQuiet = true) (hfailed : ¬ r.Failed) {f : RunFile}
    (hf : f ∈ r.files) : ∃ outcome, f.task = .done (.ok outcome) := by
  obtain ⟨result, htask⟩ := done_of_quiet h hf
  cases result with
  | ok outcome => exact ⟨outcome, htask⟩
  | error e => exact absurd ⟨f, hf, e, htask⟩ hfailed

theorem mem_set_of_done {files : List RunFile} {place : Nat} {f g : RunFile} {s s' : Store}
    {t' : FileTask} {result : Except IndexError FileOutcome} (hplace : files[place]? = some f)
    (hsteps : FileTask.StepsTo s f.task s' t') (hg : g ∈ files) (hdone : g.task = .done result) :
    g ∈ files.set place { f with task := t' } := by
  by_cases heq : g = f
  · subst heq
    rw [hdone] at hsteps
    cases hsteps
    have hsame : ({ g with task := .done result } : RunFile) = g := by rw [← hdone]
    rw [hsame]
    exact List.mem_set (List.getElem?_eq_some_iff.mp hplace).1 _
  · exact Pool.mem_set_of_ne hplace hg heq

theorem Failed.set {place : Nat} {f : RunFile} {s' : Store} {t' : FileTask} (h : r.Failed)
    (hplace : r.files[place]? = some f) (hsteps : FileTask.StepsTo r.store f.task s' t') :
    Failed { r with store := s', files := r.files.set place { f with task := t' } } := by
  obtain ⟨g, hg, e, hdone⟩ := h
  exact ⟨g, mem_set_of_done hplace hsteps hg hdone, e, hdone⟩

theorem not_owed_of_quiet (h : r.isQuiet = true) {f : RunFile} (hf : f ∈ r.files) (id : Int) :
    id ∉ f.task.owes := by
  obtain ⟨result, htask⟩ := done_of_quiet h hf
  rw [htask]
  exact List.not_mem_nil

end Ends

section Reports

def isError : Except IndexError FileOutcome → Bool
  | .ok _ => false
  | .error _ => true

def failure? (outcome : String × Except IndexError FileOutcome) : Option FileFailure :=
  match outcome.2 with
  | .ok _ => none
  | .error error => some { file := Path.withSlashes outcome.1, error }

theorem foldl_note (outcomes : List (String × Except IndexError FileOutcome))
    (report : IndexReport) :
    outcomes.foldl (fun report outcome => report.note (Path.withSlashes outcome.1) outcome.2)
      report =
      { report with
        processed := report.processed + outcomes.countP fun outcome => !isError outcome.2
        failed := report.failed + outcomes.countP fun outcome => isError outcome.2
        failures := report.failures ++ outcomes.filterMap failure? } := by
  induction outcomes generalizing report with
  | nil => simp
  | cons outcome rest ih =>
    rw [List.foldl_cons, ih, List.countP_cons, List.countP_cons, List.filterMap_cons]
    cases houtcome : outcome.2 with
    | ok o =>
      simp only [IndexReport.note, isError, failure?, houtcome, Bool.not_false, if_true,
        Bool.false_eq_true, if_false]
      congr 1
      omega
    | error e =>
      simp only [IndexReport.note, isError, failure?, houtcome, Bool.not_true, if_true,
        Bool.false_eq_true, if_false, List.append_assoc, List.singleton_append]
      congr 1
      omega

theorem report_eq (r : IndexRun) : r.report =
    { total := r.files.length + r.waiting.flatten.length
      processed := r.outcomes.countP fun outcome => !isError outcome.2
      failed := r.outcomes.countP fun outcome => isError outcome.2
      failures := r.outcomes.filterMap failure? } := by
  rw [report, foldl_note]
  simp only [Nat.zero_add, List.nil_append]

theorem mem_outcomes {path : String} {result : Except IndexError FileOutcome} :
    (path, result) ∈ r.outcomes ↔ ⟨path, .done result⟩ ∈ r.files := by
  simp only [outcomes, List.mem_filterMap, Option.map_eq_some_iff, Prod.mk.injEq]
  constructor
  · rintro ⟨f, hf, result', hresult, rfl, rfl⟩
    obtain ⟨path, task⟩ := f
    cases task with
    | done result => rwa [← Option.some.inj hresult]
    | _ => simp [FileTask.result?] at hresult
  · intro hf
    exact ⟨_, hf, result, rfl, rfl, rfl⟩

theorem not_failed_of_report (h : r.report.failed = 0) : ¬ r.Failed := by
  rintro ⟨⟨path, task⟩, hf, e, rfl⟩
  have hpos : 0 < r.outcomes.countP fun outcome => isError outcome.2 :=
    List.countP_pos_iff.mpr ⟨_, mem_outcomes.mpr hf, rfl⟩
  rw [report_eq] at h
  exact absurd h hpos.ne'

theorem length_outcomes (h : r.isQuiet = true) : r.outcomes.length = r.files.length := by
  have hall : ∀ f ∈ r.files, (f.task.result?.map fun result => (f.path, result)).isSome := by
    intro f hf
    have hdone := List.all_eq_true.mp h f hf
    simpa using hdone
  rw [outcomes, List.length_filterMap_eq_countP, List.countP_eq_length.mpr hall]

/-- The report of a run that is over and in which no file has failed. -/
theorem report_of_over (h : r.Over) (hfailed : ¬ r.Failed) :
    r.report = { total := r.taken.length, processed := r.taken.length } := by
  have hok : ∀ outcome ∈ r.outcomes, isError outcome.2 = false := by
    rintro ⟨path, result⟩ hmem
    cases result with
    | ok outcome => rfl
    | error e => exact absurd ⟨_, mem_outcomes.mp hmem, e, rfl⟩ hfailed
  have hprocessed : r.outcomes.countP (fun outcome => !isError outcome.2) = r.outcomes.length := by
    apply List.countP_eq_length.mpr
    intro outcome houtcome
    rw [hok outcome houtcome, Bool.not_false]
  have hfailures : r.outcomes.countP (fun outcome => isError outcome.2) = 0 := by
    apply List.countP_eq_zero.mpr
    intro outcome houtcome
    rw [hok outcome houtcome]
    exact Bool.false_ne_true
  have hnone : r.outcomes.filterMap failure? = [] := by
    apply List.filterMap_eq_nil_iff.mpr
    rintro ⟨path, result⟩ hmem
    have := hok _ hmem
    cases result with
    | ok outcome => rfl
    | error e => cases this
  rw [report_eq, hprocessed, hfailures, hnone, length_outcomes h.1, h.2]
  simp only [taken, List.flatten_nil, List.length_nil, Nat.add_zero, List.length_map]

end Reports

section Orders

theorem exists_moves_stepAll (cut : String → Cut) (embedder : Embedder)
    (files front : List RunFile) (r : IndexRun) (hfiles : r.files = front ++ files) :
    ∃ moves, r.run cut moves =
      { r with
        store := (RunFile.stepAll embedder r.store files).1
        files := front ++ (RunFile.stepAll embedder r.store files).2 } := by
  induction files generalizing front r with
  | nil =>
    refine ⟨[], ?_⟩
    simp only [run, List.foldl_nil, RunFile.stepAll, ← hfiles]
  | cons f rest ih =>
    have hplace : r.files[front.length]? = some f := by simp [hfiles]
    have hstep := step_eq hplace embedder
    have hset : r.files.set front.length { f with task := (f.task.step embedder r.store).2 } =
        (front ++ [{ f with task := (f.task.step embedder r.store).2 }]) ++ rest := by
      rw [hfiles, List.set_append_right _ _ (Nat.le_refl _)]
      simp
    obtain ⟨moves, hmoves⟩ := ih _ (r.step front.length embedder) (by rw [hstep]; exact hset)
    refine ⟨.step front.length embedder :: moves, ?_⟩
    rw [run_cons, move, hmoves, hstep]
    simp only [RunFile.stepAll, List.append_assoc, List.singleton_append]

theorem exists_moves_settle (cut : String → Cut) (embedder : Embedder) (r : IndexRun) :
    (∃ moves, r.settle embedder = r.run cut moves) ∧ (r.settle embedder).isQuiet = true ∧
      (r.settle embedder).waiting = r.waiting := by
  fun_induction settle embedder r with
  | case1 r h => exact ⟨⟨[], rfl⟩, h, rfl⟩
  | case2 r h next ih =>
    obtain ⟨⟨moves, hmoves⟩, hquiet, hwaiting⟩ := ih
    obtain ⟨round, hround⟩ := exists_moves_stepAll cut embedder r.files [] r rfl
    refine ⟨⟨round ++ moves, ?_⟩, hquiet, hwaiting⟩
    rw [run_append, hround, hmoves]
    rfl

theorem exists_moves_finish (cut : String → Cut) (embedder : Embedder) (r : IndexRun) :
    ∃ moves, r.finish cut embedder = r.run cut moves ∧ (r.finish cut embedder).Over := by
  have hgroups : ∀ (groups : List (List String)) (r : IndexRun), r.waiting = groups →
      r.isQuiet = true → ∃ moves,
        groups.foldl (fun r _ => (r.takeUp cut).settle embedder) r = r.run cut moves ∧
          (groups.foldl (fun r _ => (r.takeUp cut).settle embedder) r).Over := by
    intro groups
    induction groups with
    | nil =>
      intro r hwaiting hquiet
      exact ⟨[], rfl, hquiet, hwaiting⟩
    | cons group groups ih =>
      intro r hwaiting hquiet
      obtain ⟨⟨moves, hmoves⟩, hquiet', hwaiting'⟩ :=
        exists_moves_settle cut embedder (r.takeUp cut)
      have hrest : (r.takeUp cut).waiting = groups := by
        simp only [takeUp, hwaiting, hquiet, if_true]
      obtain ⟨moves', hmoves', hover⟩ := ih _ (hwaiting'.trans hrest) hquiet'
      refine ⟨.takeUp :: moves ++ moves', ?_, hover⟩
      rw [List.foldl_cons, hmoves', hmoves, List.cons_append, run_cons, run_append]
      rfl
  obtain ⟨⟨moves, hmoves⟩, hquiet, hwaiting⟩ := exists_moves_settle cut embedder r
  obtain ⟨moves', hmoves', hover⟩ := hgroups r.waiting (r.settle embedder) hwaiting hquiet
  exact ⟨moves ++ moves', by rw [finish, hmoves', hmoves, run_append], hover⟩

end Orders

end IndexRun

end CodeSearch
