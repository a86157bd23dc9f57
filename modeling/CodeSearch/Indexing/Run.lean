import CodeSearch.Indexing.Task

/-!
A run over the files of a project, group after group. The files of a group are under way at once:
each is a task, and the tasks take their steps in any order. The next group is taken up when no task
is under way any more. A file that fails is noted in the report and does not end the run.
-/

set_option autoImplicit false

namespace CodeSearch

structure FileFailure where
  file : String
  error : IndexError
deriving DecidableEq, Repr

structure IndexReport where
  total : Nat
  processed : Nat := 0
  failed : Nat := 0
  /-- In the order in which the files were found. -/
  failures : List FileFailure := []
deriving DecidableEq, Repr

def IndexReport.note (r : IndexReport) (file : String) :
    Except IndexError FileOutcome → IndexReport
  | .ok _ => { r with processed := r.processed + 1 }
  | .error error =>
    { r with failed := r.failed + 1, failures := r.failures ++ [{ file, error }] }

/-- A file that a run has taken up. -/
structure RunFile where
  path : String
  task : FileTask

namespace RunFile

/-- Each task takes a step, in order; requests come to what `embedder` says. -/
def stepAll (embedder : Embedder) (s : Store) : List RunFile → Store × List RunFile
  | [] => (s, [])
  | f :: rest =>
    let (s, task) := f.task.step embedder s
    let (s, rest) := stepAll embedder s rest
    (s, { f with task } :: rest)

/-- A bound on the steps of all tasks to their ends. -/
def stepsLeft : List RunFile → Nat
  | [] => 0
  | f :: rest => f.task.stepsLeft + stepsLeft rest

theorem stepsLeft_stepAll_le (embedder : Embedder) (s : Store) (files : List RunFile) :
    stepsLeft (stepAll embedder s files).2 ≤ stepsLeft files := by
  induction files generalizing s with
  | nil => exact Nat.le_refl 0
  | cons f rest ih =>
    have hrest := ih (f.task.step embedder s).1
    have hstep : (f.task.step embedder s).2.stepsLeft ≤ f.task.stepsLeft := by
      cases hdone : f.task.result? with
      | none => exact Nat.le_of_lt (FileTask.stepsLeft_step embedder s hdone)
      | some result => exact FileTask.stepsLeft_step_le_of_done embedder s hdone
    simp only [stepAll, stepsLeft]
    omega

/-- A round brings a task that is under way closer to its end. -/
theorem stepsLeft_stepAll_lt (embedder : Embedder) (s : Store) {files : List RunFile}
    (h : files.all (fun f => f.task.result?.isSome) = false) :
    stepsLeft (stepAll embedder s files).2 < stepsLeft files := by
  induction files generalizing s with
  | nil => simp at h
  | cons f rest ih =>
    simp only [stepAll, stepsLeft]
    cases hdone : f.task.result? with
    | none =>
      have hstep := FileTask.stepsLeft_step embedder s hdone
      have hrest := stepsLeft_stepAll_le embedder (f.task.step embedder s).1 rest
      omega
    | some result =>
      have hstep := FileTask.stepsLeft_step_le_of_done embedder s hdone
      have hrest := ih (f.task.step embedder s).1 (by simpa [hdone] using h)
      omega

end RunFile

structure IndexRun where
  /-- The project under which the files are indexed. -/
  projectId : Int
  store : Store
  /-- The files taken up so far, in the order in which they were found. -/
  files : List RunFile := []
  /-- Groups of files that are still to be taken up. -/
  waiting : List (List String) := []

namespace IndexRun

inductive Move where
  /-- The task of the file at a place takes a step; a request it makes in that step comes to what
  `embedder` says. -/
  | step (place : Nat) (embedder : Embedder)
  | takeUp

/-- Whether no task is under way. -/
def isQuiet (r : IndexRun) : Bool := r.files.all fun f => f.task.result?.isSome

/-- No task is under way and no file is left. -/
def Over (r : IndexRun) : Prop := r.isQuiet = true ∧ r.waiting = []

def step (r : IndexRun) (place : Nat) (embedder : Embedder) : IndexRun :=
  match r.files[place]? with
  | none => r
  | some f =>
    let (store, task) := f.task.step embedder r.store
    { r with store, files := r.files.set place { f with task } }

/-- Takes up the next group, unless a task is still under way; `cut` cuts a file. -/
def takeUp (cut : String → Cut) (r : IndexRun) : IndexRun :=
  match r.waiting with
  | [] => r
  | group :: rest =>
    if r.isQuiet then
      { r with
        files := r.files ++ group.map fun path => ⟨path, .start r.projectId (cut path)⟩
        waiting := rest }
    else r

def move (cut : String → Cut) (r : IndexRun) : Move → IndexRun
  | .step place embedder => r.step place embedder
  | .takeUp => r.takeUp cut

def run (cut : String → Cut) (r : IndexRun) (moves : List Move) : IndexRun :=
  moves.foldl (move cut) r

/-- Rounds until no task is under way. -/
def settle (embedder : Embedder) (r : IndexRun) : IndexRun :=
  if _h : r.isQuiet then r
  else
    let next := RunFile.stepAll embedder r.store r.files
    settle embedder { r with store := next.1, files := next.2 }
termination_by RunFile.stepsLeft r.files
decreasing_by exact RunFile.stepsLeft_stepAll_lt embedder r.store (eq_false_of_ne_true _h)

/-- The whole run in one of its orders: the files of a group take their steps in turn. -/
def finish (cut : String → Cut) (embedder : Embedder) (r : IndexRun) : IndexRun :=
  r.waiting.foldl (fun r _ => (r.takeUp cut).settle embedder) (r.settle embedder)

/-- What became of the files whose tasks are done. -/
def outcomes (r : IndexRun) : List (String × Except IndexError FileOutcome) :=
  r.files.filterMap fun f => f.task.result?.map fun result => (f.path, result)

def report (r : IndexRun) : IndexReport :=
  r.outcomes.foldl (fun report outcome => report.note (Path.withSlashes outcome.1) outcome.2)
    { total := r.files.length + r.waiting.flatten.length }

end IndexRun

end CodeSearch
