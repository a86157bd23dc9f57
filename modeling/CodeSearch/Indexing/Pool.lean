import CodeSearch.Indexing

/-!
Tasks that share a store. They take turns in any order, new ones may join them, and a project may be
cleared between their steps.
-/

set_option autoImplicit false

namespace CodeSearch

structure Pool where
  store : Store
  tasks : List FileTask := []

inductive Turn where
  | join (projectId : Int) (cut : Cut)
  /-- A task, by its place, takes a step; a request it makes in that step comes to what `embedder`
  says, so requests for the same chunks may come to different things at different times. -/
  | step (place : Nat) (embedder : Embedder)
  /-- Clears the project of that name. -/
  | clear (name : String)

namespace Pool

def turn (p : Pool) : Turn → Pool
  | .join projectId cut => { p with tasks := p.tasks ++ [.start projectId cut] }
  | .step place embedder =>
    match p.tasks[place]? with
    | none => p
    | some task =>
      let (store, task) := task.step embedder p.store
      { store, tasks := p.tasks.set place task }
  | .clear name => { p with store := (p.store.clear name).1 }

def run (p : Pool) (turns : List Turn) : Pool := turns.foldl turn p

def Quiet (p : Pool) : Prop := ∀ task ∈ p.tasks, task.result?.isSome

end Pool

end CodeSearch
