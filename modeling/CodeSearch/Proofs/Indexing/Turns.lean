import CodeSearch.Proofs.Indexing.Orphans

/-!
# Turns of a pool

What holds of a pool over any turns: a pending chunk that is still stored is the row it was when it
was read, a task that is done stays done, and a task takes on no chunks after its first step.
-/

set_option autoImplicit false

namespace CodeSearch.Pool
variable {p : Pool} {t : FileTask} {place : Nat}

theorem turn_step (h : p.tasks[place]? = some t) (embedder : Embedder) :
    p.turn (.step place embedder) =
      { store := (t.step embedder p.store).1
        tasks := p.tasks.set place (t.step embedder p.store).2 } := by
  simp only [turn, h]

theorem turn_step_none (h : p.tasks[place]? = none) (embedder : Embedder) :
    p.turn (.step place embedder) = p := by
  simp only [turn, h]

theorem getElem?_turn_step (h : p.tasks[place]? = some t) (embedder : Embedder) :
    (p.turn (.step place embedder)).tasks[place]? = some (t.step embedder p.store).2 := by
  have hplace := (List.getElem?_eq_some_iff.mp h).1
  rw [turn_step h]
  simp only [List.getElem?_set_self hplace]

theorem run_cons (p : Pool) (turn : Turn) (turns : List Turn) :
    p.run (turn :: turns) = (p.turn turn).run turns := rfl

theorem run_append (p : Pool) (turns turns' : List Turn) :
    p.run (turns ++ turns') = (p.run turns).run turns' := List.foldl_append

theorem run_map_join (p : Pool) (projectId : Int) (cut : String → Cut) (paths : List String) :
    p.run (paths.map fun path => .join projectId (cut path)) =
      { p with tasks := p.tasks ++ paths.map fun path => .start projectId (cut path) } := by
  induction paths generalizing p with
  | nil => simp [run]
  | cons path paths ih =>
    rw [List.map_cons, run_cons, ih]
    simp [turn]

section Clear

theorem clear_later (s : Store) (name : String) : Store.Later s (s.clear name).1 := by
  unfold Store.clear
  split
  · exact Store.Later.refl s
  · exact Store.later_keepChunks _

theorem clear_keyed {s : Store} (h : s.Keyed) (name : String) : (s.clear name).1.Keyed := by
  unfold Store.clear
  split
  · exact h
  · exact h.keepChunks _

theorem clear_embeddings (s : Store) (name : String) :
    (s.clear name).1.embeddings.Sublist s.embeddings := by
  unfold Store.clear
  split
  · exact List.Sublist.refl _
  · exact Store.keepChunks_embeddings_sublist

end Clear

/-- Ids are in order: each pending chunk that is still stored is the row it was. -/
structure Keyed (p : Pool) : Prop where
  store : p.store.Keyed
  pending : ∀ t ∈ p.tasks, ∀ c ∈ t.pending, p.store.OwnId c

theorem later_turn (p : Pool) (turn : Turn) : Store.Later p.store (p.turn turn).store := by
  cases turn with
  | join projectId cut => exact Store.Later.refl _
  | step place embedder =>
    cases hplace : p.tasks[place]? with
    | none => rw [turn_step_none hplace]; exact Store.Later.refl _
    | some t => rw [turn_step hplace]; exact (FileTask.step_stepsTo embedder p.store t).later
  | clear name => exact clear_later p.store name

theorem later_run (p : Pool) (turns : List Turn) : Store.Later p.store (p.run turns).store := by
  induction turns generalizing p with
  | nil => exact Store.Later.refl _
  | cons turn turns ih => exact (later_turn p turn).trans (ih (p.turn turn))

theorem keyed_turn (h : p.Keyed) (turn : Turn) : (p.turn turn).Keyed := by
  have hlater := later_turn p turn
  cases turn with
  | join projectId cut =>
    refine ⟨h.store, ?_⟩
    intro t ht c hc
    rcases List.mem_append.mp ht with ht | ht
    · exact h.pending t ht c hc
    · rw [List.mem_singleton.mp ht, FileTask.pending_start] at hc
      exact absurd hc List.not_mem_nil
  | step place embedder =>
    cases hplace : p.tasks[place]? with
    | none => rw [turn_step_none hplace]; exact h
    | some t =>
      have hsteps := FileTask.step_stepsTo embedder p.store t
      rw [turn_step hplace] at hlater ⊢
      have hkeyed := hsteps.keyed h.store
      refine ⟨hkeyed, ?_⟩
      intro u hu c hc
      rcases List.mem_or_eq_of_mem_set hu with hu | rfl
      · exact (h.pending u hu c hc).later hlater
      · rcases hsteps.pending hc with hc | ⟨_, _, _, _, hc⟩
        · exact (h.pending t (List.mem_of_getElem? hplace) c hc).later hlater
        · exact hkeyed.ownId (Store.mem_unembedded.mp hc).1
  | clear name =>
    exact ⟨clear_keyed h.store name, fun t ht c hc => (h.pending t ht c hc).later hlater⟩

theorem keyed_run (h : p.Keyed) (turns : List Turn) : (p.run turns).Keyed := by
  induction turns generalizing p with
  | nil => exact h
  | cons turn turns ih => exact ih (keyed_turn h turn)

/-- A task that has taken its first step keeps to its place and takes on nothing more. -/
theorem taken_turn (hplace : p.tasks[place]? = some t)
    (hcut : ∀ projectId chunks, t ≠ .cut projectId chunks) (turn : Turn) :
    ∃ t', (p.turn turn).tasks[place]? = some t' ∧ t'.pending ⊆ t.pending ∧
      (∀ projectId chunks, t' ≠ .cut projectId chunks) ∧
      ∀ result, t = .done result → t' = .done result := by
  have hsame : ∃ t', some t = some t' ∧ t'.pending ⊆ t.pending ∧
      (∀ projectId chunks, t' ≠ .cut projectId chunks) ∧
      ∀ result, t = .done result → t' = .done result :=
    ⟨t, rfl, List.Subset.refl _, hcut, fun _ h => h⟩
  cases turn with
  | join projectId cut =>
    have hlt := (List.getElem?_eq_some_iff.mp hplace).1
    simp only [turn, List.getElem?_append_left hlt, hplace]
    exact hsame
  | clear name =>
    simp only [turn, hplace]
    exact hsame
  | step other embedder =>
    by_cases heq : other = place
    · subst other
      have hsteps := FileTask.step_stepsTo embedder p.store t
      refine ⟨_, getElem?_turn_step hplace embedder, ?_,
        hsteps.ne_cut, ?_⟩
      · intro c hc
        rcases hsteps.pending hc with hc | ⟨projectId, first, rest, ht, _⟩
        · exact hc
        · exact absurd ht (hcut projectId (first :: rest))
      · rintro result rfl
        rfl
    · cases hother : p.tasks[other]? with
      | none =>
        rw [turn_step_none hother, hplace]
        exact hsame
      | some u =>
        rw [turn_step hother]
        simp only [List.getElem?_set_ne heq, hplace]
        exact hsame

theorem taken_run (hplace : p.tasks[place]? = some t)
    (hcut : ∀ projectId chunks, t ≠ .cut projectId chunks) (turns : List Turn) :
    ∃ t', (p.run turns).tasks[place]? = some t' ∧ t'.pending ⊆ t.pending ∧
      ∀ result, t = .done result → t' = .done result := by
  induction turns generalizing p t with
  | nil => exact ⟨t, hplace, List.Subset.refl _, fun _ h => h⟩
  | cons turn turns ih =>
    obtain ⟨t', hplace', hpending', hcut', hdone'⟩ := taken_turn hplace hcut turn
    obtain ⟨t'', hplace'', hpending'', hdone''⟩ := ih hplace' hcut'
    exact ⟨t'', hplace'', List.Subset.trans hpending'' hpending',
      fun result h => hdone'' result (hdone' result h)⟩

/-- A chunk gets its embedding in the last step of a task that has it pending. -/
theorem embeds_run {turns : List Turn} {id : Int} (hbefore : p.store.hasEmbedding id = false)
    (hafter : (p.run turns).store.hasEmbedding id = true) :
    ∃ earlier other embedder later n pending vectors outcome,
      turns = earlier ++ .step other embedder :: later ∧
      (p.run earlier).tasks[other]? = some (.embedded n pending vectors) ∧
      id ∈ pending.map StoredChunk.id ∧
      ((p.run earlier).turn (.step other embedder)).tasks[other]? =
        some (.done (.ok outcome)) := by
  induction turns generalizing p with
  | nil => exact absurd hafter (ne_true_of_eq_false hbefore)
  | cons turn turns ih =>
    by_cases hnow : (p.turn turn).store.hasEmbedding id = true
    · cases turn with
      | join projectId cut => exact absurd hnow (ne_true_of_eq_false hbefore)
      | clear name =>
        have hsub := (clear_embeddings p.store name).map Embedding.chunkId
        have hold := hsub.subset (Store.hasEmbedding_iff.mp hnow)
        rw [← Store.hasEmbedding_iff] at hold
        exact absurd hold (ne_true_of_eq_false hbefore)
      | step other embedder =>
        cases hother : p.tasks[other]? with
        | none =>
          rw [turn_step_none hother] at hnow
          exact absurd hnow (ne_true_of_eq_false hbefore)
        | some u =>
          have hdone := getElem?_turn_step hother embedder
          rw [turn_step hother] at hnow
          obtain ⟨n, pending, vectors, outcome, rfl, hmem, heq⟩ :=
            (FileTask.step_stepsTo embedder p.store u).embeds hnow hbefore
          exact ⟨[], other, embedder, turns, n, pending, vectors, outcome, rfl, hother, hmem,
            heq ▸ hdone⟩
    · obtain ⟨earlier, other, embedder, later, n, pending, vectors, outcome, rfl, hrest⟩ :=
        ih (eq_false_of_ne_true hnow) hafter
      exact ⟨turn :: earlier, other, embedder, later, n, pending, vectors, outcome, rfl, hrest⟩

def works : Embedder := fun pending => .ok (pending.map fun _ => [0])

def fails : Embedder := fun _ => .error (.worker "busy")

end CodeSearch.Pool
