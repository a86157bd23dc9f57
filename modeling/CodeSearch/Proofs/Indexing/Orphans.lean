import CodeSearch.Indexing.Pool
import CodeSearch.Proofs.Indexing.Steps
import CodeSearch.Proofs.Outline.Excerpts

/-!
# No chunk is left without an embedding

Tasks share a store and take turns, so between the steps of one another may embed or remove the same
chunks. At any time each chunk without an embedding is pending in some task, which will embed it or
remove it. Once no task is under way no such chunk is left, whatever the order of the steps and
whatever became of the requests.
-/

set_option autoImplicit false

namespace CodeSearch

namespace Chunking

theorem filePath_of_mem_place {filePath : String} {line : Nat} {done : List Chunk}
    {passages : List (List Char)} {c : Chunk} (hdone : ∀ c ∈ done, c.filePath = filePath)
    (h : c ∈ Passages.place filePath line done passages) : c.filePath = filePath := by
  induction passages generalizing line done with
  | nil => exact hdone c (List.mem_reverse.mp h)
  | cons passage rest ih =>
    refine ih ?_ h
    intro c' hc'
    rcases List.mem_append.mp hc' with hc' | hc'
    · simp only [Passages.chunk?, Option.mem_toList] at hc'
      split at hc'
      · simp at hc'
      · rw [← Option.some.inj hc']
    · exact hdone c' hc'

theorem filePath_of_mem_ofText {parse : Parser} {limits : ChunkLimits} {filePath text : String}
    {strategy : ChunkStrategy} {cs : List Chunk}
    (h : ofText? parse limits filePath text strategy = some (.ok cs)) :
    ∀ c ∈ cs, c.filePath = filePath := by
  have hpassages : ∀ c ∈ Passages.chunks limits filePath text.toList, c.filePath = filePath := by
    intro c hc
    simp only [Passages.chunks] at hc
    split at hc
    · simp at hc
    · exact filePath_of_mem_place (by simp) hc
  cases strategy with
  | passages =>
    obtain rfl := Except.ok.inj (Option.some.inj h)
    exact hpassages
  | outline language =>
    simp only [ofText?] at h
    split at h
    · obtain ⟨chunks, hchunks, heq⟩ := Option.map_eq_some_iff.mp h
      obtain rfl := Except.ok.inj heq
      obtain rfl := Outline.chunks?_eq_some _ _ _ _ _ hchunks
      intro c hc
      obtain ⟨e, _, rfl⟩ := List.mem_map.mp hc
      rfl
    · obtain rfl := Except.ok.inj (Option.some.inj h)
      exact hpassages
    · simp at h

theorem filePath_of_mem_ofFile {parse : Parser} {t : FileTree} {limits : ChunkLimits}
    {projectId : Option Int} {path : String} {cs : List Chunk}
    (h : ofFile? parse t limits projectId path = some cs) :
    ∀ c ∈ cs, c.filePath = Path.withSlashes path := by
  intro c hc
  unfold ofFile? at h
  split at h
  · obtain rfl := Option.some.inj h
    exact absurd hc List.not_mem_nil
  · obtain ⟨result, hresult, h⟩ := Option.bind_eq_some_iff.mp h
    split at h
    · obtain rfl := Option.some.inj h
      obtain ⟨c', hc', rfl⟩ := List.mem_map.mp hc
      exact filePath_of_mem_ofText hresult c' hc'
    · obtain rfl := Option.some.inj h
      exact absurd hc List.not_mem_nil

end Chunking

theorem Indexer.filePath_of_mem_cut {x : Indexer} {t : FileTree} {projectId : Int} {path : String}
    {c : Chunk} (h : c ∈ (x.cut t projectId path).chunks) : c.filePath = Path.withSlashes path := by
  unfold cut at h
  split at h
  · exact absurd h List.not_mem_nil
  · split at h
    · rename_i hchunks
      exact Chunking.filePath_of_mem_ofFile hchunks c h
    · exact absurd h List.not_mem_nil

/-- Each chunk has exactly one embedding. -/
def Store.Settled (s : Store) : Prop :=
  ∀ c ∈ s.chunks, s.embeddings.countP (fun e => e.chunkId == c.id) = 1

theorem Store.settled_iff {s : Store} (hunique : (s.embeddings.map Embedding.chunkId).Nodup) :
    s.Settled ↔ ∀ c ∈ s.chunks, s.hasEmbedding c.id = true := by
  constructor
  · intro h c hc
    obtain ⟨e, he, heq⟩ := List.countP_pos_iff.mp (by rw [h c hc]; exact Nat.one_pos)
    exact List.any_eq_true.mpr ⟨e, he, heq⟩
  · intro h c hc
    have hmem := Store.hasEmbedding_iff.mp (h c hc)
    have hcount := List.count_eq_one_of_mem hunique hmem
    rwa [List.count, List.countP_map] at hcount

/-- Whether a task that joins was made from a file. -/
def Turn.OfFile : Turn → Prop
  | .join projectId cut => ∃ (x : Indexer) (t : FileTree) (path : String),
      cut = x.cut t projectId path
  | .step _ _ => True
  | .clear _ => True

namespace Pool

/-- Each chunk without an embedding is owed by a task. -/
structure Accounted (p : Pool) : Prop where
  unique : (p.store.embeddings.map Embedding.chunkId).Nodup
  owed : ∀ c ∈ p.store.chunks, p.store.hasEmbedding c.id = true ∨ ∃ t ∈ p.tasks, c.id ∈ t.owes
  files : ∀ projectId chunks, .cut projectId chunks ∈ p.tasks → FileTask.OneFile chunks

theorem mem_set_of_ne {α : Type} {tasks : List α} {place : Nat} {t t' u : α}
    (hplace : tasks[place]? = some t) (hu : u ∈ tasks) (hne : u ≠ t) : u ∈ tasks.set place t' := by
  obtain ⟨i, hi, rfl⟩ := List.getElem_of_mem hu
  have hi' : place ≠ i := by
    rintro rfl
    rw [List.getElem?_eq_getElem hi] at hplace
    exact hne (Option.some.inj hplace)
  rw [← List.getElem_set_ne hi' (by simpa using hi)]
  exact List.getElem_mem _

theorem accounted_join {p : Pool} (h : p.Accounted) {projectId : Int} {cut : Cut}
    (hfile : FileTask.OneFile cut.chunks) : (p.turn (.join projectId cut)).Accounted where
  unique := h.unique
  owed := by
    intro c hc
    rcases h.owed c hc with hhas | ⟨t, ht, howed⟩
    · exact Or.inl hhas
    · exact Or.inr ⟨t, List.mem_append_left _ ht, howed⟩
  files := by
    intro projectId' chunks' hmem
    rcases List.mem_append.mp hmem with hmem | hmem
    · exact h.files projectId' chunks' hmem
    · obtain ⟨-, rfl⟩ := FileTask.start_eq_cut_iff.mp (List.mem_singleton.mp hmem).symm
      exact hfile

theorem accounted_step {p : Pool} (h : p.Accounted) (place : Nat) (embedder : Embedder) :
    (p.turn (.step place embedder)).Accounted := by
  simp only [turn]
  cases hplace : p.tasks[place]? with
  | none => exact h
  | some t =>
    have hplace' := (List.getElem?_eq_some_iff.mp hplace).1
    have ht : t ∈ p.tasks := List.mem_of_getElem? hplace
    have hsteps := FileTask.step_stepsTo embedder p.store t
    have haccounts := hsteps.accounts
      (fun projectId chunks heq => h.files projectId chunks (heq ▸ ht))
    simp only
    refine ⟨hsteps.nodup h.unique, ?_, ?_⟩
    · intro c hc
      rcases haccounts c hc with hhas | howed | ⟨hold, hhas, hnot⟩
      · exact Or.inl hhas
      · exact Or.inr ⟨_, List.mem_set hplace' _, howed⟩
      · -- Another task owes the chunk, and it has not moved.
        rcases h.owed c hold with hhas' | ⟨u, hu, howed⟩
        · simp [hhas] at hhas'
        · exact Or.inr ⟨u, mem_set_of_ne hplace hu (fun heq => hnot (heq ▸ howed)), howed⟩
    · intro projectId chunks hmem
      rcases List.mem_or_eq_of_mem_set hmem with hmem | heq
      · exact h.files projectId chunks hmem
      · exact absurd heq.symm (hsteps.ne_cut projectId chunks)

theorem accounted_clear {p : Pool} (h : p.Accounted) (name : String) :
    (p.turn (.clear name)).Accounted := by
  simp only [turn, Store.clear]
  split
  · exact h
  · refine ⟨h.unique.sublist (Store.keepChunks_embeddings_sublist.map _), ?_, h.files⟩
    intro c hc
    have hkept := Store.keepChunks_hasEmbedding hc
    rcases h.owed c (List.mem_filter.mp hc).1 with hhas | howed
    · exact Or.inl (hkept.trans hhas)
    · exact Or.inr howed

theorem accounted_turn {p : Pool} (h : p.Accounted) {turn : Turn} (hfile : turn.OfFile) :
    (p.turn turn).Accounted := by
  cases turn with
  | join projectId cut =>
    apply accounted_join h
    obtain ⟨x, t, path, rfl⟩ := hfile
    intro c hc d hd
    rw [Indexer.filePath_of_mem_cut hc, Indexer.filePath_of_mem_cut hd]
  | step place embedder => exact accounted_step h place embedder
  | clear name => exact accounted_clear h name

theorem accounted_run {p : Pool} (h : p.Accounted) {turns : List Turn}
    (hfiles : ∀ turn ∈ turns, turn.OfFile) : (p.run turns).Accounted := by
  induction turns generalizing p with
  | nil => exact h
  | cons turn turns ih =>
    obtain ⟨hturn, hturns⟩ := List.forall_mem_cons.mp hfiles
    exact ih (accounted_turn h hturn) hturns

theorem settled_of_accounted {p : Pool} (h : p.Accounted) (hquiet : p.Quiet) :
    p.store.Settled := by
  apply (Store.settled_iff h.unique).mpr
  intro c hc
  rcases h.owed c hc with hhas | ⟨t, ht, howed⟩
  · exact hhas
  · have hdone := hquiet t ht
    cases t with
    | done result => simp [FileTask.owes, FileTask.pending] at howed
    | _ => simp [FileTask.result?] at hdone

/-- Whatever tasks join, in whatever order they step, whatever becomes of their requests and
whichever projects are cleared: when no task is under way each chunk has exactly one embedding, if
it was so at the start. That no two embeddings are of one chunk is a constraint of the store. -/
theorem settled_of_quiet (s : Store) (turns : List Turn)
    (hunique : (s.embeddings.map Embedding.chunkId).Nodup) (hsettled : s.Settled)
    (hfiles : ∀ turn ∈ turns, turn.OfFile) (hquiet : (Pool.run { store := s } turns).Quiet) :
    (Pool.run { store := s } turns).store.Settled := by
  have hstart : Accounted { store := s } :=
    ⟨hunique, fun c hc => Or.inl ((Store.settled_iff hunique).mp hsettled c hc), by simp⟩
  exact settled_of_accounted (accounted_run hstart hfiles) hquiet

def noteTree : FileTree where
  root := .directory [("note", .file (.bytes [102, 105, 115, 104]))]
  current := []

/-- The chunks of the note: one with four letters. -/
def noteChunks : List Chunk :=
  [⟨"fish", "note", 1, 1, "text", "text", textHash "fish".toList, 4, some 1⟩]

def noteIndexer : Indexer where
  client := { provider := .hashing 1 }
  parse language _ := .error (.noTree language)
  selection := { extensions := [], ignores := fun _ => false }
  ignored _ _ _ := false

theorem cut_note : noteIndexer.cut noteTree 1 "note" = .made noteChunks := by
  have htext : noteTree.readText "note" = .ok "fish" := by cbv
  have hpath : Path.withSlashes "note" = "note" := by cbv
  have hstrategy : ChunkStrategy.ofPath "note" = .passages := by cbv
  have hpassages : Passages.join {} (Passages.pieces 1536 Passages.separators "fish".toList) =
      ["fish".toList] := by cbv
  have hlanguage : Passages.language "note" = "text" := by cbv
  have hchunks : Chunking.ofFile? noteIndexer.parse noteTree noteIndexer.limits (some 1) "note" =
      some noteChunks := by
    rw [Chunking.ofFile?, htext, hpath, hstrategy]
    simp only [Chunking.ofText?, Passages.chunks, noteIndexer, hpassages, Passages.place,
      Passages.chunk?, hlanguage]
    rfl
  simp only [Indexer.cut, hchunks]
  rfl

def notes : Store := { dimensions := 1, projects := [⟨1, "notes", "/notes", none⟩] }

/-- Two tasks index the note, and the project is cleared while both have its chunk pending: one
cannot store its embedding then, and the request of the other fails. A worker dies over the note
before a third finds the chunk new. -/
def contested : List Turn :=
  let works : Embedder := fun pending => .ok (pending.map fun _ => [0])
  let fails : Embedder := fun _ => .error (.worker "busy")
  [.join 1 (.made noteChunks), .join 1 (.made noteChunks), .step 0 works, .step 1 works,
    .step 0 works, .clear "notes", .step 0 works, .step 0 works, .step 1 fails, .step 1 fails,
    .join 1 (.died "busy"), .join 1 (.made noteChunks), .step 3 works, .step 3 works, .step 3 works]

theorem settled_of_contested :
    (Pool.run { store := notes } contested).store.chunks ≠ [] ∧
      (Pool.run { store := notes } contested).store.Settled := by
  have hnote : (Turn.join 1 (.made noteChunks)).OfFile :=
    ⟨noteIndexer, noteTree, "note", cut_note.symm⟩
  have hdied : (Turn.join 1 (.died "busy")).OfFile :=
    ⟨{ noteIndexer with deaths := fun _ => some "busy" }, noteTree, "note", rfl⟩
  have hname : ProjectName.normalize "notes" = "notes" := by cbv
  have hend : (Pool.run { store := notes } contested).store.chunks ≠ [] ∧
      (Pool.run { store := notes } contested).Quiet := by
    simp [contested, noteChunks, notes, hname, run, turn, FileTask.step, FileTask.insert,
      FileTask.embed, FileTask.keep, FileTask.result?, Store.insertChunks, Store.insertChunksFrom,
      Store.hasHash, Store.hasProject, Store.row, Store.unembedded, Store.hasEmbedding,
      Store.insertEmbeddings, Store.checkDimensions, Store.insertEmbeddingsFrom, Store.hasChunk,
      Store.deleteChunks, Store.clear, Store.project?, Store.clearProject, Store.keepChunks,
      Store.dropOrphans, Quiet]
  refine ⟨hend.1, settled_of_quiet notes contested List.nodup_nil (List.forall_mem_nil _) ?_ hend.2⟩
  simp only [contested, List.forall_mem_cons]
  exact ⟨hnote, hnote, trivial, trivial, trivial, trivial, trivial, trivial, trivial, trivial,
    hdied, hnote, trivial, trivial, trivial, List.forall_mem_nil _⟩

end Pool

end CodeSearch
