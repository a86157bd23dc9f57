import CodeSearch.Proofs.Indexing.Plans

/-!
# Interrupted runs

A run may be cut off after any of its moves. What it leaves without an embedding belongs to files
that it has taken up, so the next run comes to the same files, finds those rows by their paths and
embeds them. If no file fails in the next run, it leaves the hashes that one run without
interruption and without failures would have left.
-/

set_option autoImplicit false

namespace CodeSearch

namespace IndexRun
variable {cut : String → Cut} {r : IndexRun} {moves : List Move}

/-- A chunk with that hash is of a file still to be taken up. -/
def Offers (cut : String → Cut) (r : IndexRun) (hash : String) : Prop :=
  ∃ path ∈ r.waiting.flatten, ∃ c ∈ (cut path).chunks, c.hash = hash

/-- Rows without an embedding are of files still to be taken up. -/
def Recoverable (cut : String → Cut) (r : IndexRun) : Prop :=
  ∀ c ∈ r.store.chunks, r.store.hasEmbedding c.id = false → c.projectId = r.projectId ∧
    ∃ path ∈ r.waiting.flatten, (cut path).chunks ≠ [] ∧ c.filePath = Path.withSlashes path

theorem Completes.settled (h : Completes cut r moves) (hcut : OfPaths cut) (hfiles : r.files = [])
    (hunique : (r.store.embeddings.map Embedding.chunkId).Nodup) (hleft : Recoverable cut r) :
    (r.run cut moves).store.Settled := by
  apply (Store.settled_iff (unique_run hunique moves)).mpr
  intro c hc
  by_contra hbare
  obtain ⟨hold, hbefore, hnone⟩ :=
    bare_of_quiet hcut hfiles h.ended.1 hc (eq_false_of_ne_true hbare)
  obtain ⟨hproject, path, hpath, hne, hfile⟩ := hleft c hold hbefore
  obtain ⟨f, hf, rfl⟩ := h.exists_file hpath
  apply hnone f hf (h.onTrack hf) hne
  exact ⟨hproject.trans (projectId_run cut r moves).symm, hfile⟩

section Hashes

theorem mem_waiting_of_taken (hfiles : r.files = []) {path : String}
    (hpath : path ∈ (r.run cut moves).taken) : path ∈ r.waiting.flatten := by
  have htaken := taken_append_waiting cut r moves
  rw [show r.taken = [] by simp [taken, hfiles], List.nil_append] at htaken
  rw [← htaken]
  exact List.mem_append_left _ hpath

theorem hasHash_of_run (hcut : OfPaths cut) (hfiles : r.files = []) {hash : String}
    (h : (r.run cut moves).store.hasHash hash = true) :
    r.store.hasHash hash = true ∨ r.Offers cut hash := by
  obtain ⟨c, hc, heq⟩ := List.any_eq_true.mp h
  rcases (traced_run hcut hfiles moves).rows c hc with hold | ⟨path, hpath, _, d, hd, rfl⟩
  · exact Or.inl (List.any_eq_true.mpr ⟨c, hold, heq⟩)
  · exact Or.inr ⟨path, mem_waiting_of_taken hfiles hpath, d, hd, beq_iff_eq.mp heq⟩

/-- A complete run leaves the hashes that were stored before and those of all its files. -/
theorem Completes.hasHash_iff (h : Completes cut r moves) (hcut : OfPaths cut)
    (hfiles : r.files = []) (hash : String) :
    (r.run cut moves).store.hasHash hash = true ↔
      r.store.hasHash hash = true ∨ r.Offers cut hash := by
  have hundisturbed := h.undisturbed hcut hfiles
  constructor
  · exact hasHash_of_run hcut hfiles
  · rintro (hold | ⟨path, hpath, c, hc, rfl⟩)
    · obtain ⟨c, hc, heq⟩ := List.any_eq_true.mp hold
      exact List.any_eq_true.mpr ⟨c, hundisturbed.rows c hc, heq⟩
    · obtain ⟨f, hf, rfl⟩ := h.exists_file hpath
      exact hundisturbed.stored f hf (h.onTrack hf) c hc

theorem Completes.searchable_iff (h : Completes cut r moves) (hcut : OfPaths cut)
    (hfiles : r.files = []) (hunique : (r.store.embeddings.map Embedding.chunkId).Nodup)
    (hleft : Recoverable cut r) (hash : String) :
    (r.run cut moves).store.Searchable hash ↔
      r.store.hasHash hash = true ∨ r.Offers cut hash := by
  rw [← h.hasHash_iff hcut hfiles hash]
  exact ⟨Store.Searchable.hasHash, (h.settled hcut hfiles hunique hleft).searchable⟩

end Hashes

section Interrupted
variable (hcut : OfPaths cut) (hfiles : r.files = [])
  (hembedded : ∀ c ∈ r.store.chunks, r.store.hasEmbedding c.id = true)
include hcut hfiles hembedded

/-- Wherever a run is cut off, what has no embedding is of its own files. -/
theorem recoverable_run (moves : List Move) :
    Recoverable cut { r with store := (r.run cut moves).store } := by
  intro c hc hbare
  rcases (traced_run hcut hfiles moves).rows c hc with hold | ⟨path, hpath, id, d, hd, rfl⟩
  · have hfinished : (r.run cut moves).Finished c :=
      finished_run ⟨hold, hembedded c hold, by simp [hfiles]⟩ moves
    exact absurd hfinished.2.1 (ne_true_of_eq_false hbare)
  · refine ⟨projectId_run cut r moves, path, mem_waiting_of_taken hfiles hpath, ?_, hcut path d hd⟩
    exact List.ne_nil_of_mem hd

theorem hasHash_or_offers_run (moves : List Move) (hash : String) :
    ((r.run cut moves).store.hasHash hash = true ∨ r.Offers cut hash) ↔
      (r.store.hasHash hash = true ∨ r.Offers cut hash) := by
  constructor
  · rintro (hhas | hoffers)
    · exact hasHash_of_run hcut hfiles hhas
    · exact Or.inr hoffers
  · apply Or.imp_left
    intro hhas
    obtain ⟨c, hc, heq⟩ := List.any_eq_true.mp hhas
    have hfinished : (r.run cut moves).Finished c :=
      finished_run ⟨hc, hembedded c hc, by simp [hfiles]⟩ moves
    exact List.any_eq_true.mpr ⟨c, hfinished.1, heq⟩

end Interrupted

/-- What a store holds after the run `r` was repaired: each chunk has exactly one embedding, all
chunks of the files are there, and the hashes are those that `r` leaves if it completes. -/
structure Repaired (cut : String → Cut) (paths : List String) (r : IndexRun) (s : Store) :
    Prop where
  settled : s.Settled
  searchable : ∀ path ∈ paths, ∀ c ∈ (cut path).chunks, s.Searchable c.hash
  same : ∀ moves, Completes cut r moves →
    ∀ hash, s.Searchable hash ↔ (r.run cut moves).store.Searchable hash

theorem repaired_of_completes (hcut : OfPaths cut) (hfiles : r.files = [])
    (hunique : (r.store.embeddings.map Embedding.chunkId).Nodup) (hsettled : r.store.Settled)
    (before moves : List Move)
    (h : Completes cut { r with store := (r.run cut before).store } moves) :
    Repaired cut r.waiting.flatten r
      ({ r with store := (r.run cut before).store }.run cut moves).store := by
  have hembedded := (Store.settled_iff hunique).mp hsettled
  have hleft := recoverable_run hcut hfiles hembedded before
  have hsearchable := h.searchable_iff hcut hfiles (unique_run hunique before) hleft
  refine ⟨h.settled hcut hfiles (unique_run hunique before) hleft, ?_, ?_⟩
  · intro path hpath c hc
    exact (hsearchable c.hash).mpr (Or.inr ⟨path, hpath, c, hc, rfl⟩)
  · intro moves' h' hash
    have hstart : Recoverable cut r := by
      intro c hc hbare
      exact absurd (hembedded c hc) (ne_true_of_eq_false hbare)
    rw [hsearchable hash, h'.searchable_iff hcut hfiles hunique hstart hash]
    exact hasHash_or_offers_run hcut hfiles hembedded before hash

end IndexRun

namespace Indexer

/-- A run is cut off before it has registered its project, or after any of its moves. The next run
on the store `s₁` that is left gets as far as taking up files, and if it completes it repairs. -/
theorem interrupted_run_repaired (x : Indexer) (t : FileTree) (s s₁ : Store) (path : String)
    (before : List IndexRun.Move) {r : IndexRun}
    (hunique : (s.embeddings.map Embedding.chunkId).Nodup) (hsettled : s.Settled)
    (hplan : x.plan t s path = .ok r)
    (hleft : s₁ = s ∨ s₁ = (r.run (x.cut t r.projectId) before).store) :
    ∃ r₁ found, x.plan t s₁ path = .ok r₁ ∧
      Discovery.discover (x.ignored t) t x.selection path = .ok found ∧
      ∀ moves, IndexRun.Completes (x.cut t r₁.projectId) r₁ moves →
        IndexRun.Repaired (x.cut t r.projectId) (found.map Path.ofNames) r
          (r₁.run (x.cut t r₁.projectId) moves).store := by
  obtain ⟨found, hfound, hwaiting⟩ := discover_of_plan hplan
  have hstore := store_of_plan hplan
  have hunique' : (r.store.embeddings.map Embedding.chunkId).Nodup := by rwa [hstore]
  have hsettled' : r.store.Settled := by
    rw [hstore]
    exact hsettled
  have hrepaired := fun before (moves : List IndexRun.Move) =>
    IndexRun.repaired_of_completes (ofPaths_cut x t r.projectId) (files_of_plan hplan) hunique'
      hsettled' before moves
  rw [hwaiting] at hrepaired
  rcases hleft with rfl | rfl
  · exact ⟨r, found, hplan, hfound, fun moves h => hrepaired [] moves h⟩
  · have hagain := plan_again hplan
      (IndexRun.projects_run (x.cut t r.projectId) r before)
    exact ⟨_, found, hagain, hfound, fun moves h => hrepaired before moves h⟩

/-- The first note is stored when the run is cut off, and not embedded. -/
def cutOff : Store :=
  (twinRun.run (mdIndexer.cut twinTree 1) [.takeUp, .step 0 Pool.works]).store

theorem cutOff_eq : cutOff =
    { twinRun.store with chunks := [Store.row 1 1 (twin "/d/a.md")], lastChunkId := 1 } := by
  simp [cutOff, IndexRun.run, IndexRun.move, IndexRun.takeUp, IndexRun.step, twinRun,
    cut_twinTree, twin, FileTask.step, FileTask.insert, Store.insertChunks,
    Store.insertChunksFrom, Store.hasHash, Store.hasProject, Store.row, Store.unembedded,
    Store.hasEmbedding, IndexRun.isQuiet]

theorem run_cutOff : { twinRun with store := cutOff }.run (mdIndexer.cut twinTree 1) sideBySide =
    { projectId := 1
      store :=
        { twinRun.store with
          chunks := [Store.row 1 1 (twin "/d/a.md")]
          embeddings := [⟨1, [0]⟩]
          lastChunkId := 3 }
      files := [⟨"/d/a.md", .done (.ok ⟨0, 1⟩)⟩, ⟨"/d/b.md", .done (.ok {})⟩] } := by
  rw [cutOff_eq]
  simp [sideBySide, IndexRun.run, IndexRun.move, IndexRun.takeUp, IndexRun.step, twinRun,
    cut_twinTree, twin, FileTask.step, FileTask.insert, FileTask.embed, FileTask.keep,
    Store.insertChunks, Store.insertChunksFrom, Store.hasHash, Store.row, Store.unembedded,
    Store.hasEmbedding, IndexRun.isQuiet, Pool.works, Store.insertEmbeddings,
    Store.checkDimensions, Store.insertEmbeddingsFrom, Store.hasChunk]

theorem cutOff_repaired :
    (∃ c ∈ cutOff.chunks, cutOff.hasEmbedding c.id = false) ∧
    IndexRun.Completes (mdIndexer.cut twinTree 1) { twinRun with store := cutOff } sideBySide ∧
    IndexRun.Repaired (mdIndexer.cut twinTree 1) ["/d/a.md", "/d/b.md"] twinRun
      ({ twinRun with store := cutOff }.run (mdIndexer.cut twinTree 1) sideBySide).store := by
  have hbare : ∃ c ∈ cutOff.chunks, cutOff.hasEmbedding c.id = false := by
    rw [cutOff_eq]
    exact ⟨_, List.mem_singleton_self _, rfl⟩
  have hcomplete : IndexRun.Completes (mdIndexer.cut twinTree 1) { twinRun with store := cutOff }
      sideBySide := by
    constructor
    · rw [run_cutOff]
      exact ⟨rfl, rfl⟩
    · rw [run_cutOff]
      rfl
  have hsettled : Store.Settled { dimensions := 1 } := List.forall_mem_nil _
  have hfiles : [["d", "a.md"], ["d", "b.md"]].map Path.ofNames = ["/d/a.md", "/d/b.md"] := by cbv
  obtain ⟨r₁, found, hplan, hfound, hrepaired⟩ := interrupted_run_repaired mdIndexer twinTree
    { dimensions := 1 } cutOff "/d" [.takeUp, .step 0 Pool.works] List.nodup_nil hsettled
    plan_twinTree (Or.inr rfl)
  have hagain := plan_again plan_twinTree (IndexRun.projects_run (mdIndexer.cut twinTree 1) twinRun
    [.takeUp, .step 0 Pool.works])
  obtain rfl := Except.ok.inj (hplan.symm.trans hagain)
  obtain rfl := Except.ok.inj (hfound.symm.trans discover_twinTree)
  rw [hfiles] at hrepaired
  exact ⟨hbare, hcomplete, hrepaired sideBySide hcomplete⟩

end Indexer

end CodeSearch
