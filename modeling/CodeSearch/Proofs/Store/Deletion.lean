import CodeSearch.Indexing
import CodeSearch.Proofs.Store.Integrity
import CodeSearch.Proofs.Store.Transactions
import Mathlib.Data.Finset.Card

/-!
# What a deletion takes with it

A row of the store may refer to another: a chunk to its project and an embedding to its chunk. When
rows are deleted, those that refer to them go too, and those that refer to these. Each deletion is
shown to take its targets in this way and to leave every other row as it is.
-/

set_option autoImplicit false

namespace CodeSearch

inductive StoreRow where
  | project (p : Project)
  | chunk (c : StoredChunk)
  | embedding (e : Embedding)

namespace StoreRow

inductive RefersTo : StoreRow → StoreRow → Prop where
  | project {c : StoredChunk} {p : Project} (h : c.projectId = p.id) :
      RefersTo (.chunk c) (.project p)
  | chunk {e : Embedding} {c : StoredChunk} (h : e.chunkId = c.id) :
      RefersTo (.embedding e) (.chunk c)

def IsProject (id : Int) : StoreRow → Prop
  | .project p => p.id = id
  | _ => False

def IsChunkOf (projectId : Int) : StoreRow → Prop
  | .chunk c => c.projectId = projectId
  | _ => False

def IsChunkIn (ids : List Int) : StoreRow → Prop
  | .chunk c => c.id ∈ ids
  | _ => False

end StoreRow

namespace Store
variable {s s' : Store}

def Holds (s : Store) : StoreRow → Prop
  | .project p => p ∈ s.projects
  | .chunk c => c ∈ s.chunks
  | .embedding e => e ∈ s.embeddings

/-- Whether a row goes when the targets are deleted. -/
inductive Goes (s : Store) (target : StoreRow → Prop) : StoreRow → Prop where
  | target {r : StoreRow} (h : target r) : Goes s target r
  | along {r r' : StoreRow} (hrefers : r.RefersTo r') (hheld : s.Holds r')
      (hgoes : Goes s target r') : Goes s target r

/-- `s'` is `s` without the targets and what goes with them. The rest stays in its order. -/
structure Deleted (s : Store) (target : StoreRow → Prop) (s' : Store) : Prop where
  holds : ∀ r, s'.Holds r ↔ s.Holds r ∧ ¬ s.Goes target r
  projects : s'.projects.Sublist s.projects
  chunks : s'.chunks.Sublist s.chunks
  embeddings : s'.embeddings.Sublist s.embeddings
  dimensions : s'.dimensions = s.dimensions
  lastProjectId : s'.lastProjectId = s.lastProjectId
  lastChunkId : s'.lastChunkId = s.lastChunkId

section Cascade
variable {target : StoreRow → Prop}

theorem goes_project_iff {p : Project} : s.Goes target (.project p) ↔ target (.project p) := by
  constructor
  · intro h
    cases h with
    | target h => exact h
    | along hrefers => cases hrefers
  · exact .target

theorem goes_chunk_iff {c : StoredChunk} :
    s.Goes target (.chunk c) ↔
      target (.chunk c) ∨ ∃ p ∈ s.projects, c.projectId = p.id ∧ target (.project p) := by
  constructor
  · intro h
    cases h with
    | target h => exact Or.inl h
    | along hrefers hheld hgoes =>
      cases hrefers with
      | project heq => exact Or.inr ⟨_, hheld, heq, goes_project_iff.mp hgoes⟩
  · rintro (h | ⟨p, hp, heq, h⟩)
    · exact .target h
    · exact .along (.project heq) hp (.target h)

theorem goes_embedding_iff {e : Embedding} :
    s.Goes target (.embedding e) ↔
      target (.embedding e) ∨ ∃ c ∈ s.chunks, e.chunkId = c.id ∧ s.Goes target (.chunk c) := by
  constructor
  · intro h
    cases h with
    | target h => exact Or.inl h
    | along hrefers hheld hgoes =>
      cases hrefers with
      | chunk heq => exact Or.inr ⟨_, hheld, heq, hgoes⟩
  · rintro (h | ⟨c, hc, heq, h⟩)
    · exact .target h
    · exact .along (.chunk heq) hc h

/-- The embeddings that go with their chunks are those whose chunk is not among the rest. -/
theorem deleted_keepChunks (h : s.Consistent) {projects : List Project}
    {keepProject : Project → Bool} {keepChunk : StoredChunk → Bool}
    (hprojects : projects = s.projects.filter keepProject)
    (hembedding : ∀ e, ¬ target (.embedding e))
    (hproject : ∀ p ∈ s.projects, keepProject p = true ↔ ¬ s.Goes target (.project p))
    (hchunk : ∀ c ∈ s.chunks, keepChunk c = true ↔ ¬ s.Goes target (.chunk c)) :
    Deleted s target ({ s with projects }.keepChunks keepChunk) := by
  subst hprojects
  constructor
  · intro r
    cases r with
    | project p =>
      refine List.mem_filter.trans ?_
      exact and_congr_right (hproject p)
    | chunk c =>
      refine List.mem_filter.trans ?_
      exact and_congr_right (hchunk c)
    | embedding e =>
      refine List.mem_filter.trans ?_
      apply and_congr_right
      intro he
      obtain ⟨c, hc, hid⟩ := List.any_eq_true.mp (h.linked.owned e he)
      rw [beq_iff_eq] at hid
      -- No other chunk has the id that the embedding refers to.
      have hown : ∀ d ∈ s.chunks, d.id = e.chunkId → d = c := fun d hd heq =>
        List.inj_on_of_nodup_map h.keyed.nodup hd hc (heq.trans hid.symm)
      have hstays : (s.chunks.filter keepChunk).any (fun d => d.id == e.chunkId) = true ↔
          keepChunk c = true := by
        rw [List.any_eq_true]
        constructor
        · rintro ⟨d, hd, heq⟩
          obtain ⟨hd, hkept⟩ := List.mem_filter.mp hd
          rwa [← hown d hd (beq_iff_eq.mp heq)]
        · intro hkept
          exact ⟨c, List.mem_filter.mpr ⟨hc, hkept⟩, beq_iff_eq.mpr hid⟩
      have hgoes : s.Goes target (.embedding e) ↔ s.Goes target (.chunk c) := by
        rw [goes_embedding_iff, or_iff_right (hembedding e)]
        constructor
        · rintro ⟨d, hd, heq, hgoes⟩
          rwa [← hown d hd heq.symm]
        · exact fun hgoes => ⟨c, hc, hid.symm, hgoes⟩
      rw [hgoes]
      exact hstays.trans (hchunk c hc)
  · exact List.filter_sublist
  · exact List.filter_sublist
  · exact List.filter_sublist
  · rfl
  · rfl
  · rfl

end Cascade

section Deletions

theorem deleted_deleteProject (h : s.Consistent) (id : Int) :
    Deleted s (StoreRow.IsProject id) (s.deleteProject id).1 := by
  apply deleted_keepChunks h rfl
  · exact fun _ => not_false
  · intro p _
    rw [goes_project_iff, bne_iff_ne]
    rfl
  · intro c hc
    obtain ⟨p, hp, heq⟩ := List.any_eq_true.mp (h.linked.housed c hc)
    rw [beq_iff_eq] at heq
    have hother : ¬ StoreRow.IsProject id (.chunk c) := not_false
    rw [goes_chunk_iff, or_iff_right hother, bne_iff_ne]
    apply not_congr
    constructor
    · exact fun hid => ⟨p, hp, heq.symm, heq.trans hid⟩
    · rintro ⟨q, _, heq, hq⟩
      exact heq.trans hq

/-- Where only chunks are targets, no project goes. -/
theorem deleted_chunks (h : s.Consistent) {target : StoreRow → Prop} (gone : StoredChunk → Bool)
    (hproject : ∀ p, ¬ target (.project p)) (hembedding : ∀ e, ¬ target (.embedding e))
    (hchunk : ∀ c, gone c = true ↔ target (.chunk c)) :
    Deleted s target (s.keepChunks fun c => !gone c) := by
  apply deleted_keepChunks h (List.filter_true s.projects).symm hembedding
  · intro p _
    rw [goes_project_iff]
    exact iff_of_true rfl (hproject p)
  · intro c _
    have hnone : ¬ ∃ p ∈ s.projects, c.projectId = p.id ∧ target (.project p) :=
      fun ⟨p, _, _, hp⟩ => hproject p hp
    rw [goes_chunk_iff, or_iff_left hnone, ← hchunk, Bool.not_eq_true', Bool.not_eq_true]

theorem deleted_clearProject (h : s.Consistent) (projectId : Int) :
    Deleted s (StoreRow.IsChunkOf projectId) (s.clearProject projectId).1 := by
  apply deleted_chunks h fun c => c.projectId == projectId
  · exact fun _ => not_false
  · exact fun _ => not_false
  · exact fun c => beq_iff_eq

theorem deleted_deleteChunks (h : s.Consistent) (ids : List Int) :
    Deleted s (StoreRow.IsChunkIn ids) (s.deleteChunks ids).1 := by
  apply deleted_chunks h fun c => ids.contains c.id
  · exact fun _ => not_false
  · exact fun _ => not_false
  · exact fun c => List.contains_iff_mem

end Deletions

section Counts

/-- Deletes chunks one by one and counts the rows that go. -/
def deleteEach (s : Store) (removed : Nat) : List Int → Store × Nat
  | [] => (s, removed)
  | id :: rest =>
    deleteEach (s.keepChunks fun c => c.id != id) (removed + s.chunks.countP fun c => c.id == id)
      rest

theorem deleteEach_eq (howned : ∀ e ∈ s.embeddings, s.hasChunk e.chunkId = true) (removed : Nat)
    (ids : List Int) :
    s.deleteEach removed ids = ((s.deleteChunks ids).1, removed + (s.deleteChunks ids).2) := by
  induction ids generalizing s removed with
  | nil =>
    have hnone : s.chunks.countP (fun c => ([] : List Int).contains c.id) = 0 :=
      List.countP_eq_zero.mpr fun _ _ => Bool.false_ne_true
    rw [deleteEach, deleteChunks, hnone]
    exact congrArg (·, removed) (keepChunks_all howned).symm
  | cons id rest ih =>
    have howned' : ∀ e ∈ (s.keepChunks fun c => c.id != id).embeddings,
        (s.keepChunks fun c => c.id != id).hasChunk e.chunkId = true :=
      fun e he => (List.mem_filter.mp he).2
    have hkept : (fun c : StoredChunk => c.id != id && !rest.contains c.id) =
        fun c => !(id :: rest).contains c.id := by
      funext c
      rw [List.contains_cons, Bool.not_or, bne]
    have hcount : (s.chunks.countP fun c => c.id == id) +
        ((s.chunks.filter fun c => c.id != id).countP fun c => rest.contains c.id) =
          s.chunks.countP fun c => (id :: rest).contains c.id := by
      rw [List.countP_eq_countP_filter_add s.chunks (fun c => (id :: rest).contains c.id)
        (fun c => c.id == id)]
      simp only [List.countP_filter, List.contains_cons]
      congr 1
      · apply List.countP_congr
        intro c _
        rw [Bool.and_eq_true, Bool.or_eq_true]
        exact ⟨fun hid => ⟨Or.inl hid, hid⟩, And.right⟩
      · apply List.countP_congr
        intro c _
        cases hid : c.id == id with
        | true => simp [bne, hid]
        | false => simp [bne, hid]
    rw [deleteEach, ih howned', deleteChunks, deleteChunks, keepChunks_keepChunks, hkept, ← hcount,
      Nat.add_assoc]
    rfl

/-- Ids that are repeated or unknown add nothing. -/
theorem count_deleteChunks (h : (s.chunks.map StoredChunk.id).Nodup) (ids : List Int) :
    (s.deleteChunks ids).2 = (ids.toFinset.filter fun id => s.hasChunk id = true).card := by
  have hgone : ((s.chunks.filter fun c => ids.contains c.id).map StoredChunk.id).toFinset =
      ids.toFinset.filter fun id => s.hasChunk id = true := by
    ext id
    simp only [List.mem_toFinset, List.mem_map, List.mem_filter, Finset.mem_filter,
      List.contains_iff_mem, hasChunk, List.any_eq_true, beq_iff_eq]
    constructor
    · rintro ⟨c, ⟨hc, hid⟩, rfl⟩
      exact ⟨hid, c, hc, rfl⟩
    · rintro ⟨hid, c, hc, rfl⟩
      exact ⟨c, ⟨hc, hid⟩, rfl⟩
  rw [← hgone, List.toFinset_card_of_nodup (h.sublist (List.filter_sublist.map _)),
    List.length_map, deleteChunks, List.countP_eq_length_filter]

end Counts

section Exact

/-- Whatever is deleted, the targets go with all that refers to them and nothing else does, and the
numbers reported are those of the chunks or projects that went. -/
theorem deletions_exact (h : s.Reachable) :
    (∀ name p, s.project? name = some p →
      ∃ s', s.clear name = (s', .ok (s.countChunks (some p.id))) ∧
        Deleted s (StoreRow.IsChunkOf p.id) s' ∧ s'.project? name = some p ∧
        s'.countChunks (some p.id) = 0) ∧
    (∀ id, Deleted s (StoreRow.IsProject id) (s.deleteProject id).1 ∧
      ((s.deleteProject id).2 = true ↔ ∃ p ∈ s.projects, p.id = id)) ∧
    ∀ ids, Deleted s (StoreRow.IsChunkIn ids) (s.deleteChunks ids).1 ∧
      (s.deleteChunks ids).2 = (ids.toFinset.filter fun id => s.hasChunk id = true).card ∧
      s.deleteEach 0 ids = s.deleteChunks ids := by
  have hconsistent := h.consistent
  refine ⟨?_, ?_, ?_⟩
  · intro name p hp
    refine ⟨(s.clearProject p.id).1, ?_, deleted_clearProject hconsistent p.id, hp, ?_⟩
    · unfold clear
      rw [hp]
      rfl
    · apply List.countP_eq_zero.mpr
      intro c hc
      have hother : (c.projectId != p.id) = true := (List.mem_filter.mp hc).2
      simpa [countsFor] using hother
  · intro id
    refine ⟨deleted_deleteProject hconsistent id, ?_⟩
    rw [deleteProject, hasProject, List.any_eq_true]
    simp only [beq_iff_eq]
  · intro ids
    refine ⟨deleted_deleteChunks hconsistent ids, ?_, ?_⟩
    · exact count_deleteChunks hconsistent.keyed.nodup ids
    · rw [deleteEach_eq hconsistent.linked.owned, Nat.zero_add]

def lentBird : StoredChunk := ⟨2, 2, "bird", "/e/a.md", 1, 1, "text", "md", "h2", 4⟩

/-- The chunks of the first project stand on either side of that of the second. -/
def twoShelves : Store where
  dimensions := 1
  projects := [⟨1, "d", "/d", none⟩, ⟨2, "e", "/e", none⟩]
  chunks :=
    [⟨1, 1, "fish", "/d/a.md", 1, 1, "text", "md", "h1", 4⟩, lentBird,
      ⟨3, 1, "fern", "/d/b.md", 1, 1, "text", "md", "h3", 4⟩]
  embeddings := [⟨1, [0]⟩, ⟨2, [1]⟩]
  lastProjectId := 2
  lastChunkId := 3

theorem reachable_twoShelves : twoShelves.Reachable := by
  have hd : ProjectName.ofPath "/d" = "d" := by decide +kernel
  have he : ProjectName.ofPath "/e" = "e" := by decide +kernel
  have h := (Reachable.opened 1).run
    [.createProject "/d", .createProject "/e",
      .insertChunks 1 [⟨"fish", "/d/a.md", 1, 1, "text", "md", "h1", 4, none⟩],
      .insertChunks 2 [⟨"bird", "/e/a.md", 1, 1, "text", "md", "h2", 4, none⟩],
      .insertChunks 1 [⟨"fern", "/d/b.md", 1, 1, "text", "md", "h3", 4, none⟩],
      .insertEmbeddings [1, 2] [[0], [1]]]
  simp [run, perform, after, createProject, projectAt?, hd, he, insertChunks, insertChunksFrom,
    hasHash, hasProject, row, insertEmbeddings, checkDimensions, insertEmbeddingsFrom,
    hasEmbedding, hasChunk] at h
  exact h

theorem bird_outlives_first_shelf :
    twoShelves.Reachable ∧ twoShelves.project? "D" = some ⟨1, "d", "/d", none⟩ ∧
    (∃ s', twoShelves.clear "D" = (s', .ok 2) ∧ s'.Holds (.embedding ⟨2, [1]⟩) ∧
      ¬ s'.Holds (.embedding ⟨1, [0]⟩)) ∧
    ((twoShelves.deleteProject 1).1.Holds (.chunk lentBird) ∧
      (twoShelves.deleteProject 1).2 = true) ∧
    (twoShelves.deleteChunks [3, 9, 3]).2 = 1 := by
  have hname : twoShelves.project? "D" = some ⟨1, "d", "/d", none⟩ := by decide +kernel
  obtain ⟨hclear, hdelete, hchunks⟩ := deletions_exact reachable_twoShelves
  obtain ⟨s', hclear, hleft, -, -⟩ := hclear "D" _ hname
  refine ⟨reachable_twoShelves, hname, ⟨s', hclear, ?_, ?_⟩, ⟨?_, ?_⟩, ?_⟩
  · rw [hleft.holds, goes_embedding_iff]
    simp [Holds, twoShelves, goes_chunk_iff, StoreRow.IsChunkOf, lentBird]
  · rw [hleft.holds, goes_embedding_iff]
    simp [twoShelves, goes_chunk_iff, StoreRow.IsChunkOf]
  · rw [(hdelete 1).1.holds, goes_chunk_iff]
    simp [Holds, twoShelves, StoreRow.IsProject, lentBird]
  · exact (hdelete 1).2.mpr ⟨_, List.mem_cons_self, rfl⟩
  · rw [(hchunks _).2.1]
    decide

end Exact

end Store
end CodeSearch
