import CodeSearch.Proofs.Keys
import CodeSearch.Proofs.Search.Order
import CodeSearch.Proofs.Sorting
import CodeSearch.Proofs.Store.Reachable
import CodeSearch.Search

/-!
# The candidates of a search

Which chunks a search may show, said without the filter that the store is asked with. The store
lists the candidates that match, each once, so those that it returns are the first of them.
-/

set_option autoImplicit false

namespace CodeSearch

section Filter
variable {α : Type} [Score α] {s : Store} {o : SearchOptions α}

/-- The lists of the options let a chunk through. If a name among the projects is known, the chunk
has to be of a project that is named. -/
structure Passes (s : Store) (o : SearchOptions α) (c : StoredChunk) : Prop where
  included : o.filePaths = [] ∨ c.filePath ∈ o.filePaths
  notExcluded : c.filePath ∉ o.excludeFilePaths
  language : o.languages = [] ∨ c.language ∈ o.languages
  kind : o.kinds = [] ∨ c.kind ∈ o.kinds
  project : (∃ name ∈ o.projects, (s.project? name).isSome) →
    ∃ name ∈ o.projects, ∃ p, s.project? name = some p ∧ c.projectId = p.id

theorem allows_iff {β : Type} [BEq β] [LawfulBEq β] {items : List β} {x : β} :
    allows items x = true ↔ items = [] ∨ x ∈ items := by
  simp [allows]

theorem mem_projectIds {id : Int} : id ∈ (Search.filterOf s o).projectIds ↔
    ∃ name ∈ o.projects, ∃ p, s.project? name = some p ∧ id = p.id := by
  simp only [Search.filterOf, List.mem_filterMap, Option.map_eq_some_iff, eq_comm (a := id)]

theorem projectIds_eq_nil_iff : (Search.filterOf s o).projectIds = [] ↔
    ¬ ∃ name ∈ o.projects, (s.project? name).isSome := by
  simp [Search.filterOf, List.filterMap_eq_nil_iff]

theorem admits_filterOf {c : StoredChunk} :
    (Search.filterOf s o).admits c = true ↔ Passes s o c := by
  have hproject : allows (Search.filterOf s o).projectIds c.projectId = true ↔
      ((∃ name ∈ o.projects, (s.project? name).isSome) →
        ∃ name ∈ o.projects, ∃ p, s.project? name = some p ∧ c.projectId = p.id) := by
    rw [allows_iff, projectIds_eq_nil_iff, mem_projectIds]
    exact imp_iff_not_or.symm
  have hexcluded : (!(Search.filterOf s o).excludeFilePaths.contains c.filePath) = true ↔
      c.filePath ∉ o.excludeFilePaths := by
    simp [Search.filterOf]
  simp only [ChunkFilter.admits, Bool.and_eq_true, hproject, hexcluded, allows_iff]
  constructor
  · rintro ⟨⟨⟨⟨hprojects, hincluded⟩, hnotExcluded⟩, hlanguage⟩, hkind⟩
    exact ⟨hincluded, hnotExcluded, hlanguage, hkind, hprojects⟩
  · rintro ⟨hincluded, hnotExcluded, hlanguage, hkind, hprojects⟩
    exact ⟨⟨⟨⟨hprojects, hincluded⟩, hnotExcluded⟩, hlanguage⟩, hkind⟩

/-- A stored chunk, at the distance of its embedding, that the options let through and that scores
above both bounds. -/
structure Matches (s : Store) (distance : Vec → Option α) (o : SearchOptions α)
    (c : Candidate α) : Prop where
  stored : c.chunk ∈ s.chunks
  embedded : ∃ e ∈ s.embeddings, e.chunkId = c.chunk.id ∧ distance e.vector = some c.distance
  passes : Passes s o c.chunk
  above : Score.lt (Score.larger o.threshold o.minSimilarity) c.similarity = true

theorem Matches.distance {distance : Vec → Option α} {c : Candidate α} {P : α → Prop}
    (h : Matches s distance o c) (hdistance : ∀ v d, distance v = some d → P d) :
    P c.distance := by
  obtain ⟨e, _, _, hsome⟩ := h.embedded
  exact hdistance e.vector c.distance hsome

end Filter

section Listing
variable {α : Type} [Score α] {s : Store} {distance : Vec → Option α}

theorem map_filterMap_sublist {β γ δ : Type} {f : β → Option γ} {g : γ → δ} {k : β → δ}
    (h : ∀ b c, f b = some c → g c = k b) (items : List β) :
    ((items.filterMap f).map g).Sublist (items.map k) := by
  induction items with
  | nil => exact List.Sublist.slnil
  | cons b rest ih =>
    cases hb : f b with
    | none =>
      rw [List.filterMap_cons_none hb]
      exact ih.cons _
    | some c =>
      rw [List.filterMap_cons_some hb, List.map_cons, List.map_cons, h b c hb]
      exact ih.cons_cons _

theorem Store.Keyed.chunk?_eq_some_iff (h : s.Keyed) {id : Int} {c : StoredChunk} :
    s.chunk? id = some c ↔ c ∈ s.chunks ∧ c.id = id :=
  find?_key_iff h.nodup

theorem mem_candidates (f : ChunkFilter α) {c : Candidate α} :
    c ∈ s.candidates distance f ↔ ∃ e ∈ s.embeddings, s.chunk? e.chunkId = some c.chunk ∧
      distance e.vector = some c.distance ∧ f.admits c.chunk = true ∧
        Score.lt f.minSimilarity c.similarity = true := by
  obtain ⟨chunk, d⟩ := c
  simp only [Store.candidates, List.mem_filterMap]
  constructor
  · rintro ⟨e, he, hsome⟩
    split at hsome
    · rename_i chunk' d' hchunk hdistance
      split at hsome
      · rename_i hpasses
        obtain ⟨rfl, rfl⟩ := Candidate.mk.inj (Option.some.inj hsome)
        obtain ⟨hadmits, habove⟩ := Bool.and_eq_true_iff.mp hpasses
        exact ⟨e, he, hchunk, hdistance, hadmits, habove⟩
      · simp at hsome
    · simp at hsome
  · rintro ⟨e, he, hchunk, hdistance, hadmits, habove⟩
    refine ⟨e, he, ?_⟩
    rw [hchunk, hdistance]
    simp only [hadmits, habove, Bool.and_self, if_true]

theorem mem_candidates_iff (h : s.Keyed) {o : SearchOptions α} {c : Candidate α} :
    c ∈ s.candidates distance (Search.filterOf s o) ↔ Matches s distance o c := by
  rw [mem_candidates]
  constructor
  · rintro ⟨e, he, hchunk, hdistance, hadmits, habove⟩
    obtain ⟨hstored, hid⟩ := h.chunk?_eq_some_iff.mp hchunk
    exact ⟨hstored, ⟨e, he, hid.symm, hdistance⟩, admits_filterOf.mp hadmits, habove⟩
  · rintro ⟨hstored, ⟨e, he, hid, hdistance⟩, hpasses, habove⟩
    exact ⟨e, he, h.chunk?_eq_some_iff.mpr ⟨hstored, hid.symm⟩, hdistance,
      admits_filterOf.mpr hpasses, habove⟩

/-- Candidates come from embeddings, each from one, and are of its chunk. -/
theorem ids_candidates_sublist (f : ChunkFilter α) :
    ((s.candidates distance f).map fun c : Candidate α => c.chunk.id).Sublist
      (s.embeddings.map Embedding.chunkId) := by
  apply map_filterMap_sublist
  intro e c hsome
  split at hsome
  · rename_i chunk d hchunk _
    dsimp only at hsome
    split at hsome
    · obtain rfl := Option.some.inj hsome
      have hid := List.find?_some hchunk
      simpa using hid
    · simp at hsome
  · simp at hsome

end Listing

section Nearest
variable {α : Type} [Score α] {s : Store} {distance : Vec → Option α} {o : SearchOptions α}

def Candidate.hit (c : Candidate α) : Hit α := ⟨c.chunk, c.similarity⟩

theorem nearest_eq (f : ChunkFilter α) {limit : Nat} (hlimit : limit < Nat.pow 2 63) :
    s.nearest distance f limit =
      (((s.candidates distance f).mergeSort Candidate.precedes).take limit).map Candidate.hit := by
  rw [Store.nearest, takeRows, if_pos hlimit]
  rfl

variable (s distance) in
theorem length_nearest_le (f : ChunkFilter α) {limit : Nat} (hlimit : limit < Nat.pow 2 63) :
    (s.nearest distance f limit).length ≤ limit := by
  rw [nearest_eq f hlimit, List.length_map]
  exact List.length_take_le ..

theorem matches_of_mem_nearest (h : s.Keyed) {limit : Nat} (hlimit : limit < Nat.pow 2 63)
    {hit : Hit α} (hhit : hit ∈ s.nearest distance (Search.filterOf s o) limit) :
    ∃ c, Matches s distance o c ∧ hit = c.hit := by
  rw [nearest_eq _ hlimit] at hhit
  obtain ⟨c, hc, rfl⟩ := List.mem_map.mp hhit
  refine ⟨c, (mem_candidates_iff h).mp ?_, rfl⟩
  exact List.mem_mergeSort.mp (List.mem_of_mem_take hc)

/-- No two candidates are of one chunk. -/
theorem nodup_sorted (h : s.Consistent) (f : ChunkFilter α) :
    (((s.candidates distance f).mergeSort Candidate.precedes).map fun c => c.chunk.id).Nodup := by
  have hperm := (List.mergeSort_perm (s.candidates distance f) Candidate.precedes).map
    fun c => c.chunk.id
  exact hperm.nodup_iff.mpr (h.unique.sublist (ids_candidates_sublist f))

variable (distance) in
theorem nodup_nearest (h : s.Consistent) (f : ChunkFilter α) {limit : Nat}
    (hlimit : limit < Nat.pow 2 63) :
    ((s.nearest distance f limit).map fun hit => hit.chunk.id).Nodup := by
  rw [nearest_eq f hlimit, List.map_map]
  exact (nodup_sorted h f).sublist ((List.take_sublist _ _).map _)

variable (o) in
/-- What the store returns are the first of the candidates that match. -/
theorem exists_leading_nearest {P : α → Prop} (hP : Score.OrderedOn P)
    (hdistance : ∀ v d, distance v = some d → P d) (h : s.Consistent) {limit : Nat}
    (hlimit : limit < Nat.pow 2 63) :
    ∃ best, Leading (Matches s distance o) limit best ∧
      s.nearest distance (Search.filterOf s o) limit = best.map Candidate.hit := by
  let sorted := (s.candidates distance (Search.filterOf s o)).mergeSort Candidate.precedes
  have hmem : ∀ c, c ∈ sorted ↔ Matches s distance o c := by
    intro c
    rw [List.mem_mergeSort]
    exact mem_candidates_iff h.keyed
  have hids : (sorted.map fun c => c.chunk.id).Nodup := nodup_sorted h _
  refine ⟨sorted.take limit, leading_take hmem ?_ hids.of_map limit, nearest_eq _ hlimit⟩
  have hprecedes : sorted.Pairwise fun a b => a.precedes b = true := by
    apply pairwise_mergeSort_of_mem (P := fun c => P c.distance)
    · intro c hc
      exact ((hmem c).mp (List.mem_mergeSort.mpr hc)).distance hdistance
    · intro a b c ha hb hc
      exact Candidate.precedes_trans hP ha hb hc
    · intro a b _ _
      exact Candidate.precedes_total a b
  apply (hprecedes.and (List.pairwise_map.mp hids)).imp
  rintro a b ⟨hab, hne⟩
  exact Candidate.before_of_precedes hab hne

end Nearest

end CodeSearch
