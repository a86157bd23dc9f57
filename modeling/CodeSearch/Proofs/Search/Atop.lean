import CodeSearch.Proofs.Search.Page
import CodeSearch.Proofs.Store.Atop

/-!
# Searching one of several projects

A search that is restricted to one project shows of a store what it would show of the rows of that
project alone. Ids play a part only in the order of candidates at one distance, and moving rows
keeps their order.
-/

set_option autoImplicit false

namespace CodeSearch

def Candidate.moved {α : Type} (last p : Int) (c : Candidate α) : Candidate α :=
  { c with chunk := c.chunk.moved last p }

def Hit.moved {α : Type} (last p : Int) (hit : Hit α) : Hit α :=
  { hit with chunk := hit.chunk.moved last p }

def SearchResult.moved {α : Type} (last p : Int) (r : SearchResult α) : SearchResult α :=
  { r with
    chunk := r.chunk.moved last p
    context := r.context.map (StoredChunk.moved last p) }

def SearchResult.withoutIds {α : Type} (r : SearchResult α) : SearchResult α :=
  { r with
    chunk := r.chunk.withoutIds
    context := r.context.map StoredChunk.withoutIds }

/-- The filter with its projects replaced by one. -/
def ChunkFilter.within {α : Type} (f : ChunkFilter α) (p : Int) : ChunkFilter α :=
  { f with projectIds := [p] }

theorem SearchResult.withoutIds_moved {α : Type} (last p : Int) (r : SearchResult α) :
    (r.moved last p).withoutIds = r.withoutIds := by
  simp only [withoutIds, moved, List.map_map]
  rfl

namespace Store
variable {α : Type} {b s : Store} {p q : Int}

section Rows

theorem Ground.chunk?_atop (hb : b.Ground p) {id : Int} (hid : 0 < id) :
    (s.atop b p).chunk? (b.lastChunkId + id) =
      (s.chunk? id).map (StoredChunk.moved b.lastChunkId p) := by
  have hbelow : b.chunks.find? (fun c => c.id == b.lastChunkId + id) = none := by
    apply List.find?_eq_none.mpr
    intro c hc
    rw [beq_iff_eq]
    exact hb.id_ne hc hid
  simp only [chunk?, atop, List.find?_append, hbelow, Option.none_or, List.find?_map]
  congr 2
  funext c
  simp [StoredChunk.moved]

/-- What an embedding from before belongs to is not of the project above. -/
theorem Ground.chunk?_below (hb : b.Ground p) {e : Embedding} (he : e ∈ b.embeddings) :
    ∃ c, (s.atop b p).chunk? e.chunkId = some c ∧ c.projectId ≠ p := by
  cases hfind : b.chunk? e.chunkId with
  | none =>
    obtain ⟨c, hc, hid⟩ := List.any_eq_true.mp (hb.owned e he)
    exact absurd hid (List.find?_eq_none.mp hfind c hc)
  | some c =>
    refine ⟨c, ?_, hb.vacant c (List.mem_of_find?_eq_some hfind)⟩
    rw [chunk?] at hfind ⊢
    simp only [atop, List.find?_append, hfind, Option.some_or]

theorem project_of_chunk? (hs : s.Lone q) {id : Int} {c : StoredChunk} (h : s.chunk? id = some c) :
    c.projectId = q := hs.project c (List.mem_of_find?_eq_some h)

theorem admits_within_moved (f : ChunkFilter α) {c : StoredChunk} (hc : c.projectId = q)
    (last : Int) : (f.within p).admits (c.moved last p) = (f.within q).admits c := by
  simp [ChunkFilter.admits, ChunkFilter.within, StoredChunk.moved, allows, hc]

theorem not_admits_within (f : ChunkFilter α) {c : StoredChunk} (hc : c.projectId ≠ p) :
    (f.within p).admits c = false := by
  simp [ChunkFilter.admits, ChunkFilter.within, allows, hc]

theorem Ground.rowsBeside_atop (hb : b.Ground p) (hs : s.Lone q) {c : StoredChunk}
    (hc : c.projectId = q) (first last : Int64) :
    (s.atop b p).rowsBeside (c.moved b.lastChunkId p) first last =
      (s.rowsBeside c first last).map (StoredChunk.moved b.lastChunkId p) := by
  rw [rowsBeside, rowsBeside, ← mergeSort_map_moved]
  congr 1
  apply hb.filter_atop
  · intro d hd
    simp only [Bool.and_eq_true, beq_iff_eq] at hd
    exact hd.1.1.1.2
  · intro d hd
    have hid : (b.lastChunkId + d.id != b.lastChunkId + c.id) = (d.id != c.id) := by
      simp [bne]
    simp only [StoredChunk.moved, hid, hs.project d hd, hc, beq_self_eq_true]
    rfl

/-- The window goes by the lines of the chunk alone. -/
theorem Ground.context?_atop (hb : b.Ground p) (hs : s.Lone q) {c : StoredChunk}
    (hc : c.projectId = q) (contextLines : Nat) :
    (s.atop b p).context? (c.moved b.lastChunkId p) contextLines =
      (s.context? c contextLines).map (List.map (StoredChunk.moved b.lastChunkId p)) := by
  simp only [context?, hb.rowsBeside_atop hs hc, Option.bind_eq_bind, Option.pure_def,
    Option.map_bind, Function.comp_def, Option.map_some]
  rfl

theorem Ground.compared_atop (hb : b.Ground p) (hs : s.Lone q) (f : ChunkFilter α) :
    (s.atop b p).compared (f.within p) = s.compared (f.within q) := by
  -- A filter that names a project is early: vectors of other projects are not even compared.
  have hearly : ∀ id, (f.within id).isEarly = true := fun _ => rfl
  simp only [compared, hearly, Bool.not_true, Bool.false_or]
  change List.map _ (List.filter _
    (b.embeddings ++ s.embeddings.map (Embedding.moved b.lastChunkId))) = _
  rw [List.filter_append, List.filter_eq_nil_iff.mpr, List.nil_append, List.filter_map,
    List.map_map]
  · have hvector : Embedding.vector ∘ Embedding.moved b.lastChunkId = Embedding.vector := rfl
    rw [hvector]
    congr 1
    apply List.filter_congr
    intro e he
    have hchunk := hb.chunk?_atop (s := s) (hs.embeddingId e he)
    simp only [Function.comp_apply, Embedding.moved, hchunk]
    cases hfind : s.chunk? e.chunkId with
    | none => rfl
    | some c => exact admits_within_moved f (project_of_chunk? hs hfind) b.lastChunkId
  · intro e he
    obtain ⟨c, hchunk, hc⟩ := hb.chunk?_below (s := s) he
    simp only [hchunk, Option.any_some, not_admits_within f hc, Bool.false_eq_true,
      not_false_eq_true]

end Rows

section Nearest
variable [Score α] {distance : Vec → Option α}

theorem Ground.candidates_atop (hb : b.Ground p) (hs : s.Lone q) (f : ChunkFilter α) :
    (s.atop b p).candidates distance (f.within p) =
      (s.candidates distance (f.within q)).map (Candidate.moved b.lastChunkId p) := by
  rw [candidates, candidates, List.map_filterMap]
  change List.filterMap _ (b.embeddings ++ s.embeddings.map (Embedding.moved b.lastChunkId)) = _
  rw [List.filterMap_append, List.filterMap_map, List.filterMap_eq_nil_iff.mpr, List.nil_append]
  · apply List.filterMap_congr
    intro e he
    have hchunk := hb.chunk?_atop (s := s) (hs.embeddingId e he)
    simp only [Function.comp_apply, Embedding.moved, hchunk]
    cases hfind : s.chunk? e.chunkId with
    | none => rfl
    | some c =>
      have hadmits := admits_within_moved f (p := p) (project_of_chunk? hs hfind) b.lastChunkId
      cases distance e.vector with
      | none => rfl
      | some d =>
        simp only [Option.map_some, hadmits]
        exact (apply_ite (Option.map (Candidate.moved b.lastChunkId p)) _ (some ⟨c, d⟩) none).symm
  · intro e he
    obtain ⟨c, hchunk, hc⟩ := hb.chunk?_below (s := s) he
    rw [hchunk]
    cases distance e.vector with
    | none => rfl
    | some d =>
      simp only [not_admits_within f hc, Bool.false_and, Bool.false_eq_true, if_false]

theorem precedes_moved (last : Int) (c d : Candidate α) :
    (c.moved last p).precedes (d.moved last p) = c.precedes d := by
  have hid : last + c.chunk.id ≤ last + d.chunk.id ↔ c.chunk.id ≤ d.chunk.id := by omega
  simp only [Candidate.precedes, Candidate.moved, StoredChunk.moved]
  congr 2
  exact decide_eq_decide.mpr hid

theorem Ground.nearest_atop (hb : b.Ground p) (hs : s.Lone q) (f : ChunkFilter α) (limit : Nat) :
    (s.atop b p).nearest distance (f.within p) limit =
      (s.nearest distance (f.within q) limit).map (Hit.moved b.lastChunkId p) := by
  have hsort : ((s.candidates distance (f.within q)).map
        (Candidate.moved b.lastChunkId p)).mergeSort Candidate.precedes =
      ((s.candidates distance (f.within q)).mergeSort Candidate.precedes).map
        (Candidate.moved b.lastChunkId p) := by
    symm
    apply List.map_mergeSort
    intro c _ d _
    exact (precedes_moved b.lastChunkId c d).symm
  have htake : ∀ rows : List (Candidate α), takeRows limit
      (rows.map (Candidate.moved b.lastChunkId p)) =
        (takeRows limit rows).map (Candidate.moved b.lastChunkId p) := by
    intro rows
    unfold takeRows
    split
    · exact (List.map_take ..).symm
    · rfl
  rw [nearest, nearest, hb.candidates_atop hs, hsort, htake, List.map_map, List.map_map]
  rfl

end Nearest

end Store

section Page
variable {α : Type} [Score α] {b s : Store} {p q : Int}

theorem Ranking.keepFrom_moved (factor : α) (last : Int) (kept hits : List (Hit α)) :
    keepFrom factor (kept.map (Hit.moved last p)) (hits.map (Hit.moved last p)) =
      (keepFrom factor kept hits).map (Hit.moved last p) := by
  induction hits generalizing kept with
  | nil => simp only [List.map_nil, keepFrom, List.map_reverse]
  | cons hit rest ih =>
    have hcount : (kept.map (Hit.moved last p)).countP (fun k => k.chunk.filePath ==
        (hit.moved last p).chunk.filePath) =
          kept.countP fun k => k.chunk.filePath == hit.chunk.filePath := List.countP_map ..
    have hsimilarity : (hit.moved last p).similarity = hit.similarity := rfl
    simp only [List.map_cons, keepFrom, hcount, hsimilarity]
    split
    · exact ih (hit :: kept)
    · exact ih kept

/-- Which hits make the page goes by their files and similarities. -/
theorem Ranking.rank_moved (factor : α) (limit : Nat) (last : Int) (hits : List (Hit α)) :
    rank factor limit (hits.map (Hit.moved last p)) =
      (rank factor limit hits).map (Hit.moved last p) := by
  have hsort : ∀ rows : List (Hit α), bySimilarity (rows.map (Hit.moved last p)) =
      (bySimilarity rows).map (Hit.moved last p) := by
    intro rows
    symm
    apply List.map_mergeSort
    intro c _ d _
    rfl
  have hkeep := keepFrom_moved (p := p) factor last [] hits
  rw [List.map_nil] at hkeep
  rw [rank, rank, diversify, diversify, hkeep, hsort, List.map_take]
  split <;> rfl

theorem Search.contextOf?_atop (hb : b.Ground p) (hs : s.Lone q) {c : StoredChunk}
    (hc : c.projectId = q) (contextLines : Nat) :
    contextOf? (s.atop b p) contextLines (c.moved b.lastChunkId p) =
      (contextOf? s contextLines c).map (List.map (StoredChunk.moved b.lastChunkId p)) := by
  unfold contextOf?
  split
  · exact hb.context?_atop hs hc contextLines
  · rfl

theorem Search.resultsFrom?_atop (hb : b.Ground p) (hs : s.Lone q) (query : String)
    (contextLines rank : Nat) {hits : List (Hit α)}
    (hhits : ∀ hit ∈ hits, hit.chunk.projectId = q) :
    resultsFrom? (s.atop b p) query contextLines rank (hits.map (Hit.moved b.lastChunkId p)) =
      (resultsFrom? s query contextLines rank hits).map
        (List.map (SearchResult.moved b.lastChunkId p)) := by
  induction hits generalizing rank with
  | nil => rfl
  | cons hit rest ih =>
    obtain ⟨hhit, hrest⟩ := List.forall_mem_cons.mp hhits
    have hcontext : contextOf? (s.atop b p) contextLines (hit.moved b.lastChunkId p).chunk = _ :=
      contextOf?_atop hb hs hhit contextLines
    rw [List.map_cons, resultsFrom?, resultsFrom?, ih (rank + 1) hrest, hcontext]
    cases contextOf? s contextLines hit.chunk with
    | none => rfl
    | some context => cases resultsFrom? s query contextLines (rank + 1) rest <;> rfl

theorem Store.mem_of_mem_nearest {distance : Vec → Option α} {f : ChunkFilter α} {limit : Nat}
    {hit : Hit α} (h : hit ∈ s.nearest distance f limit) : hit.chunk ∈ s.chunks := by
  obtain ⟨c, hc, rfl⟩ := List.mem_map.mp h
  have hc' : c ∈ s.candidates distance f := by
    unfold takeRows at hc
    split at hc
    · exact List.mem_mergeSort.mp (List.mem_of_mem_take hc)
    · exact List.mem_mergeSort.mp hc
  obtain ⟨e, _, hchunk, _⟩ := (mem_candidates f).mp hc'
  exact List.mem_of_find?_eq_some hchunk

namespace Search
variable {o : SearchOptions α} {query : String}

/-- Searching in one project, by any spelling of its name. -/
theorem projectIds_of_only {projects : List Project} {id : Int} {name path : String}
    (hprojects : s.projects = projects ++ [⟨id, name, path, none⟩])
    (hname : ∀ other ∈ projects, other.name ≠ name) {only : String}
    (honly : ProjectName.normalize only = name) (o : SearchOptions α) :
    (filterOf s { o with projects := [only] }).projectIds = [id] := by
  have hnone : projects.find? (fun other => other.name == name) = none := by
    apply List.find?_eq_none.mpr
    intro other hother
    simpa using hname other hother
  have hfound : s.project? only = some ⟨id, name, path, none⟩ := by
    simp [Store.project?, hprojects, honly, List.find?_append, hnone]
  simp [filterOf, hfound]

theorem filterOf_eq_within (s : Store) {s' : Store} (h : (filterOf s' o).projectIds = [p]) :
    filterOf s' o = (filterOf s o).within p := by
  simp only [filterOf] at h
  simp only [filterOf, ChunkFilter.within, h]

theorem pageOf?_atop (hb : b.Ground p) (hs : s.Lone q) {hits : List (Hit α)}
    (hhits : ∀ hit ∈ hits, hit.chunk ∈ s.chunks) :
    pageOf? (s.atop b p) query o (hits.map (Hit.moved b.lastChunkId p)) =
      (pageOf? s query o hits).map (List.map (SearchResult.moved b.lastChunkId p)) := by
  rw [pageOf?, pageOf?, Ranking.rank_moved]
  apply resultsFrom?_atop hb hs
  intro hit hhit
  exact hs.project hit.chunk (hhits hit ((Ranking.rank_subperm _ _ _).subset hhit))

/-- What a search shows, ids apart. -/
def shown (s : Store) (client : EmbeddingClient) (query : String) (o : SearchOptions Float) :
    Option (Except SearchError (List (SearchResult Float))) :=
  (run? s client query o).map (Except.map (List.map SearchResult.withoutIds))

/-- A search within one project shows the same rows, above others and alone. -/
theorem run?_atop (hb : b.Ground p) (hs : s.Lone q) (hwidth : b.dimensions = s.dimensions)
    (client : EmbeddingClient) {o : SearchOptions Float}
    (habove : (filterOf (s.atop b p) o).projectIds = [p])
    (halone : (filterOf s o).projectIds = [q]) :
    run? (s.atop b p) client query o =
      (run? s client query o).map
        (Except.map (List.map (SearchResult.moved b.lastChunkId p))) := by
  have habove' := filterOf_eq_within s habove
  have halone' := filterOf_eq_within s halone
  have hcompared : (s.atop b p).compared (filterOf (s.atop b p) o) = s.compared (filterOf s o) := by
    rw [habove', hb.compared_atop hs, ← halone']
  have hnearest : ∀ distance limit, (s.atop b p).nearest distance (filterOf (s.atop b p) o) limit =
      (s.nearest distance (filterOf s o) limit).map (Hit.moved b.lastChunkId p) := by
    intro distance limit
    rw [habove', hb.nearest_atop hs, ← halone']
  rw [run?, run?]
  cases client.embedQuery (Query.sanitize query) with
  | error e => rfl
  | ok vector =>
    simp only [Store.similar, Store.checkDimensions_atop hwidth, hcompared, hnearest]
    cases s.checkDimensions vector with
    | error e => rfl
    | ok _ =>
      simp only
      cases (if Ranking.retrievalLimit o.limit = 0 then []
          else s.compared (filterOf s o)).findSome? fun v => compareFault? v vector with
      | some e => rfl
      | none =>
        let hits := s.nearest (cosineDistance vector) (filterOf s o)
          (Ranking.retrievalLimit o.limit)
        have hpage : pageOf? (s.atop b p) query o (hits.map (Hit.moved b.lastChunkId p)) =
            (pageOf? s query o hits).map (List.map (SearchResult.moved b.lastChunkId p)) :=
          pageOf?_atop hb hs fun hit hhit => Store.mem_of_mem_nearest hhit
        simp only [hits, hpage, Option.map_map]
        rfl

theorem shown_atop (hb : b.Ground p) (hs : s.Lone q) (hwidth : b.dimensions = s.dimensions)
    (client : EmbeddingClient) {o : SearchOptions Float}
    (habove : (filterOf (s.atop b p) o).projectIds = [p])
    (halone : (filterOf s o).projectIds = [q]) :
    shown (s.atop b p) client query o = shown s client query o := by
  rw [shown, shown, run?_atop hb hs hwidth client habove halone, Option.map_map]
  congr 1
  funext result
  cases result with
  | error e => rfl
  | ok results =>
    simp only [Function.comp_apply, Except.map, List.map_map]
    congr 2
    funext r
    exact SearchResult.withoutIds_moved b.lastChunkId p r

end Search

end Page

end CodeSearch
