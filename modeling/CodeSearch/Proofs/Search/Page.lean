import CodeSearch.Proofs.Search.Candidates
import CodeSearch.Proofs.Search.Doubles
import Mathlib

/-!
# Pages

What a page shows. Ranking drops hits, puts the rest in order and cuts, so whatever holds of each
hit that the store returns holds of each result. Without a penalty for repeated files a page is the
beginning of the list of all candidates that match.
-/

set_option autoImplicit false

namespace CodeSearch

namespace Ranking
variable {α : Type} [Score α] (factor : α)

theorem keepFrom_sublist (kept hits : List (Hit α)) :
    (keepFrom factor kept hits).Sublist (kept.reverse ++ hits) := by
  fun_induction keepFrom factor kept hits with
  | case1 kept => simp
  | case2 kept hit rest count hkeeps ih => simpa using ih
  | case3 kept hit rest count hdrops ih =>
    exact ih.trans ((List.sublist_cons_self hit rest).append_left _)

/-- Hits are dropped and moved; none is added and none is doubled. -/
theorem diversify_subperm (hits : List (Hit α)) :
    (diversify factor hits).Subperm hits := by
  rw [diversify]
  split
  · exact List.Subperm.refl hits
  · have hkept : (keepFrom factor [] hits).Sublist hits := keepFrom_sublist factor [] hits
    exact (List.mergeSort_perm _ _).subperm.trans hkept.subperm

theorem rank_subperm (limit : Nat) (hits : List (Hit α)) :
    (rank factor limit hits).Subperm hits :=
  (List.take_sublist limit _).subperm.trans (diversify_subperm factor hits)

variable {P : α → Prop}

/-- Sorting brings hits that are out of order by similarity into order. -/
theorem bySimilarity_pairwise (hP : Score.LawfulOn P) {hits : List (Hit α)}
    (hhits : ∀ hit ∈ hits, P hit.similarity) :
    (bySimilarity hits).Pairwise fun a b => Score.lt a.similarity b.similarity = false := by
  have hsorted : (bySimilarity hits).Pairwise
      fun a b => Score.sortLe b.similarity a.similarity = true := by
    apply pairwise_mergeSort_of_mem hhits
    · intro a b c ha hb hc hab hbc
      exact hP.sortLe_trans hc hb ha hbc hab
    · intro a b ha hb
      exact hP.sortLe_total hb ha
  apply hsorted.imp_of_mem
  intro a b ha hb hle
  have hnumber : ∀ hit ∈ bySimilarity hits, P hit.similarity := fun hit h =>
    hhits hit (List.mem_mergeSort.mp h)
  exact hP.not_lt_of_sortLe (hnumber a ha) (hnumber b hb) hle

theorem diversify_pairwise (hP : Score.LawfulOn P) {hits : List (Hit α)}
    (hhits : ∀ hit ∈ hits, P hit.similarity)
    (h : hits.Pairwise fun a b => Score.lt a.similarity b.similarity = false) :
    (diversify factor hits).Pairwise fun a b => Score.lt a.similarity b.similarity = false := by
  rw [diversify]
  split
  · exact h
  · apply bySimilarity_pairwise hP
    intro hit hhit
    exact hhits hit ((keepFrom_sublist factor [] hits).subset hhit)

theorem retrievalLimit_le (limit : Nat) : retrievalLimit limit ≤ 100 := Nat.min_le_right ..

theorem retrievalLimit_lt (limit : Nat) : retrievalLimit limit < Nat.pow 2 63 :=
  Nat.lt_of_le_of_lt (retrievalLimit_le limit) (by decide)

end Ranking

def SearchResult.hit {α : Type} (r : SearchResult α) : Hit α := ⟨r.chunk, r.similarity⟩

namespace Search
variable {α : Type} [Score α] {s : Store} {distance : Vec → Option α} {query : String}
  {o : SearchOptions α}

section Results
variable {contextLines rank : Nat} {hits : List (Hit α)} {results : List (SearchResult α)}

/-- The context of each hit is there, and each hit becomes one result. -/
theorem resultsFrom?_cons {hit : Hit α} {rest : List (Hit α)} :
    resultsFrom? s query contextLines rank (hit :: rest) = some results ↔
      ∃ context others, contextOf? s contextLines hit.chunk = some context ∧
        resultsFrom? s query contextLines (rank + 1) rest = some others ∧
        results =
          { chunk := hit.chunk
            similarity := hit.similarity
            relevance := Ranking.relevance hit.similarity query.toList hit.chunk.content.toList
            context
            rank } :: others := by
  simp only [resultsFrom?, Option.bind_eq_bind, Option.bind_eq_some_iff, Option.pure_def,
    Option.some.injEq, eq_comm (a := results)]
  tauto

theorem resultsFrom?_eq_none_iff : resultsFrom? s query contextLines rank hits = none ↔
    ∃ hit ∈ hits, contextOf? s contextLines hit.chunk = none := by
  induction hits generalizing rank with
  | nil => simp [resultsFrom?]
  | cons hit rest ih =>
    rw [List.exists_mem_cons_iff, ← @ih (rank + 1)]
    simp only [resultsFrom?, Option.bind_eq_bind, Option.pure_def]
    cases contextOf? s contextLines hit.chunk with
    | none => simp
    | some context => cases resultsFrom? s query contextLines (rank + 1) rest <;> simp

theorem map_hit_resultsFrom? (h : resultsFrom? s query contextLines rank hits = some results) :
    results.map SearchResult.hit = hits := by
  induction hits generalizing rank results with
  | nil =>
    obtain rfl := Option.some.inj h
    rfl
  | cons hit rest ih =>
    obtain ⟨context, others, -, hothers, rfl⟩ := resultsFrom?_cons.mp h
    rw [List.map_cons, ih hothers]
    rfl

theorem map_rank_resultsFrom? (h : resultsFrom? s query contextLines rank hits = some results) :
    results.map SearchResult.rank = List.range' rank results.length := by
  induction hits generalizing rank results with
  | nil =>
    obtain rfl := Option.some.inj h
    rfl
  | cons hit rest ih =>
    obtain ⟨context, others, -, hothers, rfl⟩ := resultsFrom?_cons.mp h
    rw [List.map_cons, ih hothers, List.length_cons, List.range'_succ]

theorem mem_contextOf? {chunk c : StoredChunk} {rows : List StoredChunk}
    (hrows : contextOf? s contextLines chunk = some rows) (h : c ∈ rows) :
    c ∈ s.chunks ∧ c.id ≠ chunk.id ∧ c.filePath = chunk.filePath ∧
      c.projectId = chunk.projectId := by
  unfold contextOf? at hrows
  split at hrows
  · simp only [Store.context?, Option.bind_eq_bind, Option.bind_eq_some_iff, Option.pure_def,
      Option.some.injEq] at hrows
    obtain ⟨_, _, first, _, last, _, rfl⟩ := hrows
    simp only [Store.rowsBeside, List.mem_mergeSort, List.mem_filter, Bool.and_eq_true, beq_iff_eq,
      bne_iff_ne] at h
    obtain ⟨hstored, ⟨⟨⟨hfile, hproject⟩, _⟩, _⟩, hid⟩ := h
    exact ⟨hstored, hid, hfile, hproject⟩
  · obtain rfl := Option.some.inj hrows
    exact absurd h List.not_mem_nil

theorem context_of_mem_resultsFrom?
    (hresults : resultsFrom? s query contextLines rank hits = some results) {r : SearchResult α}
    (h : r ∈ results) :
    ∀ c ∈ r.context, c ∈ s.chunks ∧ c.id ≠ r.chunk.id ∧ c.filePath = r.chunk.filePath ∧
      c.projectId = r.chunk.projectId := by
  induction hits generalizing rank results with
  | nil =>
    obtain rfl := Option.some.inj hresults
    exact absurd h List.not_mem_nil
  | cons hit rest ih =>
    obtain ⟨context, others, hcontext, hothers, rfl⟩ := resultsFrom?_cons.mp hresults
    rcases List.mem_cons.mp h with rfl | h
    · exact fun c hc => mem_contextOf? hcontext hc
    · exact ih hothers h

theorem map_hit_page? (h : page? s distance query o = some results) :
    results.map SearchResult.hit = Ranking.rank o.diversityFactor o.limit
      (s.nearest distance (filterOf s o) (Ranking.retrievalLimit o.limit)) :=
  map_hit_resultsFrom? h

/-- Without context there is a page for every query. -/
theorem exists_page? (h : o.contextLines = 0) :
    ∃ results, page? s distance query o = some results := by
  cases hpage : page? s distance query o with
  | some results => exact ⟨results, rfl⟩
  | none =>
    obtain ⟨hit, _, hnone⟩ := resultsFrom?_eq_none_iff.mp hpage
    simp [contextOf?, h] at hnone

/-- A search that succeeds shows the page under the cosine distance to the embedded query. -/
theorem run?_ok {client : EmbeddingClient} {o : SearchOptions Float}
    {results : List (SearchResult Float)} (h : run? s client query o = some (.ok results)) :
    ∃ vector, client.embedQuery (Query.sanitize query) = .ok vector ∧
      page? s (cosineDistance vector) query o = some results := by
  unfold run? at h
  split at h
  · simp at h
  · rename_i vector hvector
    refine ⟨vector, hvector, ?_⟩
    unfold Store.similar at h
    split at h
    · simp at h
    · rename_i candidates hcandidates
      split at hcandidates
      · simp at hcandidates
      · split at hcandidates
        · simp at hcandidates
        · obtain rfl := Except.ok.inj hcandidates
          obtain ⟨results', hpage, heq⟩ := Option.map_eq_some_iff.mp h
          obtain rfl := Except.ok.inj heq
          exact hpage

end Results

section Shelf

/-- A project with two notes, one of them in two chunks. -/
def shelf : Store where
  dimensions := 1
  projects := [⟨1, "d", "/d", none⟩]
  chunks :=
    [⟨1, 1, "fish", "/d/a.md", 1, 1, "text", "md", "h1", 4⟩,
      ⟨2, 1, "bird", "/d/a.md", 2, 2, "text", "md", "h2", 4⟩,
      ⟨3, 1, "fern", "/d/b.md", 1, 1, "text", "md", "h3", 4⟩]
  embeddings := [⟨1, [0]⟩, ⟨2, [1]⟩, ⟨3, [2]⟩]
  lastProjectId := 1
  lastChunkId := 3

theorem reachable_shelf : shelf.Reachable := by
  have hname : ProjectName.ofPath "/d" = "d" := by cbv
  have h := (((Store.Reachable.opened 1).performed (.createProject "/d")).performed
    (.insertChunks 1
      [⟨"fish", "/d/a.md", 1, 1, "text", "md", "h1", 4, none⟩,
        ⟨"bird", "/d/a.md", 2, 2, "text", "md", "h2", 4, none⟩,
        ⟨"fern", "/d/b.md", 1, 1, "text", "md", "h3", 4, none⟩])).performed
    (.insertEmbeddings [1, 2, 3] [[0], [1], [2]])
  simp [Store.perform, Store.after, Store.createProject, Store.projectAt?, hname,
    Store.insertChunks, Store.insertChunksFrom, Store.hasHash, Store.hasProject, Store.row,
    Store.insertEmbeddings, Store.checkDimensions, Store.insertEmbeddingsFrom,
    Store.hasEmbedding, Store.hasChunk] at h
  exact h

/-- The second chunk is the nearest. -/
def onShelf (v : Vec) : Option Rat :=
  if v == [0] then some 1 else if v == [1] then some 0 else some 2

/-- One of the two names is of no project. -/
def shelfOptions : SearchOptions Rat where
  limit := 2
  threshold := -5
  minSimilarity := -4
  diversityFactor := 1
  contextLines := 1
  projects := ["d", "e"]

theorem filterOf_shelf :
    filterOf shelf shelfOptions = { projectIds := [1], minSimilarity := -4 } := by
  have hknown : shelf.project? "d" = some ⟨1, "d", "/d", none⟩ := by cbv
  have hunknown : shelf.project? "e" = none := by cbv
  have hfloor : Ranking.similarityFloor (-5 : Rat) (-4) = -4 := by decide +kernel
  simp [filterOf, shelfOptions, hknown, hunknown, hfloor]

theorem candidates_shelf :
    shelf.candidates onShelf { projectIds := [1], minSimilarity := -4 } =
      [⟨⟨1, 1, "fish", "/d/a.md", 1, 1, "text", "md", "h1", 4⟩, 1⟩,
        ⟨⟨2, 1, "bird", "/d/a.md", 2, 2, "text", "md", "h2", 4⟩, 0⟩,
        ⟨⟨3, 1, "fern", "/d/b.md", 1, 1, "text", "md", "h3", 4⟩, 2⟩] := by
  have hdistance : onShelf [0] = some 1 ∧ onShelf [1] = some 0 ∧ onShelf [2] = some 2 :=
    ⟨rfl, rfl, rfl⟩
  have habove : Score.lt (-4 : Rat) (Score.one - 1) = true ∧
      Score.lt (-4 : Rat) Score.one = true ∧
      Score.lt (-4 : Rat) (Score.one - 2) = true := by decide +kernel
  simp [Store.candidates, shelf, Store.chunk?, hdistance, ChunkFilter.admits, allows,
    Candidate.similarity, habove]

theorem exists_page_shelf : ∃ results, page? shelf onShelf "fish" shelfOptions = some results ∧
    results.map SearchResult.hit =
      [⟨⟨2, 1, "bird", "/d/a.md", 2, 2, "text", "md", "h2", 4⟩, 1⟩,
        ⟨⟨1, 1, "fish", "/d/a.md", 1, 1, "text", "md", "h1", 4⟩, 0⟩] := by
  have hfactor : Score.le Score.one shelfOptions.diversityFactor = true := by decide +kernel
  have hranked : Ranking.rank shelfOptions.diversityFactor shelfOptions.limit
      (shelf.nearest onShelf (filterOf shelf shelfOptions)
        (Ranking.retrievalLimit shelfOptions.limit)) =
      [⟨⟨2, 1, "bird", "/d/a.md", 2, 2, "text", "md", "h2", 4⟩, 1⟩,
        ⟨⟨1, 1, "fish", "/d/a.md", 1, 1, "text", "md", "h1", 4⟩, 0⟩] := by
    rw [nearest_eq _ (Ranking.retrievalLimit_lt _), filterOf_shelf, candidates_shelf,
      Ranking.rank, Ranking.diversify, if_pos hfactor]
    simp [List.mergeSort, List.MergeSort.Internal.splitInTwo, Candidate.precedes, Score.lt,
      Candidate.hit, Candidate.similarity, shelfOptions, Ranking.retrievalLimit, Score.one,
      Score.ofNat]
  cases hpage : page? shelf onShelf "fish" shelfOptions with
  | some results => exact ⟨results, rfl, (map_hit_page? hpage).trans hranked⟩
  | none =>
    obtain ⟨hit, hmem, hnone⟩ := resultsFrom?_eq_none_iff.mp hpage
    rw [hranked] at hmem
    rcases List.mem_pair.mp hmem with rfl | rfl <;> exact absurd hnone (by decide)

end Shelf

section Soundness

/-- A result that the options ask for, with what its embedding says of it. -/
structure SoundResult (s : Store) (distance : Vec → Option α) (o : SearchOptions α)
    (r : SearchResult α) : Prop where
  stored : r.chunk ∈ s.chunks
  embedded : ∃ e ∈ s.embeddings, e.chunkId = r.chunk.id ∧
    ∃ d, distance e.vector = some d ∧ r.similarity = Score.one - d
  above : Score.lt (Score.larger o.threshold o.minSimilarity) r.similarity = true
  passes : Passes s o r.chunk
  context : ∀ c ∈ r.context, c ∈ s.chunks ∧ c.id ≠ r.chunk.id ∧
    c.filePath = r.chunk.filePath ∧ c.projectId = r.chunk.projectId

structure SoundPage (s : Store) (distance : Vec → Option α) (o : SearchOptions α)
    (page : List (SearchResult α)) : Prop where
  length_le : page.length ≤ min o.limit 100
  ranks : page.map SearchResult.rank = List.range' 1 page.length
  distinct : (page.map fun r => r.chunk.id).Nodup
  results : ∀ r ∈ page, SoundResult s distance o r

/-- What a page keeps to if the arithmetic of the scores with `P` is lawful. -/
structure OrderedPage (P : α → Prop) (o : SearchOptions α) (page : List (SearchResult α)) :
    Prop where
  descending : page.Pairwise fun a b => Score.lt a.similarity b.similarity = false
  above : P o.threshold → P o.minSimilarity → ∀ r ∈ page,
    Score.lt o.threshold r.similarity = true ∧ Score.lt o.minSimilarity r.similarity = true

section Sound
variable {results : List (SearchResult α)} (hpage : page? s distance query o = some results)
include hpage

theorem mem_nearest_of_mem_page? {r : SearchResult α} (h : r ∈ results) :
    r.hit ∈ s.nearest distance (filterOf s o) (Ranking.retrievalLimit o.limit) := by
  have hmem := List.mem_map_of_mem (f := SearchResult.hit) h
  rw [map_hit_page? hpage] at hmem
  exact (Ranking.rank_subperm _ _ _).subset hmem

theorem exists_candidate_of_mem_page? (h : s.Keyed) {r : SearchResult α} (hr : r ∈ results) :
    ∃ c, Matches s distance o c ∧ r.chunk = c.chunk ∧ r.similarity = c.similarity := by
  obtain ⟨c, hmatches, heq⟩ :=
    matches_of_mem_nearest h (Ranking.retrievalLimit_lt _) (mem_nearest_of_mem_page? hpage hr)
  exact ⟨c, hmatches, Hit.mk.inj heq⟩

theorem soundResult_of_mem_page? (h : s.Keyed) {r : SearchResult α} (hr : r ∈ results) :
    SoundResult s distance o r := by
  obtain ⟨c, hmatches, hchunk, hsimilarity⟩ := exists_candidate_of_mem_page? hpage h hr
  obtain ⟨e, he, hid, hdistance⟩ := hmatches.embedded
  refine ⟨?_, ⟨e, he, ?_, c.distance, hdistance, hsimilarity⟩, ?_, ?_,
    context_of_mem_resultsFrom? hpage hr⟩
  · rw [hchunk]
    exact hmatches.stored
  · rw [hchunk]
    exact hid
  · rw [hsimilarity]
    exact hmatches.above
  · rw [hchunk]
    exact hmatches.passes

theorem soundPage (h : s.Consistent) : SoundPage s distance o results := by
  have hhits := map_hit_page? hpage
  have hsub := Ranking.rank_subperm o.diversityFactor o.limit
    (s.nearest distance (filterOf s o) (Ranking.retrievalLimit o.limit))
  refine ⟨?_, map_rank_resultsFrom? hpage, ?_, fun r hr =>
    soundResult_of_mem_page? hpage h.keyed hr⟩
  · have htake : results.length ≤ o.limit := by
      rw [← List.length_map (f := SearchResult.hit), hhits]
      exact List.length_take_le ..
    have hrank := hsub.length_le
    rw [← hhits, List.length_map] at hrank
    have hnearest := length_nearest_le s distance (filterOf s o)
      (Ranking.retrievalLimit_lt o.limit)
    have hbound := Ranking.retrievalLimit_le o.limit
    omega
  · have hids : results.map (fun r => r.chunk.id) =
        (results.map SearchResult.hit).map fun hit => hit.chunk.id := by
      rw [List.map_map]
      rfl
    rw [hids, hhits]
    have hnodup := nodup_nearest distance h (filterOf s o) (Ranking.retrievalLimit_lt o.limit)
    obtain ⟨hits, hperm, hsublist⟩ := hsub
    exact (hperm.map _).nodup_iff.mp (hnodup.sublist (hsublist.map _))

theorem orderedPage {P : α → Prop} (hP : Score.LawfulOn P)
    (hdistance : ∀ v d, distance v = some d → P d) (h : s.Consistent) :
    OrderedPage P o results := by
  constructor
  · obtain ⟨best, hbest, hnearest⟩ := exists_leading_nearest o hP.toOrderedOn hdistance h
      (Ranking.retrievalLimit_lt o.limit)
    have hnumbers : ∀ c ∈ best, P c.distance := fun c hc => (hbest.holds c hc).distance hdistance
    have horder : (best.map Candidate.hit).Pairwise
        fun a b => Score.lt a.similarity b.similarity = false := by
      apply List.pairwise_map.mpr
      apply hbest.inOrder.imp_of_mem
      intro a b ha hb hbefore
      exact hbefore.similarity hP (hnumbers a ha) (hnumbers b hb)
    have hsimilarities : ∀ hit ∈ best.map Candidate.hit, P hit.similarity := by
      intro hit hhit
      obtain ⟨c, hc, rfl⟩ := List.mem_map.mp hhit
      exact hP.one_sub (hnumbers c hc)
    have hranked := (Ranking.diversify_pairwise o.diversityFactor hP hsimilarities horder).sublist
      (List.take_sublist o.limit _)
    rw [← hnearest] at hranked
    change (Ranking.rank _ _ _).Pairwise _ at hranked
    rw [← map_hit_page? hpage] at hranked
    exact List.pairwise_map.mp hranked
  · intro hthreshold hmin r hr
    obtain ⟨c, hmatches, -, hsimilarity⟩ := exists_candidate_of_mem_page? hpage h.keyed hr
    rw [hsimilarity]
    exact hP.lt_of_larger_lt hthreshold hmin (hP.one_sub (hmatches.distance hdistance))
      hmatches.above

end Sound

/-- Every search that succeeds shows a page that is sound and in order under the cosine distances.
Under every distance a page is sound; where the arithmetic of the distances is lawful it is in order
as well. -/
theorem page_sound (h : s.Reachable) :
    (∀ client query (o : SearchOptions Float) results,
      run? s client query o = some (.ok results) →
        ∃ vector, client.embedQuery (Query.sanitize query) = .ok vector ∧
          page? s (cosineDistance vector) query o = some results ∧
          SoundPage s (cosineDistance vector) o results ∧ OrderedPage IsNumber o results) ∧
    ∀ {α : Type} [Score α] (distance : Vec → Option α) query (o : SearchOptions α) results,
      page? s distance query o = some results →
        SoundPage s distance o results ∧
          ∀ P, Score.LawfulOn P → (∀ v d, distance v = some d → P d) →
            OrderedPage P o results := by
  constructor
  · intro client query o results hrun
    obtain ⟨vector, hvector, hpage⟩ := run?_ok hrun
    refine ⟨vector, hvector, hpage, soundPage hpage h.consistent, ?_⟩
    exact orderedPage hpage lawfulOn_numbers (fun _ _ => cosineDistance_number) h.consistent
  · intro α _ distance query o results hpage
    exact ⟨soundPage hpage h.consistent,
      fun P hP hdistance => orderedPage hpage hP hdistance h.consistent⟩

theorem shelf_page_sound : shelf.Reachable ∧
    ∃ results, page? shelf onShelf "fish" shelfOptions = some results ∧
      (results.map fun r => r.chunk.id) = [2, 1] ∧ SoundPage shelf onShelf shelfOptions results ∧
      OrderedPage (fun _ => True) shelfOptions results := by
  obtain ⟨results, hpage, hhits⟩ := exists_page_shelf
  obtain ⟨hsound, hordered⟩ := (page_sound reachable_shelf).2 onShelf "fish" shelfOptions _ hpage
  refine ⟨reachable_shelf, results, hpage, ?_, hsound,
    hordered _ Score.lawfulOn_rat fun _ _ _ => trivial⟩
  have hids := congrArg (List.map fun hit => hit.chunk.id) hhits
  rwa [List.map_map] at hids

end Soundness

section Completeness

theorem take_retrievalLimit {β : Type} {limit : Nat} (hlimit : limit ≤ 100) (items : List β) :
    (items.take (Ranking.retrievalLimit limit)).take limit = items.take limit := by
  rw [List.take_take, Nat.min_eq_left]
  simp only [Ranking.retrievalLimit]
  omega

/-- A page is made from the first candidates that match and from no others. Without a penalty it is
the first of them, as many as were asked for. -/
structure CompletePage (s : Store) (distance : Vec → Option α) (o : SearchOptions α)
    (page : List (SearchResult α)) : Prop where
  window : ∃ best, Leading (Matches s distance o) (min (3 * o.limit) 100) best ∧
    page.map SearchResult.hit =
      (Ranking.diversify o.diversityFactor (best.map Candidate.hit)).take o.limit
  leading : Score.le Score.one o.diversityFactor = true → o.limit ≤ 100 →
    ∃ top, Leading (Matches s distance o) o.limit top ∧
      page.map SearchResult.hit = top.map Candidate.hit ∧
      ∀ c, Matches s distance o c → c ∉ top →
        ∀ b ∈ top, Score.lt c.distance b.distance = false

theorem completePage {P : α → Prop} (hP : Score.OrderedOn P)
    (hdistance : ∀ v d, distance v = some d → P d) (h : s.Consistent)
    {results : List (SearchResult α)} (hpage : page? s distance query o = some results) :
    CompletePage s distance o results := by
  have hretrieval : Ranking.retrievalLimit o.limit = min (3 * o.limit) 100 := by
    rw [Ranking.retrievalLimit, Nat.mul_comm]
  constructor
  · obtain ⟨best, hbest, hnearest⟩ := exists_leading_nearest o hP hdistance h
      (Ranking.retrievalLimit_lt o.limit)
    rw [hretrieval] at hbest
    refine ⟨best, hbest, ?_⟩
    rw [map_hit_page? hpage, Ranking.rank, hnearest]
  · intro hfactor hlimit
    have hrows : o.limit < Nat.pow 2 63 := Nat.lt_of_le_of_lt hlimit (by decide)
    obtain ⟨top, htop, hnearest⟩ := exists_leading_nearest o hP hdistance h hrows
    refine ⟨top, htop, ?_, ?_⟩
    · rw [map_hit_page? hpage, Ranking.rank, Ranking.diversify, if_pos hfactor, ← hnearest,
        nearest_eq _ (Ranking.retrievalLimit_lt _), nearest_eq _ hrows, ← List.map_take,
        take_retrievalLimit hlimit]
    · intro c hc hout b hb
      exact (htop.ahead c hc hout b hb).not_nearer hP ((htop.holds b hb).distance hdistance)
        (hc.distance hdistance)

/-- The page of a search that succeeds is complete in the order of the cosine distances, which are
numbers. It is so under every distance whose values keep to an order. -/
theorem page_complete (h : s.Reachable) :
    (∀ client query (o : SearchOptions Float) results,
      run? s client query o = some (.ok results) →
        ∃ vector, client.embedQuery (Query.sanitize query) = .ok vector ∧
          CompletePage s (cosineDistance vector) o results) ∧
    ∀ {α : Type} [Score α] (P : α → Prop) (distance : Vec → Option α) query
      (o : SearchOptions α) results, Score.OrderedOn P → (∀ v d, distance v = some d → P d) →
        page? s distance query o = some results → CompletePage s distance o results := by
  constructor
  · intro client query o results hrun
    obtain ⟨vector, hvector, hpage⟩ := run?_ok hrun
    exact ⟨vector, hvector, completePage lawfulOn_numbers.toOrderedOn
      (fun _ _ => cosineDistance_number) h.consistent hpage⟩
  · intro α _ P distance query o results hP hdistance hpage
    exact completePage hP hdistance h.consistent hpage

def shelfClient : EmbeddingClient :=
  { provider := { dimensions := 1, answer := fun texts => .vectors (texts.map fun _ => [1]) } }

def plainOptions : SearchOptions Float where
  limit := 2
  threshold := 0
  minSimilarity := 0
  diversityFactor := 1
  contextLines := 0

theorem exists_run_shelf :
    ∃ results, run? shelf shelfClient "fish" plainOptions = some (.ok results) := by
  have hquery : shelfClient.embedQuery (Query.sanitize "fish") = .ok [1] := by
    simp [EmbeddingClient.embedQuery, EmbeddingClient.embedTexts, EmbeddingClient.requests,
      groupsOf, shelfClient, EmbeddingClient.combine, EmbeddingClient.hasCrash,
      EmbeddingClient.collect]
  obtain ⟨results, hpage⟩ : ∃ results,
      page? shelf (cosineDistance [1]) "fish" plainOptions = some results := exists_page? rfl
  have hcompared : shelf.compared (filterOf shelf plainOptions) = [[0], [1], [2]] := by
    simp [Store.compared, ChunkFilter.isEarly, filterOf, plainOptions, shelf, Store.chunk?]
  have hsimilar : shelf.similar [1] (filterOf shelf plainOptions)
      (Ranking.retrievalLimit plainOptions.limit) =
        .ok (shelf.nearest (cosineDistance [1]) (filterOf shelf plainOptions)
          (Ranking.retrievalLimit plainOptions.limit)) := by
    have hwidth : shelf.checkDimensions [1] = .ok () := rfl
    have hlimit : Ranking.retrievalLimit plainOptions.limit ≠ 0 := by decide
    simp [Store.similar, hwidth, hlimit, hcompared, compareFault?]
  have hpage' : pageOf? shelf "fish" plainOptions (shelf.nearest (cosineDistance [1])
      (filterOf shelf plainOptions) (Ranking.retrievalLimit plainOptions.limit)) =
        some results := hpage
  refine ⟨results, ?_⟩
  simp only [run?, hquery, hsimilar, hpage', Option.map_some]

/-- On doubles a search of the shelf shows as many of the best as there are up to two, and under the
distances of the shelf these are the second chunk and the first. -/
theorem shelf_page_complete :
    Score.le Score.one plainOptions.diversityFactor = true ∧
    (∃ results, run? shelf shelfClient "fish" plainOptions = some (.ok results) ∧
      ∃ vector top, Leading (Matches shelf (cosineDistance vector) plainOptions) 2 top ∧
        results.map SearchResult.hit = top.map Candidate.hit) ∧
    ∃ top, Leading (Matches shelf onShelf shelfOptions) 2 top ∧
      top.map Candidate.hit =
        [⟨⟨2, 1, "bird", "/d/a.md", 2, 2, "text", "md", "h2", 4⟩, 1⟩,
          ⟨⟨1, 1, "fish", "/d/a.md", 1, 1, "text", "md", "h1", 4⟩, 0⟩] ∧
      ∀ c, Matches shelf onShelf shelfOptions c → c ∉ top →
        ∀ b ∈ top, Score.lt c.distance b.distance = false := by
  have hplain : Score.le Score.one plainOptions.diversityFactor = true := by decide +kernel
  have hfactor : Score.le Score.one shelfOptions.diversityFactor = true := by decide +kernel
  obtain ⟨hsearches, hpages⟩ := page_complete reachable_shelf
  refine ⟨hplain, ?_, ?_⟩
  · obtain ⟨results, hrun⟩ := exists_run_shelf
    obtain ⟨vector, -, hcomplete⟩ := hsearches shelfClient "fish" plainOptions results hrun
    obtain ⟨top, htop, hhits, -⟩ := hcomplete.leading hplain (by decide)
    exact ⟨results, hrun, vector, top, htop, hhits⟩
  · obtain ⟨results, hpage, hhits⟩ := exists_page_shelf
    have hcomplete := hpages (fun _ => True) onShelf "fish" shelfOptions results
      Score.lawfulOn_rat.toOrderedOn (fun _ _ _ => trivial) hpage
    obtain ⟨top, htop, htops, hahead⟩ := hcomplete.leading hfactor (by decide)
    exact ⟨top, htop, htops.symm.trans hhits, hahead⟩

end Completeness

end Search

end CodeSearch
