import CodeSearch.Proofs.Outline.Parts
import CodeSearch.Proofs.Words

/-!
# From parts to excerpts

The spans of a tree are bundled, cut back to where the one before ends, trimmed and joined. Each
excerpt that results is the extraction of one span, and that span was either cut back from a single
span or measured when it was merged. It follows for every tree, with whatever rows and bytes, that
excerpts stand in order without overlap, and that only a single node makes one over the limit.
-/

set_option autoImplicit false

namespace CodeSearch

namespace ParseTree
variable {source : List Char} {maxSize : Nat} {root : ParseTree}

/-- The parts of a whole tree; a root without children stands for itself unless it is blank. -/
def rootParts (source : List Char) (maxSize : Nat) (root : ParseTree) : List ParseTree :=
  if root.children = [] ∧ Text.isBlank (root.text source) = false then [root]
  else root.parts source maxSize

theorem rootParts_sublist_nodes : (root.rootParts source maxSize).Sublist root.nodes := by
  unfold rootParts
  split
  · exact List.singleton_sublist.mpr root.self_mem_nodes
  · exact root.parts_sublist_nodes

theorem small_or_leaf_of_mem_rootParts {u : ParseTree} (h : u ∈ root.rootParts source maxSize) :
    (u.text source).length ≤ maxSize ∨ u.children = [] := by
  unfold rootParts at h
  split at h
  · rename_i hleaf
    exact Or.inr (List.mem_singleton.mp h ▸ hleaf.1)
  · exact small_or_leaf_of_mem_parts h

end ParseTree

namespace Outline

section Clamping
variable {spans : List Span} {c : Span}

theorem lt_first_of_mem_clampFrom {row : Nat} (h : c ∈ clampFrom (some row) spans) :
    row < c.first := by
  induction spans generalizing row with
  | nil => simp [clampFrom] at h
  | cons s rest ih =>
    simp only [clampFrom] at h
    split at h
    · exact ih h
    · rename_i hlast
      rcases List.mem_cons.mp h with rfl | h
      · exact Nat.lt_of_succ_le (Nat.le_max_right _ _)
      · have := ih h
        omega

theorem clampFrom_pairwise (covered : Option Nat) (spans : List Span) :
    (clampFrom covered spans).Pairwise fun a b => a.last < b.first := by
  induction spans generalizing covered with
  | nil => exact .nil
  | cons s rest ih =>
    cases covered with
    | none => exact .cons (fun _ hb => lt_first_of_mem_clampFrom hb) (ih _)
    | some row =>
      simp only [clampFrom]
      split
      · exact ih _
      · exact .cons (fun _ hb => lt_first_of_mem_clampFrom hb) (ih _)

theorem exists_of_mem_clampFrom {covered : Option Nat} (hspans : ∀ s ∈ spans, s.first ≤ s.last)
    (h : c ∈ clampFrom covered spans) :
    ∃ s ∈ spans, s.first ≤ c.first ∧ c.first ≤ c.last ∧ c = { s with first := c.first } := by
  induction spans generalizing covered with
  | nil => simp [clampFrom] at h
  | cons s rest ih =>
    obtain ⟨hs, hrest⟩ := List.forall_mem_cons.mp hspans
    have hlater : ∀ covered', c ∈ clampFrom covered' rest → ∃ s' ∈ s :: rest,
        s'.first ≤ c.first ∧ c.first ≤ c.last ∧ c = { s' with first := c.first } := by
      intro covered' h
      obtain ⟨s', hs', hc⟩ := ih hrest h
      exact ⟨s', List.mem_cons_of_mem s hs', hc⟩
    cases covered with
    | none =>
      rcases List.mem_cons.mp h with rfl | h
      · exact ⟨c, List.mem_cons_self, Nat.le_refl _, hs, rfl⟩
      · exact hlater _ h
    | some row =>
      simp only [clampFrom] at h
      split at h
      · exact hlater _ h
      · rename_i hlast
        rcases List.mem_cons.mp h with rfl | h
        · exact ⟨s, List.mem_cons_self, Nat.le_max_left _ _,
            Nat.max_le.mpr ⟨hs, Nat.lt_of_not_le hlast⟩, rfl⟩
        · exact hlater _ h

end Clamping

section Coalescing

theorem keep_eq_filter (e : Excerpt) : keep e = [e].filter fun e => !Text.isBlank e.text := by
  unfold keep
  split <;> simp_all

/-- Joining merges consecutive groups of spans, and drops what is blank. -/
theorem coalesceFrom_grouped (text : List Char) (limits : ChunkLimits) {rest : List Span} :
    ∀ s run, (∀ t ∈ s :: (run ++ rest), t.first ≤ t.last) →
      (s :: (run ++ rest)).Pairwise (fun a b => a.last < b.first) →
      (run = [] ∨ Fits text limits.maxSize (s.mergeAll run)) →
      ∃ merged, Span.Grouped (Fits text limits.maxSize) (s :: (run ++ rest)) merged ∧
        coalesceFrom (.ofText text) limits ((s.mergeAll run).extract (Source.ofText text).lines)
            rest =
          (merged.map (Span.extract (Source.ofText text).lines)).filter
            fun e => !Text.isBlank e.text := by
  induction rest with
  | nil =>
    intro s run _ _ hfits
    refine ⟨[s.mergeAll run], by simpa using Span.Grouped.single hfits, ?_⟩
    rw [coalesceFrom, keep_eq_filter]
    rfl
  | cons next rest ih =>
    intro s run hproper hpairwise hfits
    have hassoc : run ++ next :: rest = run ++ [next] ++ rest := by simp
    -- The current excerpt is trimmed, but merging it is merging the span it was trimmed from.
    have hs := hproper s List.mem_cons_self
    have hcovers := Span.mergeAll_covers s run s List.mem_cons_self
    have hbefore : (s.mergeAll run).last < next.first := by
      obtain ⟨t, ht, hlast⟩ := Span.picked_last s run
      rw [← List.cons_append, List.pairwise_append] at hpairwise
      rw [hlast]
      exact hpairwise.2.2 t ht next List.mem_cons_self
    have hnext : next.first ≤ next.last := hproper next (by simp)
    have htrim := Span.extract_merge_extract (Source.ofText text).lines
      (s := s.mergeAll run) (by omega) hbefore hnext
    have hmeasure := extractedLength_le_iff text limits.maxSize
      (s := ((s.mergeAll run).extract (Source.ofText text).lines).span.merge next)
      (by
        have hle := Span.extract_first_le_last (Source.ofText text).lines
          (s := s.mergeAll run) (by omega)
        simp only [Span.merge]
        omega)
    rw [Fits, htrim, ← Span.mergeAll_concat] at hmeasure
    rw [coalesceFrom]
    split
    · rename_i hjoin
      rw [htrim, ← Span.mergeAll_concat, hassoc]
      rw [hassoc] at hproper hpairwise
      exact ih s (run ++ [next]) hproper hpairwise (Or.inr (hmeasure.mp hjoin.2))
    · obtain ⟨merged, hgrouped, heq⟩ := ih next []
        (fun t ht => hproper t (List.mem_cons_of_mem _ (List.mem_append_right _ ht)))
        (hpairwise.sublist (.cons _ (List.sublist_append_right _ _))) (Or.inl rfl)
      refine ⟨s.mergeAll run :: merged, .cons hfits hgrouped, ?_⟩
      rw [Span.mergeAll_nil] at heq
      rw [heq, keep_eq_filter, ← List.filter_append]
      rfl

theorem coalesce_grouped (text : List Char) (limits : ChunkLimits) {spans : List Span}
    (hproper : ∀ s ∈ spans, s.first ≤ s.last)
    (hpairwise : spans.Pairwise fun a b => a.last < b.first) :
    ∃ merged, Span.Grouped (Fits text limits.maxSize) spans merged ∧
      coalesce (.ofText text) limits spans =
        (merged.map (Span.extract (Source.ofText text).lines)).filter
          fun e => !Text.isBlank e.text := by
  cases spans with
  | nil => exact ⟨[], .nil, rfl⟩
  | cons s rest => exact coalesceFrom_grouped text limits s [] hproper hpairwise (Or.inl rfl)

end Coalescing

section Excerpts
variable (text : List Char) (limits : ChunkLimits) (root : ParseTree)

theorem rawSpans_grouped :
    Span.Grouped (Fits text limits.maxSize)
      ((root.rootParts text limits.maxSize).map ParseTree.span)
      (rawSpans (.ofText text) limits root) := by
  have hnil := bundle_eq_nil_iff text limits.maxSize root
  unfold ParseTree.rootParts rawSpans
  by_cases hleaf : root.children = []
  · have hparts : root.parts text limits.maxSize = [] := root.parts_eq_nil_iff.mpr hleaf
    by_cases hblank : Text.isBlank (root.text text) = true
    · simp [hleaf, hnil.mpr hleaf, hblank, hparts, Span.Grouped.nil]
    · simpa [hleaf, hnil.mpr hleaf, hblank] using Span.Grouped.single (Or.inl rfl)
  · simpa [hleaf, hnil] using bundle_grouped text limits.maxSize root

theorem rawSpans_first_le_last : ∀ s ∈ rawSpans (.ofText text) limits root, s.first ≤ s.last := by
  apply (rawSpans_grouped text limits root).first_le_last
  intro s hs
  obtain ⟨u, _, rfl⟩ := List.mem_map.mp hs
  exact u.span_first_le_last

theorem clamp_first_le_last :
    ∀ s ∈ clamp (rawSpans (.ofText text) limits root), s.first ≤ s.last := by
  intro s hs
  obtain ⟨_, _, _, hle, _⟩ := exists_of_mem_clampFrom (rawSpans_first_le_last text limits root) hs
  exact hle

theorem excerpts_grouped :
    ∃ merged, Span.Grouped (Fits text limits.maxSize)
        (clamp (rawSpans (.ofText text) limits root)) merged ∧
      excerpts (.ofText text) limits root =
        (merged.map (Span.extract (Source.ofText text).lines)).filter
          fun e => !Text.isBlank e.text :=
  coalesce_grouped text limits (clamp_first_le_last text limits root)
    (clampFrom_pairwise none _)

/-- What an excerpt is extracted from: a span that ends with one of the parts, and that was merged
within the limit or is a part cut back to the rows from some row on. -/
theorem exists_of_mem_excerpts {e : Excerpt} (h : e ∈ excerpts (.ofText text) limits root) :
    ∃ m : Span, e = m.extract (Source.ofText text).lines ∧ m.first ≤ m.last ∧
      Text.isBlank e.text = false ∧
      (∃ u ∈ root.rootParts text limits.maxSize, m.last = u.span.last) ∧
      (e.text.length ≤ limits.maxSize ∨ ∃ u ∈ root.rootParts text limits.maxSize,
        u.span.first ≤ m.first ∧ m = { u.span with first := m.first }) := by
  have hraw := rawSpans_grouped text limits root
  have hproper := rawSpans_first_le_last text limits root
  obtain ⟨merged, hgrouped, heq⟩ := excerpts_grouped text limits root
  rw [heq] at h
  obtain ⟨hmem, hblank⟩ := List.mem_filter.mp h
  obtain ⟨m, hm, rfl⟩ := List.mem_map.mp hmem
  have htext : Text.isBlank (m.extract (Source.ofText text).lines).text = false := by
    simpa using hblank
  refine ⟨m, rfl, hgrouped.first_le_last (clamp_first_le_last text limits root) m hm, htext,
    ?_, ?_⟩
  · obtain ⟨c, hc, hlast⟩ := hgrouped.exists_key Span.picked_last hm
    obtain ⟨s, hs, _, _, hcs⟩ := exists_of_mem_clampFrom hproper hc
    obtain ⟨x, hx, hlast'⟩ := hraw.exists_key Span.picked_last hs
    obtain ⟨u, hu, rfl⟩ := List.mem_map.mp hx
    refine ⟨u, hu, ?_⟩
    rw [hlast, hcs, ← hlast']
  · rcases hgrouped.mem_or_fits hm with hc | hfits
    · obtain ⟨s, hs, hfirst, hle, hms⟩ := exists_of_mem_clampFrom hproper hc
      rcases hraw.mem_or_fits hs with hpart | hfits
      · obtain ⟨u, hu, rfl⟩ := List.mem_map.mp hpart
        exact Or.inr ⟨u, hu, hfirst, hms⟩
      · -- What is left of a measured span is no longer than the whole.
        have hlast : m.last = s.last := by rw [hms]
        exact Or.inl (Nat.le_trans (Span.length_extract_le hle hfirst (Nat.le_of_eq hlast) htext)
          hfits)
    · exact Or.inl hfits

theorem excerpts_pairwise :
    (excerpts (.ofText text) limits root).Pairwise fun a b => a.span.last < b.span.first := by
  obtain ⟨merged, hgrouped, heq⟩ := excerpts_grouped text limits root
  have hmerged : merged.Pairwise fun a b => a.last < b.first :=
    hgrouped.pairwise Span.picked_last Span.picked_first (clampFrom_pairwise none _)
  rw [heq]
  apply List.Pairwise.filter
  rw [List.pairwise_map]
  apply hmerged.imp
  intro a b hab
  have hlast := Span.extract_last_le (Source.ofText text).lines a
  have hfirst := Span.first_le_extract (Source.ofText text).lines b
  omega

/-- Only merges that fit are made, in bundling and in joining. So an excerpt over the limit is what
is left of one node, which has no children or whose own text is within the limit. -/
theorem excerpts_within_limit :
    (Span.Grouped (Fits text limits.maxSize)
        ((root.rootParts text limits.maxSize).map ParseTree.span)
        (rawSpans (.ofText text) limits root) ∧
      ∃ merged, Span.Grouped (Fits text limits.maxSize)
          (clamp (rawSpans (.ofText text) limits root)) merged ∧
        excerpts (.ofText text) limits root =
          (merged.map (Span.extract (Source.ofText text).lines)).filter
            fun e => !Text.isBlank e.text) ∧
    ∀ e ∈ excerpts (.ofText text) limits root,
      e.text.length ≤ limits.maxSize ∨
      ∃ t ∈ root.nodes, (t.children = [] ∨ (t.text text).length ≤ limits.maxSize) ∧
        t.span.first ≤ e.span.first ∧ e.span.last ≤ t.span.last ∧
        ∃ first, e = Span.extract (Source.ofText text).lines { t.span with first } := by
  refine ⟨⟨rawSpans_grouped text limits root, excerpts_grouped text limits root⟩, ?_⟩
  intro e he
  obtain ⟨m, rfl, _, _, _, hsource⟩ := exists_of_mem_excerpts text limits root he
  rcases hsource with hsize | ⟨u, hu, hfirst, hm⟩
  · exact Or.inl hsize
  · have hlast : m.last = u.span.last := by rw [hm]
    refine Or.inr ⟨u, ParseTree.rootParts_sublist_nodes.subset hu,
      (ParseTree.small_or_leaf_of_mem_rootParts hu).symm, ?_, ?_, m.first, by rw [← hm]⟩
    · exact Nat.le_trans hfirst (Span.first_le_extract _ m)
    · exact Nat.le_trans (Span.extract_last_le _ m) (Nat.le_of_eq hlast)

end Excerpts

section Chunks

/-- Whether a line, counted from one, exists and is not blank. -/
def LineHasInk (text : List Char) (line : Nat) : Prop :=
  ∃ l, (Text.splitLines text)[line - 1]? = some l ∧ Text.isBlank l = false

/-- Chunks that follow one another in a text, none of them blank. -/
structure Placed (text : List Char) (cs : List Chunk) : Prop where
  lines : ∀ c ∈ cs, 1 ≤ c.startLine ∧ c.startLine ≤ c.endLine
  ordered : cs.Pairwise fun a b => a.endLine < b.startLine
  content : ∀ c ∈ cs, Text.isBlank c.content.toList = false
  ends : ∀ c ∈ cs, c.endLine ≤ (Text.splitLines text).length →
    LineHasInk text c.startLine ∧ LineHasInk text c.endLine

theorem lineHasInk_of_blankRow {text : List Char} {row : Nat}
    (hrow : row < (Text.splitLines text).length)
    (h : blankRow (Source.ofText text).lines row = false) : LineHasInk text (row + 1) := by
  refine ⟨(Text.splitLines text)[row], by simp [hrow], ?_⟩
  simpa [blankRow, Source.ofText, hrow] using h

section Placement
variable (text : List Char) (limits : ChunkLimits) (filePath : String) (language : Language)
  (root : ParseTree)

/-- The chunk of an excerpt, whatever its rows. -/
def chunkOf (e : Excerpt) : Chunk :=
  chunkOn (e.span.first + 1) (e.span.last + 1) filePath language e

theorem chunk?_eq_some {e : Excerpt} {c : Chunk} (h : chunk? filePath language e = some c) :
    c = chunkOf filePath language e := by
  simp only [chunk?, Option.bind_eq_bind, Option.bind_eq_some_iff, Word.plus?_eq_some_iff,
    Option.pure_def, Option.some.injEq] at h
  obtain ⟨first, ⟨rfl, _⟩, last, ⟨rfl, _⟩, rfl⟩ := h
  rfl

theorem chunk?_eq_none_iff {e : Excerpt} (h : e.span.first ≤ e.span.last) :
    chunk? filePath language e = none ↔ Word.size ≤ e.span.last + 1 := by
  simp only [chunk?, Option.bind_eq_bind, Option.pure_def]
  cases hlast : Word.plus? e.span.last 1 with
  | none =>
    rw [Word.plus?_eq_none_iff] at hlast
    cases Word.plus? e.span.first 1 <;> simpa using hlast
  | some last =>
    rw [Word.plus?_eq_some_iff] at hlast
    have hfirst : Word.plus? e.span.first 1 = some (e.span.first + 1) :=
      Word.plus?_eq_some_iff.mpr ⟨rfl, by omega⟩
    simpa [hfirst] using hlast.2

theorem chunks?_eq_some {cs : List Chunk}
    (h : chunks? (.ofText text) limits filePath language root = some cs) :
    cs = (excerpts (.ofText text) limits root).map (chunkOf filePath language) :=
  eq_map_of_mapM (fun _ _ hc => chunk?_eq_some filePath language hc) h

theorem rows_of_mem_excerpts {e : Excerpt} (h : e ∈ excerpts (.ofText text) limits root) :
    e.span.first ≤ e.span.last ∧ ∃ t ∈ root.nodes, e.span.last ≤ t.span.last := by
  obtain ⟨m, rfl, hm, _, ⟨u, hu, hlast⟩, _⟩ := exists_of_mem_excerpts text limits root h
  have hle := Span.extract_last_le (Source.ofText text).lines m
  exact ⟨Span.extract_first_le_last _ hm, u, ParseTree.rootParts_sublist_nodes.subset hu,
    hlast ▸ hle⟩

/-- There is no result where the line of the last row of an excerpt does not fit into a word. -/
theorem chunks?_eq_none_iff :
    chunks? (.ofText text) limits filePath language root = none ↔
      ∃ e ∈ excerpts (.ofText text) limits root, Word.size ≤ e.span.last + 1 := by
  rw [chunks?, mapM_eq_none_iff]
  apply exists_congr
  intro e
  apply and_congr_right
  intro he
  exact chunk?_eq_none_iff filePath language (rows_of_mem_excerpts text limits root he).1

theorem placed_chunks {cs : List Chunk}
    (h : chunks? (.ofText text) limits filePath language root = some cs) : Placed text cs := by
  obtain rfl := chunks?_eq_some text limits filePath language root h
  refine ⟨?_, ?_, ?_, ?_⟩
  · intro c hc
    obtain ⟨e, he, rfl⟩ := List.mem_map.mp hc
    have hle := (rows_of_mem_excerpts text limits root he).1
    exact ⟨Nat.le_add_left 1 _, Nat.succ_le_succ hle⟩
  · rw [List.pairwise_map]
    exact (excerpts_pairwise text limits root).imp fun h => Nat.succ_lt_succ h
  · intro c hc
    obtain ⟨e, he, rfl⟩ := List.mem_map.mp hc
    obtain ⟨m, rfl, _, hink, _⟩ := exists_of_mem_excerpts text limits root he
    simpa [chunkOf, chunkOn] using hink
  · intro c hc hend
    obtain ⟨e, he, rfl⟩ := List.mem_map.mp hc
    obtain ⟨m, rfl, hm, hink, _⟩ := exists_of_mem_excerpts text limits root he
    have hle := Span.extract_first_le_last (Source.ofText text).lines hm
    have ⟨hfirst, hlast⟩ := Span.blankRow_ends hm hink
    simp only [chunkOf, chunkOn] at hend ⊢
    exact ⟨lineHasInk_of_blankRow (by omega) hfirst, lineHasInk_of_blankRow (by omega) hlast⟩

/-- Whatever the rows and bytes of a tree, its chunks stand in order and trimmed, and none reaches
past the last row of all nodes. They are all returned, unless the line of the last row of some
excerpt does not fit into a word; where the lines of all nodes fit, that cannot be. -/
theorem chunks_placed :
    (∀ cs, chunks? (.ofText text) limits filePath language root = some cs →
      Placed text cs ∧ ∀ c ∈ cs, ∃ t ∈ root.nodes, c.endLine ≤ t.span.last + 1) ∧
    (chunks? (.ofText text) limits filePath language root = none ↔
      ∃ e ∈ excerpts (.ofText text) limits root, Word.size ≤ e.span.last + 1) ∧
    ((∀ t ∈ root.nodes, t.span.last + 1 < Word.size) →
      ∃ cs, chunks? (.ofText text) limits filePath language root = some cs) := by
  refine ⟨?_, chunks?_eq_none_iff text limits filePath language root, ?_⟩
  · intro cs h
    refine ⟨placed_chunks text limits filePath language root h, ?_⟩
    obtain rfl := chunks?_eq_some text limits filePath language root h
    intro c hc
    obtain ⟨e, he, rfl⟩ := List.mem_map.mp hc
    obtain ⟨-, t, ht, hlast⟩ := rows_of_mem_excerpts text limits root he
    exact ⟨t, ht, Nat.succ_le_succ hlast⟩
  · intro hrows
    rw [← Option.ne_none_iff_exists', ne_eq, chunks?_eq_none_iff]
    rintro ⟨e, he, hsize⟩
    obtain ⟨-, t, ht, hlast⟩ := rows_of_mem_excerpts text limits root he
    have := hrows t ht
    omega

/-- A node that ends on the last row a word can hold leaves its tree without a result. -/
example : chunks? (.ofText ['x']) {} "a.rs" .rust
    (.node "file" 0 1 0 0 [.node "line" 0 1 0 18446744073709551615 []]) = none := by
  decide +kernel

end Placement

end Chunks

end Outline

end CodeSearch
