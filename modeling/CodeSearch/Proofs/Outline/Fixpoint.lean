import CodeSearch.Proofs.Outline.Excerpts

/-!
# Joining comes to rest

An excerpt with little ink was left alone only because the span behind it did not fit with it. The
excerpts behind it reach at least as far as that span, so it fits with none of them, and joining the
spans of the excerpts once more gives the same excerpts.
-/

set_option autoImplicit false

namespace CodeSearch

namespace Span
variable {lines : Array (List Char)}

/-- A merge that reaches further is no shorter, trimmed as its spans may be. -/
theorem length_extract_merge_le {a next s : Span} (ha : a.first ≤ a.last)
    (hink : Text.isBlank (a.extract lines).text = false) (hnext : a.last < next.first)
    (hle : next.first ≤ next.last) (hfirst : next.first ≤ s.first) (hs : s.first ≤ s.last)
    (hlast : next.last ≤ s.last) :
    (((a.extract lines).span.merge next).extract lines).text.length ≤
      (((a.extract lines).span.merge (s.extract lines).span).extract lines).text.length := by
  have hstart := first_le_extract lines a
  have hproper := extract_first_le_last lines ha
  have hend := extract_last_le lines a
  rw [extract_merge_extract_right (blankRow_ends ha hink).1 hproper (by omega) hs]
  -- The shorter merge is a part of the longer one, and it has the ink of `a`.
  apply length_extract_le
  · simp only [merge]
    omega
  · simp only [merge]
    omega
  · simp only [merge]
    omega
  · apply Bool.eq_false_iff.mpr
    intro hblank
    apply Bool.eq_false_iff.mp hink
    rw [extract_text, isBlank_rowsText]
    intro row hrow hrow' hsize
    apply (isBlank_extract _).mp hblank row _ _ hsize
    · simp only [merge]
      omega
    · simp only [merge]
      omega

end Span

namespace Outline

/-- If the first has too little ink, it is because the second does not fit with it. -/
def Apart (text : List Char) (limits : ChunkLimits) (a b : Excerpt) : Prop :=
  Text.inkCount a.text < limits.minInk →
    limits.maxSize < (Source.ofText text).index.extractedLength (a.span.merge b.span)

section Coalescing
variable {text : List Char} {limits : ChunkLimits} {m : Span} {rest : List Span}

/-- The excerpts that come of a span and those behind it end no earlier than that span. -/
theorem exists_of_mem_coalesceFrom {e : Excerpt} (hproper : ∀ t ∈ m :: rest, t.first ≤ t.last)
    (hpairwise : (m :: rest).Pairwise fun a b => a.last < b.first)
    (h : e ∈ coalesceFrom (.ofText text) limits (m.extract (Source.ofText text).lines) rest) :
    ∃ s : Span, e = s.extract (Source.ofText text).lines ∧ m.first ≤ s.first ∧
      s.first ≤ s.last ∧ m.last ≤ s.last := by
  obtain ⟨merged, hgrouped, heq⟩ :=
    coalesceFrom_grouped text limits m [] hproper hpairwise (Or.inl rfl)
  rw [Span.mergeAll_nil] at heq
  rw [heq] at h
  obtain ⟨s, hs, rfl⟩ := List.mem_map.mp (List.mem_filter.mp h).1
  have hbehind : ∀ t ∈ m :: rest, m.first ≤ t.first ∧ m.last ≤ t.last := by
    intro t ht
    have hm := hproper m List.mem_cons_self
    have htle := hproper t ht
    rcases List.mem_cons.mp ht with rfl | ht
    · exact ⟨Nat.le_refl _, Nat.le_refl _⟩
    · have hlt := (List.pairwise_cons.mp hpairwise).1 t ht
      omega
  obtain ⟨a, ha, hfirst⟩ := hgrouped.exists_key Span.picked_first hs
  obtain ⟨b, hb, hlast⟩ := hgrouped.exists_key Span.picked_last hs
  refine ⟨s, rfl, ?_, hgrouped.first_le_last hproper s hs, ?_⟩
  · rw [hfirst]
    exact (hbehind a ha).1
  · rw [hlast]
    exact (hbehind b hb).2

/-- A span that did not fit with an excerpt keeps it apart from all excerpts that come of it. -/
theorem apart_of_mem_coalesceFrom {a : Span} {next : Span} {e : Excerpt}
    (hproper : ∀ t ∈ a :: next :: rest, t.first ≤ t.last)
    (hpairwise : (a :: next :: rest).Pairwise fun a b => a.last < b.first)
    (hink : Text.isBlank (a.extract (Source.ofText text).lines).text = false)
    (hlarge : limits.maxSize < (Source.ofText text).index.extractedLength
      ((a.extract (Source.ofText text).lines).span.merge next))
    (h : e ∈ coalesceFrom (.ofText text) limits (next.extract (Source.ofText text).lines) rest) :
    limits.maxSize < (Source.ofText text).index.extractedLength
      ((a.extract (Source.ofText text).lines).span.merge e.span) := by
  obtain ⟨ha, hrest⟩ := List.forall_mem_cons.mp hproper
  obtain ⟨hbehind, htail⟩ := List.pairwise_cons.mp hpairwise
  obtain ⟨s, rfl, hfirst, hs, hlast⟩ := exists_of_mem_coalesceFrom hrest htail h
  have hlt := hbehind next List.mem_cons_self
  have hle := hrest next List.mem_cons_self
  have hmerge := Span.length_extract_merge_le ha hink hlt hle hfirst hs hlast
  have hproper' := Span.extract_first_le_last (Source.ofText text).lines ha
  have hproper'' := Span.extract_first_le_last (Source.ofText text).lines hs
  -- Both lengths are read from the index, so both are lengths of extracted texts.
  apply Nat.lt_of_not_le
  intro hfits
  rw [extractedLength_le_iff text _ (by simp only [Span.merge]; omega)] at hfits
  apply Nat.not_le_of_lt hlarge
  rw [extractedLength_le_iff text _ (by simp only [Span.merge]; omega)]
  exact Nat.le_trans hmerge hfits

theorem mem_keep {e a : Excerpt} : a ∈ keep e ↔ a = e ∧ Text.isBlank e.text = false := by
  rw [keep]
  split <;> simp_all

theorem keep_pairwise (R : Excerpt → Excerpt → Prop) (e : Excerpt) : (keep e).Pairwise R := by
  rw [keep]
  split
  · exact .nil
  · exact List.pairwise_singleton R e

/-- With the first two of them merged, spans in order are still in order. -/
theorem merge_ordered {next : Span} (hproper : ∀ t ∈ m :: next :: rest, t.first ≤ t.last)
    (hpairwise : (m :: next :: rest).Pairwise fun a b => a.last < b.first) :
    (∀ t ∈ m.merge next :: rest, t.first ≤ t.last) ∧
      (m.merge next :: rest).Pairwise fun a b => a.last < b.first := by
  obtain ⟨hm, hrest⟩ := List.forall_mem_cons.mp hproper
  obtain ⟨_, htail⟩ := List.forall_mem_cons.mp hrest
  obtain ⟨hbehind, hpairs⟩ := List.pairwise_cons.mp hpairwise
  obtain ⟨hbehind', hpairs'⟩ := List.pairwise_cons.mp hpairs
  have hlt := hbehind next List.mem_cons_self
  constructor
  · refine List.forall_mem_cons.mpr ⟨?_, htail⟩
    simp only [Span.merge]
    omega
  · refine List.pairwise_cons.mpr ⟨?_, hpairs'⟩
    intro t ht
    have hlast := hbehind t (List.mem_cons_of_mem next ht)
    have hlast' := hbehind' t ht
    simp only [Span.merge]
    omega

theorem coalesceFrom_pairwise (hproper : ∀ t ∈ m :: rest, t.first ≤ t.last)
    (hpairwise : (m :: rest).Pairwise fun a b => a.last < b.first) :
    (coalesceFrom (.ofText text) limits (m.extract (Source.ofText text).lines) rest).Pairwise
      (Apart text limits) := by
  induction rest generalizing m with
  | nil => exact keep_pairwise _ _
  | cons next rest ih =>
    obtain ⟨hm, hrest⟩ := List.forall_mem_cons.mp hproper
    obtain ⟨hbehind, hpairs⟩ := List.pairwise_cons.mp hpairwise
    rw [coalesceFrom]
    split
    · rw [Span.extract_merge_extract (Source.ofText text).lines hm (hbehind next List.mem_cons_self)
        (hrest next List.mem_cons_self)]
      obtain ⟨hproper', hpairwise'⟩ := merge_ordered hproper hpairwise
      exact ih hproper' hpairwise'
    · rename_i hapart
      refine List.pairwise_append.mpr ⟨keep_pairwise _ _, ih hrest hpairs, ?_⟩
      intro a ha b hb
      obtain ⟨rfl, hink⟩ := mem_keep.mp ha
      intro hlittle
      apply apart_of_mem_coalesceFrom hproper hpairwise hink _ hb
      exact Nat.lt_of_not_le fun hfits => hapart ⟨hlittle, hfits⟩

/-- Joining leaves excerpts alone that are trimmed, have text and are kept apart. -/
theorem coalesceFrom_eq_self {es : List Excerpt} {e : Excerpt}
    (hself : ∀ d ∈ e :: es, d.span.extract (Source.ofText text).lines = d ∧
      Text.isBlank d.text = false)
    (hapart : (e :: es).Pairwise (Apart text limits)) :
    coalesceFrom (.ofText text) limits e (es.map Excerpt.span) = e :: es := by
  induction es generalizing e with
  | nil =>
    obtain ⟨_, hink⟩ := hself e List.mem_cons_self
    simp [coalesceFrom, keep, hink]
  | cons next es ih =>
    obtain ⟨⟨_, hink⟩, hrest⟩ := List.forall_mem_cons.mp hself
    obtain ⟨hbehind, htail⟩ := List.pairwise_cons.mp hapart
    have hnext := hbehind next List.mem_cons_self
    rw [List.map_cons, coalesceFrom, if_neg, (hrest next List.mem_cons_self).1, ih hrest htail]
    · simp [keep, hink]
    · intro hjoins
      exact Nat.not_lt_of_le hjoins.2 (hnext hjoins.1)

end Coalescing

section Excerpts
variable (text : List Char) (limits : ChunkLimits) (root : ParseTree)

theorem excerpts_apart : (excerpts (.ofText text) limits root).Pairwise (Apart text limits) := by
  have hproper := clamp_first_le_last text limits root
  have hpairwise := clampFrom_pairwise none (rawSpans (.ofText text) limits root)
  rw [excerpts]
  unfold clamp at hproper ⊢
  cases hspans : clampFrom none (rawSpans (.ofText text) limits root) with
  | nil => exact .nil
  | cons m rest =>
    rw [hspans] at hproper hpairwise
    exact coalesceFrom_pairwise hproper hpairwise

theorem extract_span_of_mem_excerpts {e : Excerpt} (h : e ∈ excerpts (.ofText text) limits root) :
    e.span.extract (Source.ofText text).lines = e ∧ Text.isBlank e.text = false := by
  obtain ⟨m, rfl, hm, hink, _⟩ := exists_of_mem_excerpts text limits root h
  exact ⟨Span.extract_extract _ hm, hink⟩

/-- No excerpt with too little ink could be joined with the next, or with one that comes later, and
joining the spans of all excerpts again gives these excerpts. -/
theorem coalesce_at_rest :
    ((excerpts (.ofText text) limits root).Pairwise fun a b =>
      Text.inkCount a.text < limits.minInk →
        limits.maxSize < (Source.ofText text).index.extractedLength (a.span.merge b.span)) ∧
    coalesce (.ofText text) limits ((excerpts (.ofText text) limits root).map Excerpt.span) =
      excerpts (.ofText text) limits root := by
  have hapart := excerpts_apart text limits root
  refine ⟨hapart, ?_⟩
  have hself : ∀ e ∈ excerpts (.ofText text) limits root,
      e.span.extract (Source.ofText text).lines = e ∧ Text.isBlank e.text = false :=
    fun e he => extract_span_of_mem_excerpts text limits root he
  cases hes : excerpts (.ofText text) limits root with
  | nil => rfl
  | cons e es =>
    rw [hes] at hapart hself
    rw [List.map_cons, coalesce, (hself e List.mem_cons_self).1]
    exact coalesceFrom_eq_self hself hapart

end Excerpts

end Outline

end CodeSearch
