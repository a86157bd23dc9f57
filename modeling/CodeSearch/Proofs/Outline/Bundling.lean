import CodeSearch.Proofs.Outline.Parts

/-!
# Bundling makes the fewest spans

Going through spans in order and merging as long as the merge fits makes no more spans than any
other way to merge consecutive ones, provided that what lies within a span that fits does fit. Spans
of code are so: rows with ink that are added to a span make its trimmed text no shorter.
-/

set_option autoImplicit false

namespace CodeSearch

namespace Span

def Covers (whole part : Span) : Prop := whole.first ≤ part.first ∧ part.last ≤ whole.last

theorem covers_merge_left (s t : Span) : (s.merge t).Covers s := by
  simp only [Covers, merge]
  omega

theorem covers_merge_right (s t : Span) : (s.merge t).Covers t := by
  simp only [Covers, merge]
  omega

theorem Covers.merge {whole part : Span} (h : whole.Covers part) (t : Span) :
    (whole.merge t).Covers (part.merge t) := by
  simp only [Covers, Span.merge] at h ⊢
  omega

section Packing

/-- Merges a span with the next as long as the two fit, and goes on with the next if they do not. -/
def pack (fits : Span → Prop) [DecidablePred fits] (s : Span) : List Span → List Span
  | [] => [s]
  | t :: rest => if fits (s.merge t) then pack fits (s.merge t) rest else s :: pack fits t rest

theorem grouped_pack {fits : Span → Prop} [DecidablePred fits] {s : Span} {run rest : List Span}
    (hrun : run = [] ∨ fits (s.mergeAll run)) :
    Grouped fits (s :: (run ++ rest)) (pack fits (s.mergeAll run) rest) := by
  induction rest generalizing s run with
  | nil => simpa [pack] using Grouped.single hrun
  | cons t rest ih =>
    rw [pack]
    split
    · rename_i hjoined
      rw [← mergeAll_concat] at hjoined ⊢
      simpa using ih (Or.inr hjoined)
    · exact .cons hrun (ih (Or.inl rfl))

variable {fits inked : Span → Prop} [DecidablePred fits] {s : Span} {rest merged : List Span}
  (hinked : ∀ {whole part : Span}, whole.Covers part → inked part → inked whole)
  (hfits : ∀ {whole part : Span}, whole.Covers part → inked part → fits whole → fits part)
include hinked hfits

/-- To begin with a larger span costs one span at most, and saves none. -/
theorem length_pack_between {whole part : Span} (hcovers : whole.Covers part) (hpart : inked part)
    (hrest : ∀ t ∈ rest, inked t) :
    (pack fits part rest).length ≤ (pack fits whole rest).length ∧
      (pack fits whole rest).length ≤ (pack fits part rest).length + 1 := by
  induction rest generalizing whole part with
  | nil => simp [pack]
  | cons t rest ih =>
    obtain ⟨ht, hrest⟩ := List.forall_mem_cons.mp hrest
    have hmerge := hcovers.merge t
    have hmerged : inked (part.merge t) := hinked (covers_merge_left part t) hpart
    rw [pack, pack]
    by_cases hwhole : fits (whole.merge t)
    · rw [if_pos hwhole, if_pos (hfits hmerge hmerged hwhole)]
      exact ih hmerge hmerged hrest
    · rw [if_neg hwhole]
      split
      · -- The smaller span takes `t` along where the larger one ends.
        obtain ⟨hfresh, htaken⟩ := ih (covers_merge_right part t) ht hrest
        simp only [List.length_cons]
        omega
      · simp

theorem length_pack_cons_le {t : Span} (ht : inked t) (hrest : ∀ u ∈ rest, inked u) :
    (pack fits s (t :: rest)).length ≤ (pack fits t rest).length + 1 := by
  rw [pack]
  split
  · exact (length_pack_between hinked hfits (covers_merge_right s t) ht hrest).2
  · exact Nat.le_refl _

/-- A run whose merge fits is taken whole. -/
theorem pack_append {run : List Span} (hs : inked s) (hrun : run = [] ∨ fits (s.mergeAll run)) :
    pack fits s (run ++ rest) = pack fits (s.mergeAll run) rest := by
  induction run generalizing s with
  | nil => rfl
  | cons t run ih =>
    have hwhole : fits ((s.merge t).mergeAll run) := hrun.resolve_left (List.cons_ne_nil t run)
    have hmerged : inked (s.merge t) := hinked (covers_merge_left s t) hs
    have hcovers : ((s.merge t).mergeAll run).Covers (s.merge t) :=
      mergeAll_covers (s.merge t) run _ List.mem_cons_self
    rw [List.cons_append, pack, if_pos (hfits hcovers hmerged hwhole)]
    exact ih hmerged (Or.inr hwhole)

theorem length_pack_le (h : Grouped fits (s :: rest) merged) (hall : ∀ t ∈ s :: rest, inked t) :
    (pack fits s rest).length ≤ merged.length := by
  generalize hxs : s :: rest = xs at h
  induction h generalizing s rest with
  | nil => cases hxs
  | @cons u run others merged hrun hothers ih =>
    obtain ⟨rfl, rfl⟩ := List.cons.inj hxs
    obtain ⟨hs, hmore⟩ := List.forall_mem_cons.mp hall
    rw [pack_append hinked hfits hs hrun, List.length_cons]
    cases others with
    | nil => simp [pack]
    | cons t others =>
      have ht : ∀ v ∈ t :: others, inked v := fun v hv => hmore v (List.mem_append_right _ hv)
      obtain ⟨hfirst, hrest⟩ := List.forall_mem_cons.mp ht
      have hnext := ih ht rfl
      have hcost := length_pack_cons_le hinked hfits (s := s.mergeAll run) hfirst hrest
      omega

end Packing

/-- Some row of the span is a row of the text and not blank. -/
def HasInk (lines : Array (List Char)) (s : Span) : Prop :=
  ∃ row, s.first ≤ row ∧ row ≤ s.last ∧ row < lines.size ∧ blankRow lines row = false

variable {lines : Array (List Char)} {whole part : Span}

theorem HasInk.of_covers (hcovers : whole.Covers part) (h : part.HasInk lines) :
    whole.HasInk lines := by
  obtain ⟨row, hfirst, hlast, hrow⟩ := h
  exact ⟨row, Nat.le_trans hcovers.1 hfirst, Nat.le_trans hlast hcovers.2, hrow⟩

end Span

namespace Outline
variable {text : List Char} {maxSize : Nat}

/-- The length that bundling measures is within the limit. -/
def Measured (text : List Char) (maxSize : Nat) (s : Span) : Prop :=
  (Source.ofText text).index.extractedLength s ≤ maxSize

instance : DecidablePred (Measured text maxSize) :=
  fun _ => inferInstanceAs (Decidable (_ ≤ _))

theorem Measured.of_covers {whole part : Span} (hcovers : whole.Covers part)
    (hpart : part.HasInk (Source.ofText text).lines) (h : Measured text maxSize whole) :
    Measured text maxSize part := by
  obtain ⟨row, hfirst, hlast, hsize, hink⟩ := hpart
  have hrows : part.first ≤ part.last := Nat.le_trans hfirst hlast
  have hwhole : whole.first ≤ whole.last :=
    Nat.le_trans hcovers.1 (Nat.le_trans hrows hcovers.2)
  rw [Measured, extractedLength_le_iff text maxSize hrows]
  rw [Measured, extractedLength_le_iff text maxSize hwhole] at h
  refine Nat.le_trans (Span.length_extract_le hrows hcovers.1 hcovers.2 ?_) h
  rw [Bool.eq_false_iff, Ne, Span.isBlank_extract]
  intro hblank
  exact absurd (hblank row hfirst hlast hsize) (Bool.eq_false_iff.mp hink)

theorem bundleAll_eq_pack {s : Span} {children : List ParseTree}
    (hsmall : ∀ c ∈ children, (c.text text).length ≤ maxSize) :
    bundleAll (.ofText text) maxSize (some s) children =
      Span.pack (Measured text maxSize) s (children.map ParseTree.span) := by
  induction children generalizing s with
  | nil => rw [bundleAll]; rfl
  | cons child rest ih =>
    obtain ⟨hchild, hrest⟩ := List.forall_mem_cons.mp hsmall
    rw [bundleAll, Source.ofText_text, if_neg (Nat.not_lt.mpr hchild), List.map_cons, Span.pack]
    simp only
    by_cases hfits : Measured text maxSize (s.merge child.span)
    · rw [if_neg (Nat.not_lt.mpr hfits), if_pos hfits]
      exact ih hrest
    · rw [if_pos (Nat.not_le.mp hfits), if_neg hfits, ih hrest]

/-- A node whose children are all small enough and have ink is cut into groups of consecutive
children, in whatever order their rows stand, and no such cut has fewer groups. -/
theorem bundle_fewest (text : List Char) (maxSize : Nat) (t : ParseTree)
    (hsmall : ∀ c ∈ t.children, (c.text text).length ≤ maxSize)
    (hink : ∀ c ∈ t.children, c.span.HasInk (Source.ofText text).lines) :
    Span.Grouped (Measured text maxSize) (t.children.map ParseTree.span)
        (bundle (.ofText text) maxSize t) ∧
      ∀ groups, Span.Grouped (Measured text maxSize) (t.children.map ParseTree.span) groups →
        (bundle (.ofText text) maxSize t).length ≤ groups.length := by
  cases t with
  | node kind startByte endByte firstRow lastRow children =>
    cases children with
    | nil =>
      rw [bundle, bundleAll]
      exact ⟨.nil, fun groups _ => Nat.zero_le _⟩
    | cons child rest =>
      obtain ⟨hchild, hrest⟩ := List.forall_mem_cons.mp hsmall
      have hpack : bundle (.ofText text) maxSize
          (.node kind startByte endByte firstRow lastRow (child :: rest)) =
          Span.pack (Measured text maxSize) child.span (rest.map ParseTree.span) := by
        rw [bundle, bundleAll, Source.ofText_text, if_neg (Nat.not_lt.mpr hchild)]
        exact bundleAll_eq_pack hrest
      rw [hpack]
      refine ⟨Span.grouped_pack (Or.inl rfl), fun groups hgroups => ?_⟩
      exact Span.length_pack_le Span.HasInk.of_covers Measured.of_covers hgroups
        (List.forall_mem_map.mpr hink)

def longRowText : List Char := "abcdef gh\nij\n\nk".toList

/-- Two words of a line that is over the limit of six, and two short lines with a blank one between
them. -/
def longRow : ParseTree :=
  .node "file" 0 15 0 3 [.node "word" 0 6 0 0 [], .node "word" 7 9 0 0 [],
    .node "word" 10 12 1 1 [], .node "word" 14 15 3 3 []]

/-- Only the two short lines can be merged. -/
theorem longRow_bundled_in_three :
    (bundle (.ofText longRowText) 6 longRow).length = 3 ∧
      ∀ groups, Span.Grouped (Measured longRowText 6) (longRow.children.map ParseTree.span) groups →
        3 ≤ groups.length := by
  have hsmall : ∀ c ∈ longRow.children, (c.text longRowText).length ≤ 6 := by
    intro c hc
    simp only [longRow, ParseTree.children, List.mem_cons, List.not_mem_nil, or_false] at hc
    rcases hc with rfl | rfl | rfl | rfl <;> decide
  have hink : ∀ c ∈ longRow.children, c.span.HasInk (Source.ofText longRowText).lines := by
    intro c hc
    simp only [longRow, ParseTree.children, List.mem_cons, List.not_mem_nil, or_false] at hc
    rcases hc with rfl | rfl | rfl | rfl
    exacts [⟨0, by decide⟩, ⟨0, by decide⟩, ⟨1, by decide⟩, ⟨3, by decide⟩]
  have hlength : (bundle (.ofText longRowText) 6 longRow).length = 3 := by decide +kernel
  obtain ⟨-, hfewest⟩ := bundle_fewest longRowText 6 longRow hsmall hink
  exact ⟨hlength, fun groups hgroups => hlength ▸ hfewest groups hgroups⟩

end Outline

end CodeSearch
