import CodeSearch.Proofs.Text.Lines
import CodeSearch.Span
import Mathlib.Tactic.ByContra

/-!
# Trimmed spans

Extracting a span moves both ends inwards over blank rows. What is cut off is blank, and where text
is left both ends of the result have ink. It follows that the text of a part of a span is never
longer than that of the span, and that trimming before a merge changes nothing.
-/

set_option autoImplicit false

namespace CodeSearch

section Ends
variable {lines : Array (List Char)}

theorem blankRow_lt_size {row : Nat} (h : blankRow lines row = true) : row < lines.size := by
  by_cases hrow : row < lines.size
  · exact hrow
  · have hnone : lines[row]? = none := Array.getElem?_eq_none_iff.mpr (by omega)
    simp [blankRow, hnone] at h

theorem le_trimFirst (row last : Nat) : row ≤ trimFirst lines row last := by
  fun_induction trimFirst lines row last with
  | case1 row _ ih => omega
  | case2 row _ => exact Nat.le_refl row

theorem trimFirst_le (lines : Array (List Char)) {row last : Nat} (h : row ≤ last) :
    trimFirst lines row last ≤ last := by
  fun_induction trimFirst lines row last with
  | case1 row hrow ih => exact ih (by omega)
  | case2 row _ => exact h

theorem blankRow_of_lt_trimFirst {row last r : Nat} (hr : row ≤ r)
    (h : r < trimFirst lines row last) : blankRow lines r = true := by
  fun_induction trimFirst lines row last with
  | case1 row hrow ih =>
    by_cases heq : r = row
    · exact heq ▸ hrow.2
    · exact ih (by omega) h
  | case2 row _ => omega

theorem trimFirst_stops (lines : Array (List Char)) {row last : Nat} (h : row ≤ last) :
    trimFirst lines row last = last ∨ blankRow lines (trimFirst lines row last) = false := by
  fun_induction trimFirst lines row last with
  | case1 row hrow ih => exact ih (by omega)
  | case2 row hrow =>
    by_cases hlt : row < last
    · exact Or.inr (by simpa [hlt] using hrow)
    · exact Or.inl (by omega)

/-- A first stop on the way does not change where trimming ends. -/
theorem trimFirst_trimFirst (lines : Array (List Char)) {row mid last : Nat} (h : mid ≤ last) :
    trimFirst lines (trimFirst lines row mid) last = trimFirst lines row last := by
  fun_induction trimFirst lines row mid with
  | case1 row hrow ih =>
    rw [ih, trimFirst.eq_def lines row last, if_pos ⟨by omega, hrow.2⟩]
  | case2 row _ => rfl

theorem trimLast_le (first row : Nat) : trimLast lines first row ≤ row := by
  induction row with
  | zero => simp [trimLast]
  | succ row ih => unfold trimLast; split <;> omega

theorem le_trimLast (lines : Array (List Char)) {first row : Nat} (h : first ≤ row) :
    first ≤ trimLast lines first row := by
  induction row with
  | zero => simpa [trimLast] using h
  | succ row ih =>
    unfold trimLast
    split
    · exact ih (by omega)
    · exact h

theorem blankRow_of_trimLast_lt {first row r : Nat} (h : trimLast lines first row < r)
    (hr : r ≤ row) : blankRow lines r = true := by
  induction row with
  | zero => simp [trimLast] at h; omega
  | succ row ih =>
    unfold trimLast at h
    split at h
    · rename_i hrow
      by_cases heq : r = row + 1
      · exact heq ▸ hrow.2
      · exact ih h (by omega)
    · omega

theorem trimLast_stops (lines : Array (List Char)) {first row : Nat} (h : first ≤ row) :
    trimLast lines first row = first ∨ blankRow lines (trimLast lines first row) = false := by
  induction row with
  | zero => exact Or.inl (by simp [trimLast]; omega)
  | succ row ih =>
    unfold trimLast
    split
    · exact ih (by omega)
    · rename_i hrow
      by_cases hlt : first < row + 1
      · exact Or.inr (by simpa [hlt] using hrow)
      · exact Or.inl (by omega)

theorem trimLast_trimLast (lines : Array (List Char)) {first mid row : Nat} (h : first ≤ mid) :
    trimLast lines first (trimLast lines mid row) = trimLast lines first row := by
  induction row with
  | zero => rfl
  | succ row ih =>
    rw [trimLast.eq_def lines mid]
    simp only
    split
    · rename_i hrow
      rw [ih, trimLast.eq_def lines first (row + 1)]
      simp only
      rw [if_pos ⟨by omega, hrow.2⟩]
    · rfl

end Ends

section Text
variable {lines : Array (List Char)}

theorem rowsText_eq (first last : Nat) :
    rowsText lines first last =
      Text.joinLines ((lines.toList.drop first).take (last + 1 - first)) := by
  simp [rowsText, List.extract_eq_take_drop]

theorem isBlank_rowsText (first last : Nat) :
    Text.isBlank (rowsText lines first last) = true ↔
      ∀ row, first ≤ row → row ≤ last → row < lines.size → blankRow lines row = true := by
  rw [rowsText, Text.isBlank_joinLines]
  constructor
  · intro h row hfirst hlast hsize
    have hmem : lines[row] ∈ (lines.extract first (last + 1)).toList := by
      rw [Array.mem_toList_iff, Array.mem_extract_iff_getElem]
      exact ⟨row - first, by omega, by simp [Nat.add_sub_cancel' hfirst]⟩
    simpa [blankRow, hsize] using h _ hmem
  · intro h line hline
    rw [Array.mem_toList_iff, Array.mem_extract_iff_getElem] at hline
    obtain ⟨i, hi, rfl⟩ := hline
    have hrow := h (first + i) (by omega) (by omega) (by omega)
    have hsize : first + i < lines.size := by omega
    simpa [blankRow, hsize] using hrow

theorem length_rowsText_le {first last first' last' : Nat} (hf : first ≤ first')
    (hl : last' ≤ last) :
    (rowsText lines first' last').length ≤ (rowsText lines first last).length := by
  have hsub : ((lines.toList.drop first').take (last' + 1 - first')).Sublist
      ((lines.toList.drop first).take (last + 1 - first)) := by
    by_cases hrows : first' ≤ last'
    · obtain ⟨d, rfl⟩ := Nat.le.dest hf
      rw [← List.drop_drop, List.take_drop]
      exact (List.drop_sublist _ _).trans (List.take_sublist_take_left (by omega))
    · have hzero : last' + 1 - first' = 0 := by omega
      rw [hzero, List.take_zero]
      exact List.nil_sublist _
  rw [rowsText_eq, rowsText_eq]
  exact Text.length_joinLines_le hsub

end Text

namespace Span
variable {lines : Array (List Char)} {s : Span}

theorem extract_text (lines : Array (List Char)) (s : Span) :
    (s.extract lines).text =
      rowsText lines (s.extract lines).span.first (s.extract lines).span.last := rfl

theorem first_le_extract (lines : Array (List Char)) (s : Span) :
    s.first ≤ (s.extract lines).span.first := le_trimFirst _ _

theorem extract_last_le (lines : Array (List Char)) (s : Span) :
    (s.extract lines).span.last ≤ s.last := trimLast_le _ _

theorem extract_first_le_last (lines : Array (List Char)) (h : s.first ≤ s.last) :
    (s.extract lines).span.first ≤ (s.extract lines).span.last :=
  le_trimLast lines (trimFirst_le lines h)

theorem blankRow_of_cut (lines : Array (List Char)) {row : Nat} (hf : s.first ≤ row)
    (hl : row ≤ s.last)
    (h : row < (s.extract lines).span.first ∨ (s.extract lines).span.last < row) :
    blankRow lines row = true := by
  rcases h with h | h
  · exact blankRow_of_lt_trimFirst hf h
  · exact blankRow_of_trimLast_lt h hl

theorem isBlank_extract (s : Span) :
    Text.isBlank (s.extract lines).text = true ↔
      ∀ row, s.first ≤ row → row ≤ s.last → row < lines.size → blankRow lines row = true := by
  rw [extract_text, isBlank_rowsText]
  constructor
  · intro h row hf hl hsize
    by_cases hcut : row < (s.extract lines).span.first ∨ (s.extract lines).span.last < row
    · exact blankRow_of_cut lines hf hl hcut
    · exact h row (by omega) (by omega) hsize
  · intro h row hf hl hsize
    exact h row (Nat.le_trans (first_le_extract lines s) hf)
      (Nat.le_trans hl (extract_last_le lines s)) hsize

/-- Where text is left, neither end is a blank row. -/
theorem blankRow_ends (h : s.first ≤ s.last)
    (htext : Text.isBlank (s.extract lines).text = false) :
    blankRow lines (s.extract lines).span.first = false ∧
      blankRow lines (s.extract lines).span.last = false := by
  have hfl := extract_first_le_last lines h
  -- A single row cannot be blank, for it is all the text there is.
  have hone : (s.extract lines).span.first = (s.extract lines).span.last →
      blankRow lines (s.extract lines).span.last = false := by
    intro heq
    by_contra hblank
    apply Bool.eq_false_iff.mp htext
    rw [extract_text, isBlank_rowsText]
    intro row hf hl _
    have hrow : row = (s.extract lines).span.last := by omega
    exact hrow ▸ eq_true_of_ne_false hblank
  constructor
  · rcases trimFirst_stops lines h with hstop | hstop
    · have hle := extract_last_le lines s
      change (s.extract lines).span.first = s.last at hstop
      have heq : (s.extract lines).span.first = (s.extract lines).span.last := by omega
      exact heq ▸ hone heq
    · exact hstop
  · rcases trimLast_stops lines (trimFirst_le lines h) with hstop | hstop
    · exact hone hstop.symm
    · exact hstop

theorem extract_within {part whole : Span} (h : part.first ≤ part.last)
    (hf : whole.first ≤ part.first) (hl : part.last ≤ whole.last)
    (htext : Text.isBlank (part.extract lines).text = false) :
    (whole.extract lines).span.first ≤ (part.extract lines).span.first ∧
      (part.extract lines).span.last ≤ (whole.extract lines).span.last := by
  have ⟨hfirst, hlast⟩ := blankRow_ends h htext
  have h1 := first_le_extract lines part
  have h2 := extract_last_le lines part
  have h3 := extract_first_le_last lines h
  constructor
  · by_contra hlt
    have hblank : blankRow lines (part.extract lines).span.first = true :=
      blankRow_of_cut lines (s := whole) (by omega) (by omega) (Or.inl (by omega))
    simp [hfirst] at hblank
  · by_contra hlt
    have hblank : blankRow lines (part.extract lines).span.last = true :=
      blankRow_of_cut lines (s := whole) (by omega) (by omega) (Or.inr (by omega))
    simp [hlast] at hblank

/-- Cutting a span back makes its text no longer, unless the rest is blank. -/
theorem length_extract_le {part whole : Span} (h : part.first ≤ part.last)
    (hf : whole.first ≤ part.first) (hl : part.last ≤ whole.last)
    (htext : Text.isBlank (part.extract lines).text = false) :
    (part.extract lines).text.length ≤ (whole.extract lines).text.length :=
  have hwithin := extract_within h hf hl htext
  length_rowsText_le hwithin.1 hwithin.2

/-- Trimming the first of two spans before they are merged changes nothing. -/
theorem extract_merge_extract (lines : Array (List Char)) {t : Span} (hs : s.first ≤ s.last)
    (hst : s.last < t.first) (ht : t.first ≤ t.last) :
    ((s.extract lines).span.merge t).extract lines = (s.merge t).extract lines := by
  have hfirst : (s.extract lines).span.first = trimFirst lines s.first s.last := rfl
  have h1 := trimFirst_le lines hs
  have h2 := extract_last_le lines s
  have h3 : min (s.extract lines).span.first t.first = trimFirst lines s.first s.last := by omega
  have h4 : min s.first t.first = s.first := by omega
  have h5 : max (s.extract lines).span.last t.last = t.last := by omega
  have h6 : max s.last t.last = t.last := by omega
  have htrim : trimFirst lines (trimFirst lines s.first s.last) t.last =
      trimFirst lines s.first t.last := trimFirst_trimFirst lines (by omega)
  simp only [extract, merge] at h3 h5 ⊢
  rw [h3, h4, h5, h6, htrim]

theorem extract_extract (lines : Array (List Char)) (h : s.first ≤ s.last) :
    (s.extract lines).span.extract lines = s.extract lines := by
  have hlast : (s.extract lines).span.last =
      trimLast lines (s.extract lines).span.first s.last := rfl
  have hle := extract_first_le_last lines h
  have hfirst : trimFirst lines (s.extract lines).span.first (s.extract lines).span.last =
      (s.extract lines).span.first := by
    rw [trimFirst]
    rcases trimFirst_stops lines h with hstop | hstop
    · have hend := extract_last_le lines s
      change (s.extract lines).span.first = s.last at hstop
      rw [if_neg (by omega)]
    · change blankRow lines (s.extract lines).span.first = false at hstop
      simp [hstop]
  have hagain : trimLast lines (s.extract lines).span.first (s.extract lines).span.last =
      (s.extract lines).span.last := by
    rw [hlast]
    exact trimLast_trimLast lines (Nat.le_refl _)
  rw [extract, hfirst, hagain]
  rfl

/-- Trimming the second of two spans before they are merged changes nothing either, if the first
begins with ink. -/
theorem extract_merge_extract_right {t : Span} (hink : blankRow lines s.first = false)
    (hs : s.first ≤ s.last) (hst : s.last < t.first) (ht : t.first ≤ t.last) :
    (s.merge (t.extract lines).span).extract lines = (s.merge t).extract lines := by
  have hfirst := first_le_extract lines t
  have hle := extract_first_le_last lines ht
  have hstart : ∀ last, trimFirst lines s.first last = s.first := by
    intro last
    rw [trimFirst, if_neg (by simp [hink])]
  have hmid : s.first ≤ trimFirst lines t.first t.last := by
    change t.first ≤ trimFirst lines t.first t.last at hfirst
    omega
  have htrim : trimLast lines s.first (t.extract lines).span.last =
      trimLast lines s.first t.last := trimLast_trimLast lines hmid
  have h1 : min s.first (t.extract lines).span.first = s.first := by omega
  have h2 : min s.first t.first = s.first := by omega
  have h3 : max s.last (t.extract lines).span.last = (t.extract lines).span.last := by omega
  have h4 : max s.last t.last = t.last := by omega
  simp only [extract, merge] at h1 h3 htrim ⊢
  rw [h1, h2, h3, h4, hstart, hstart, htrim]
  rfl

end Span

end CodeSearch
