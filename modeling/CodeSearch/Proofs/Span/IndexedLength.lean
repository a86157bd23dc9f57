import CodeSearch.Proofs.Span.Trimming
import CodeSearch.Span.LineIndex

/-!
# The indexed length of a span

The tables of the line index hold what trimming looks for: the sums of line lengths, and the nearest
row with ink in either direction. Read through them, the length of a span is that of its extracted
text.
-/

set_option autoImplicit false

namespace CodeSearch.LineIndex

section Tables

theorem sumsFrom_append (sum : Nat) (out ns : List Nat) :
    sumsFrom sum out ns = out.reverse ++ sumsFrom sum [] ns := by
  induction ns generalizing sum out with
  | nil => simp [sumsFrom]
  | cons n ns ih =>
    rw [sumsFrom, ih, sumsFrom, ih (sum + n) [sum]]
    simp

@[simp] theorem length_sumsFrom (sum : Nat) (ns : List Nat) :
    (sumsFrom sum [] ns).length = ns.length + 1 := by
  induction ns generalizing sum with
  | nil => simp [sumsFrom]
  | cons n ns ih => simp [sumsFrom, sumsFrom_append _ [sum], ih]

theorem getElem?_sumsFrom (sum : Nat) (ns : List Nat) {i : Nat} (hi : i ≤ ns.length) :
    (sumsFrom sum [] ns)[i]? = some (sum + (ns.take i).sum) := by
  induction ns generalizing sum i with
  | nil =>
    have : i = 0 := by simpa using hi
    subst i
    simp [sumsFrom]
  | cons n ns ih =>
    rw [sumsFrom, sumsFrom_append _ [sum]]
    cases i with
    | zero => simp
    | succ i =>
      simpa [Nat.add_assoc] using ih (sum + n) (Nat.le_of_succ_le_succ hi)

@[simp] theorem length_nextFrom (next : Nat) (out : List Nat) (row : Nat) (rs : List Bool) :
    (nextFrom next out row rs).length = rs.length + 1 + out.length := by
  induction rs generalizing next out row with
  | nil => simp [nextFrom]; omega
  | cons b bs ih => rw [nextFrom, ih]; simp only [List.length_cons]; omega

theorem getElem?_nextFrom_out (next : Nat) (out : List Nat) (row : Nat) (rs : List Bool) (j : Nat) :
    (nextFrom next out row rs)[rs.length + j]? = (next :: out)[j]? := by
  induction rs generalizing next out row j with
  | nil => simp [nextFrom]
  | cons b bs ih =>
    have hlen : (b :: bs).length + j = bs.length + (j + 1) := by
      simp only [List.length_cons]
      omega
    rw [nextFrom, hlen, ih, List.getElem?_cons_succ]

/-- Each entry is that of the row after it, or the row itself if it is not blank. -/
theorem getElem?_nextFrom (next : Nat) (out : List Nat) (rs : List Bool) {i : Nat}
    (hi : i < rs.length) :
    (nextFrom next out (rs.length - 1) rs)[i]? =
      if rs.reverse[i]? = some true then (nextFrom next out (rs.length - 1) rs)[i + 1]?
      else some i := by
  induction rs generalizing next out with
  | nil => simp at hi
  | cons b bs ih =>
    simp only [List.length_cons, Nat.add_sub_cancel, nextFrom, List.reverse_cons] at hi ⊢
    by_cases hlast : i = bs.length
    · subst i
      have h0 := getElem?_nextFrom_out (if b then next else bs.length) (next :: out)
        (bs.length - 1) bs 0
      have h1 := getElem?_nextFrom_out (if b then next else bs.length) (next :: out)
        (bs.length - 1) bs 1
      rw [Nat.add_zero] at h0
      rw [h0, h1, List.getElem?_append_right (by simp)]
      cases b <;> simp
    · have hlt : i < bs.length := by omega
      rw [ih _ _ hlt, List.getElem?_append_left (by simpa using hlt)]

theorem prevFrom_append (prev : Option Nat) (out : List (Option Nat)) (row : Nat)
    (bs : List Bool) : prevFrom prev out row bs = out.reverse ++ prevFrom prev [] row bs := by
  induction bs generalizing prev out row with
  | nil => simp [prevFrom]
  | cons b bs ih =>
    simp only [prevFrom]
    rw [ih, ih _ [_]]
    simp

@[simp] theorem length_prevFrom (prev : Option Nat) (row : Nat) (bs : List Bool) :
    (prevFrom prev [] row bs).length = bs.length := by
  induction bs generalizing prev row with
  | nil => simp [prevFrom]
  | cons b bs ih => simp only [prevFrom]; rw [prevFrom_append]; simp [ih]

/-- Each entry is that of the row before it, or the row itself if it is not blank. -/
theorem getElem?_prevFrom (prev : Option Nat) (row : Nat) (bs : List Bool) {i : Nat}
    (hi : i < bs.length) :
    (prevFrom prev [] row bs)[i]? =
      if bs[i]? = some true then (prev :: prevFrom prev [] row bs)[i]?
      else some (some (row + i)) := by
  induction bs generalizing prev row i with
  | nil => simp at hi
  | cons b bs ih =>
    simp only [prevFrom]
    rw [prevFrom_append]
    cases i with
    | zero => cases b <;> simp
    | succ i =>
      simp only [List.reverse_singleton, List.singleton_append, List.getElem?_cons_succ]
      rw [ih _ _ (Nat.lt_of_succ_lt_succ hi)]
      simp only [Nat.add_assoc, Nat.add_comm 1 i]

end Tables

section Lookup
variable (lines : List (List Char))

theorem blankRow_iff (row : Nat) :
    blankRow lines.toArray row = true ↔ (lines.map Text.isBlank)[row]? = some true := by
  simp only [blankRow, List.getElem?_toArray, List.getElem?_map]
  cases lines[row]? <;> simp

theorem offsets_getD {i : Nat} (hi : i ≤ lines.length) :
    (ofLines lines).offsets.getD i 0 = ((lines.take i).map List.length).sum := by
  have h := getElem?_sumsFrom 0 (lines.map List.length) (i := i) (by simpa using hi)
  simp only [ofLines, Array.getD_eq_getD_getElem?, List.getElem?_toArray, h]
  simp [List.map_take]

@[simp] theorem rowCount_ofLines : (ofLines lines).rowCount = lines.length := by
  simp [rowCount, ofLines]

theorem nextText_eq (row : Nat) :
    (ofLines lines).nextText row =
      if blankRow lines.toArray row = true then (ofLines lines).nextText (row + 1) else row := by
  have hlen := length_nextFrom lines.length [] (lines.length - 1) (lines.map Text.isBlank).reverse
  simp only [List.length_reverse, List.length_map, List.length_nil] at hlen
  by_cases hrow : row < lines.length
  · have h := getElem?_nextFrom lines.length [] (lines.map Text.isBlank).reverse (i := row)
      (by simpa using hrow)
    simp only [List.length_reverse, List.length_map, List.reverse_reverse, ← blankRow_iff] at h
    simp only [nextText, ofLines, Array.getD_eq_getD_getElem?, List.getElem?_toArray, h]
    split
    · rw [List.getElem?_eq_getElem (by omega)]
      rfl
    · rfl
  · have hblank : ¬ blankRow lines.toArray row = true := fun h =>
      hrow (by simpa using blankRow_lt_size h)
    rw [if_neg hblank]
    by_cases heq : row = lines.length
    · have h := getElem?_nextFrom_out lines.length [] (lines.length - 1)
        (lines.map Text.isBlank).reverse 0
      simp only [List.length_reverse, List.length_map, Nat.add_zero] at h
      simp only [nextText, ofLines, Array.getD_eq_getD_getElem?, List.getElem?_toArray, heq, h]
      rfl
    · simp only [nextText, ofLines, Array.getD_eq_getD_getElem?, List.getElem?_toArray]
      rw [List.getElem?_eq_none (by omega)]
      rfl

theorem prevText_zero :
    (ofLines lines).prevText 0 = if blankRow lines.toArray 0 = true then none else some 0 := by
  simp only [prevText, ofLines, Array.getD_eq_getD_getElem?, List.getElem?_toArray]
  cases lines with
  | nil => simp [prevFrom, blankRow]
  | cons line lines =>
    rw [getElem?_prevFrom none 0 _ (by simp)]
    simp only [blankRow_iff]
    split <;> simp

theorem prevText_succ (row : Nat) :
    (ofLines lines).prevText (row + 1) =
      if blankRow lines.toArray (row + 1) = true then (ofLines lines).prevText row
      else some (row + 1) := by
  simp only [prevText, ofLines, Array.getD_eq_getD_getElem?, List.getElem?_toArray]
  by_cases hrow : row + 1 < lines.length
  · rw [getElem?_prevFrom none 0 (lines.map Text.isBlank) (by simpa using hrow)]
    simp only [blankRow_iff]
    split
    · rw [List.getElem?_cons_succ, List.getElem?_eq_getElem (by simp; omega)]
      rfl
    · simp
  · have hblank : ¬ blankRow lines.toArray (row + 1) = true := fun h =>
      hrow (by simpa using blankRow_lt_size h)
    rw [if_neg hblank, List.getElem?_eq_none (by simp; omega)]
    rfl

theorem prevText_le {row r : Nat} (h : (ofLines lines).prevText row = some r) : r ≤ row := by
  induction row with
  | zero =>
    rw [prevText_zero] at h
    split at h <;> simp at h
    omega
  | succ row ih =>
    rw [prevText_succ] at h
    split at h
    · exact Nat.le_succ_of_le (ih h)
    · simp at h
      omega

theorem le_nextText (row : Nat) : row ≤ (ofLines lines).nextText row := by
  rw [nextText_eq]
  split
  · rename_i hblank
    have hrow : row < lines.length := by simpa using blankRow_lt_size hblank
    have hnext := le_nextText (row + 1)
    omega
  · exact Nat.le_refl row
termination_by lines.length - row

theorem min_nextText {row last : Nat} (h : row ≤ last) :
    min ((ofLines lines).nextText row) last = trimFirst lines.toArray row last := by
  fun_induction trimFirst lines.toArray row last with
  | case1 row hrow ih =>
    rw [nextText_eq, if_pos hrow.2]
    exact ih (by omega)
  | case2 row hrow =>
    by_cases hlt : row < last
    · rw [nextText_eq, if_neg (fun hblank => hrow ⟨hlt, hblank⟩)]
      omega
    · have hle := le_nextText lines row
      omega

theorem prevText_eq_trimLast {first row : Nat} (h : first ≤ row) :
    (match (ofLines lines).prevText row with
      | some r => max r first
      | none => first) = trimLast lines.toArray first row := by
  induction row with
  | zero =>
    have hzero : first = 0 := by omega
    subst hzero
    rw [prevText_zero, trimLast]
    split <;> rename_i heq <;> split at heq <;> simp_all
  | succ row ih =>
    rw [prevText_succ, trimLast]
    by_cases hblank : blankRow lines.toArray (row + 1) = true
    · by_cases hlt : first < row + 1
      · rw [if_pos hblank, if_pos ⟨hlt, hblank⟩]
        exact ih (by omega)
      · rw [if_pos hblank, if_neg (fun hc => hlt hc.1)]
        cases hprev : (ofLines lines).prevText row with
        | none => simp only; omega
        | some r =>
          have hle := prevText_le lines hprev
          simp only
          omega
    · rw [if_neg hblank, if_neg (fun hc => hblank hc.2)]
      simp only
      omega

theorem offsets_sub {first last : Nat} (hfirst : first ≤ last) (hsize : first < lines.length) :
    (ofLines lines).offsets.getD (min last (lines.length - 1) + 1) 0 -
        (ofLines lines).offsets.getD first 0 + (min last (lines.length - 1) - first) =
      (rowsText lines.toArray first last).length := by
  obtain ⟨k, hk⟩ : ∃ k, min last (lines.length - 1) + 1 = first + k :=
    ⟨min last (lines.length - 1) + 1 - first, by omega⟩
  have htake : (lines.drop first).take (last + 1 - first) = (lines.drop first).take k := by
    by_cases hend : last < lines.length
    · have heq : last + 1 - first = k := by omega
      rw [heq]
    · rw [List.take_of_length_le (by simp; omega), List.take_of_length_le (by simp; omega)]
  rw [offsets_getD lines (by omega), offsets_getD lines (by omega), hk, List.take_add,
    List.map_append, List.sum_append, rowsText_eq, htake, Text.length_joinLines, List.length_take,
    List.length_drop]
  omega

/-- The index tells the length of the extracted text without making it. -/
theorem extractedLength_eq {s : Span} (h : s.first ≤ s.last) :
    (ofLines lines).extractedLength s = (s.extract lines.toArray).text.length := by
  have hfirst := min_nextText lines h
  have hlast := prevText_eq_trimLast lines (trimFirst_le lines.toArray h)
  have hle := le_trimLast lines.toArray (trimFirst_le lines.toArray h)
  simp only [extractedLength, rowCount_ofLines, hfirst]
  split
  · rename_i hsize
    rw [Span.extract, rowsText_eq, List.drop_eq_nil_of_le (by simpa using hsize)]
    simp [Text.joinLines, Text.joinWith]
  · rename_i hsize
    have hsub := offsets_sub lines hle (by omega)
    change _ = (s.extract lines.toArray).text.length at hsub
    cases hprev : (ofLines lines).prevText s.last <;>
      · simp only [hprev] at hlast ⊢
        rw [← hlast] at hsub
        exact hsub

end Lookup

end CodeSearch.LineIndex
