import CodeSearch.Chunking.Outline
import CodeSearch.Proofs.Span.IndexedLength
import CodeSearch.Span.Checked

/-!
# Nothing goes out of bounds

With every access and every subtraction checked, the line index is still built, the length of a span
read from it and the text of the span cut out without a failure, and the results are those of the
unchecked functions. A span may begin or end behind the last row.
-/

set_option autoImplicit false

namespace CodeSearch

theorem minus?_of_le {a b : Nat} (h : b ≤ a) : minus? a b = some (a - b) := if_pos h

section Extraction
variable (lines : Array (List Char))

theorem trimLast?_eq (first row : Nat) :
    trimLast? lines first row = some (trimLast lines first row) := by
  induction row with
  | zero =>
    rw [trimLast?, if_neg (by omega)]
    rfl
  | succ row ih =>
    rw [trimLast?, trimLast]
    split
    · rw [minus?_of_le (Nat.le_add_left 1 row)]
      exact ih
    · rfl

theorem rowsText_min (first last : Nat) :
    rowsText lines first (min last (lines.size - 1)) = rowsText lines first last := by
  rw [rowsText_eq, rowsText_eq]
  by_cases hlast : last < lines.size
  · rw [show min last (lines.size - 1) = last by omega]
  · rw [List.take_of_length_le (by simp; omega), List.take_of_length_le (by simp; omega)]

theorem Span.extract?_eq {s : Span} (h : s.first ≤ s.last) :
    s.extract? lines = some (s.extract lines) := by
  have hle := extract_first_le_last lines h
  change trimFirst lines s.first s.last ≤
    trimLast lines (trimFirst lines s.first s.last) s.last at hle
  simp only [extract?, extract, trimLast?_eq, Option.bind_eq_bind, Option.bind_some]
  split
  · rename_i hsize
    rw [minus?_of_le (by omega), Option.bind_some, rowsText?, if_pos (by omega), rowsText_min]
    rfl
  · rename_i hsize
    rw [rowsText_eq, List.drop_eq_nil_of_le (by simpa using hsize), List.take_nil]
    rfl

end Extraction

namespace LineIndex

section Building

theorem foldlM_pushSum? (ns front : List Nat) (sum : Nat) :
    ns.foldlM pushSum? (front ++ [sum]).toArray = some (front ++ sumsFrom sum [] ns).toArray := by
  induction ns generalizing front sum with
  | nil => rfl
  | cons n ns ih =>
    have hstep : pushSum? (front ++ [sum]).toArray n =
        some (front ++ [sum] ++ [sum + n]).toArray := by
      simp [pushSum?, minus?]
    rw [List.foldlM_cons, hstep, sumsFrom, sumsFrom_append]
    simpa using ih (front ++ [sum]) (sum + n)

theorem setNext?_eq {blanks : List Bool} {m : Nat} {b : Bool} (h : blanks[m]? = some b)
    (n next : Nat) (out : List Nat) :
    setNext? blanks.toArray (List.replicate (m + 1) n ++ next :: out).toArray m =
      some (List.replicate m n ++ (if b then next else m) :: next :: out).toArray := by
  have hset : ∀ entry : Nat, (List.replicate (m + 1) n ++ next :: out).set m entry =
      List.replicate m n ++ entry :: next :: out := by
    intro entry
    rw [List.replicate_succ', List.append_assoc, List.set_append_right _ _ (by simp)]
    simp
  have hsize : m < m + 1 + (out.length + 1) := by omega
  simp only [setNext?, List.getElem?_toArray, h, Option.bind_eq_bind, Option.bind_some]
  cases b <;> simp [hset, hsize]

/-- The loop fills the table from its end; `rs` are the rows still to come, the last one first. -/
theorem foldlM_setNext? (blanks rs : List Bool)
    (hrs : ∀ i < rs.length, blanks[i]? = rs.reverse[i]?) (n next : Nat) (out : List Nat) :
    (List.range rs.length).reverse.foldlM (setNext? blanks.toArray)
        (List.replicate rs.length n ++ next :: out).toArray =
      some (nextFrom next out (rs.length - 1) rs).toArray := by
  induction rs generalizing next out with
  | nil => rfl
  | cons b bs ih =>
    have hb : blanks[bs.length]? = some b := by
      simpa using hrs bs.length (by simp)
    have hrest : ∀ i < bs.length, blanks[i]? = bs.reverse[i]? := by
      intro i hi
      rw [hrs i (by simp; omega), List.reverse_cons, List.getElem?_append_left (by simpa using hi)]
    rw [List.length_cons, List.range_succ, List.reverse_append, List.reverse_singleton,
      List.singleton_append, List.foldlM_cons, setNext?_eq hb, nextFrom]
    exact ih hrest _ _

theorem prevFrom_concat (prev : Option Nat) (row : Nat) (bs : List Bool) (b : Bool) :
    prevFrom prev [] row (bs ++ [b]) = prevFrom prev [] row bs ++
      [if b then (prevFrom prev [] row bs).getLastD prev else some (row + bs.length)] := by
  induction bs generalizing prev row with
  | nil => simp [prevFrom]
  | cons c bs ih =>
    simp only [List.cons_append, prevFrom]
    rw [prevFrom_append, ih, prevFrom_append _ [_]]
    simp only [List.reverse_singleton, List.cons_append, List.nil_append, List.getLastD_cons,
      List.length_cons, Nat.add_assoc, Nat.add_comm 1]

theorem pushPrev?_eq {blanks : List Bool} {b : Bool} (prev : List (Option Nat))
    (h : blanks[prev.length]? = some b) :
    pushPrev? blanks.toArray prev.toArray prev.length =
      some (prev ++ [if b then prev.getLastD none else some prev.length]).toArray := by
  simp only [pushPrev?, List.getElem?_toArray, h, Option.bind_eq_bind, Option.bind_some]
  cases b with
  | false => simp
  | true =>
    rcases List.eq_nil_or_concat prev with rfl | ⟨front, last, rfl⟩
    · rfl
    · simp

theorem foldlM_pushPrev? (blanks : List Bool) {n : Nat} (hn : n ≤ blanks.length) :
    (List.range n).foldlM (pushPrev? blanks.toArray) #[] =
      some (prevFrom none [] 0 (blanks.take n)).toArray := by
  induction n with
  | zero => rfl
  | succ n ih =>
    have hlen : (prevFrom none [] 0 (blanks.take n)).length = n := by
      rw [length_prevFrom, List.length_take]
      omega
    have hrow : blanks[n]? = some blanks[n] := List.getElem?_eq_getElem hn
    have hstep := pushPrev?_eq (prevFrom none [] 0 (blanks.take n)) (by rwa [hlen])
    rw [hlen] at hstep
    rw [List.range_succ, List.foldlM_append, ih (by omega), List.take_add_one, hrow,
      Option.toList_some, prevFrom_concat, List.length_take, Nat.min_eq_left (by omega),
      Nat.zero_add]
    simpa using hstep

theorem ofLines?_eq (lines : List (List Char)) : ofLines? lines = some (ofLines lines) := by
  have hsums := foldlM_pushSum? (lines.map List.length) [] 0
  have hnexts := foldlM_setNext? (lines.map Text.isBlank) (lines.map Text.isBlank).reverse (by simp)
    lines.length lines.length []
  have hprevs := foldlM_pushPrev? (lines.map Text.isBlank) (Nat.le_refl _)
  rw [List.take_length] at hprevs
  simp only [List.nil_append, List.length_reverse, List.length_map,
    ← List.replicate_succ'] at hsums hnexts hprevs
  simp only [ofLines?, ← List.toArray_replicate, hsums, hnexts, hprevs, Option.bind_eq_bind,
    Option.bind_some]
  rfl

end Building

section Measuring
variable (lines : List (List Char))

theorem size_offsets : (ofLines lines).offsets.size = lines.length + 1 := by
  simp [ofLines]

theorem getElem?_offsets {i : Nat} (h : i ≤ lines.length) :
    (ofLines lines).offsets[i]? = some ((ofLines lines).offsets.getD i 0) := by
  have hi : i < (ofLines lines).offsets.size := by
    rw [size_offsets]
    omega
  rw [Array.getD_eq_getD_getElem?, Array.getElem?_eq_getElem hi, Option.getD_some]

theorem offsets_mono {i j : Nat} (hij : i ≤ j) (hj : j ≤ lines.length) :
    (ofLines lines).offsets.getD i 0 ≤ (ofLines lines).offsets.getD j 0 := by
  rw [offsets_getD lines (by omega), offsets_getD lines hj]
  exact Text.sum_length_le_of_sublist (List.take_sublist_take_left hij)

theorem rowsLength?_eq {first last : Nat} (h : first ≤ last) :
    (ofLines lines).rowsLength? first last =
      some (if lines.length ≤ first then 0
        else (ofLines lines).offsets.getD (min last (lines.length - 1) + 1) 0 -
          (ofLines lines).offsets.getD first 0 + (min last (lines.length - 1) - first)) := by
  have hrows : minus? (ofLines lines).offsets.size 1 = some lines.length := by
    rw [size_offsets, minus?_of_le (by omega), Nat.add_sub_cancel]
  simp only [rowsLength?, hrows, Option.bind_eq_bind, Option.bind_some]
  split
  · rfl
  · rename_i hfirst
    have hmono := offsets_mono lines (i := first) (j := min last (lines.length - 1) + 1)
      (by omega) (by omega)
    rw [minus?_of_le (by omega), Option.bind_some, getElem?_offsets lines (by omega),
      getElem?_offsets lines (by omega), Option.bind_some, Option.bind_some, minus?_of_le hmono,
      Option.bind_some, minus?_of_le (by omega), Option.bind_some]
    rfl

theorem extractedLength?_eq {s : Span} (h : s.first ≤ s.last) :
    (ofLines lines).extractedLength? s = some ((ofLines lines).extractedLength s) := by
  have hfirst := min_nextText lines h
  have hlast := prevText_eq_trimLast lines (trimFirst_le lines.toArray h)
  have hle := le_trimLast lines.toArray (trimFirst_le lines.toArray h)
  simp only [extractedLength?, extractedLength, rowCount_ofLines, hfirst]
  cases hprev : (ofLines lines).prevText s.last <;>
    · simp only [hprev] at hlast ⊢
      rw [← hlast] at hle
      exact rowsLength?_eq lines hle

end Measuring

/-- The index of a text is built, the length of a span read from it and the span extracted without
going out of bounds, and the length is that of the extracted text. -/
theorem measures_extraction (text : List Char) {s : Span} (h : s.first ≤ s.last) :
    ofLines? (Text.splitLines text) = some (Source.ofText text).index ∧
      (Source.ofText text).index.extractedLength? s =
        some ((Source.ofText text).index.extractedLength s) ∧
      s.extract? (Source.ofText text).lines = some (s.extract (Source.ofText text).lines) ∧
      (Source.ofText text).index.extractedLength s =
        (s.extract (Source.ofText text).lines).text.length :=
  ⟨ofLines?_eq _, extractedLength?_eq _ h, Span.extract?_eq _ h, extractedLength_eq _ h⟩

/-- A span over all rows and past them: blank rows in front are trimmed, the one at the end is not
the end of the span and stays. -/
theorem measures_past_the_end :
    (0 : Nat) ≤ 7 ∧
      (Source.ofText "\n  \nab\r\n".toList).index.extractedLength? ⟨0, 7, "block"⟩ = some 3 ∧
      (Span.extract (Source.ofText "\n  \nab\r\n".toList).lines ⟨0, 7, "block"⟩).text.length = 3 := by
  obtain ⟨_, hlength, _, htext⟩ := measures_extraction "\n  \nab\r\n".toList
    (s := ⟨0, 7, "block"⟩) (by decide)
  have hthree :
      (Source.ofText "\n  \nab\r\n".toList).index.extractedLength ⟨0, 7, "block"⟩ = 3 := by
    decide
  exact ⟨by decide, by rw [hlength, hthree], by rw [← htext, hthree]⟩

end LineIndex

end CodeSearch
