import CodeSearch.Text.Table

/-!
# Reading tables

The rows of a table are those of its lines, one line after the other. A look-up that finds a row
finds one that speaks of the character.
-/

set_option autoImplicit false

namespace CodeSearch.Text

namespace TableReader

/-- The reader when other rows have been read before its own. -/
def behind (rows : Array (List Nat)) (r : TableReader) : TableReader :=
  { r with rows := rows ++ r.rows }

theorem endField_behind (rows : Array (List Nat)) (r : TableReader) :
    (r.behind rows).endField = r.endField.behind rows := by
  obtain ⟨_, _, number⟩ := r
  cases number with
  | none => rfl
  | some n => rfl

theorem endRow_behind (rows : Array (List Nat)) (r : TableReader) :
    (r.behind rows).endRow = r.endRow.behind rows := by
  unfold endRow
  rw [endField_behind]
  simp only [behind, Array.append_push]

theorem step_behind (rows : Array (List Nat)) (r : TableReader) (c : Char) :
    (r.behind rows).step c = (r.step c).behind rows := by
  unfold step
  split
  · exact endRow_behind rows r
  · split
    · exact endField_behind rows r
    · rfl

theorem foldl_step_behind (rows : Array (List Nat)) (r : TableReader) (line : List Char) :
    line.foldl step (r.behind rows) = (line.foldl step r).behind rows := by
  induction line generalizing r with
  | nil => rfl
  | cons c line ih => rw [List.foldl_cons, List.foldl_cons, step_behind, ih]

/-- Nothing is left of a row that is ended. -/
theorem endRow_eq (r : TableReader) : r.endRow = { rows := r.endRow.rows } := by
  obtain ⟨_, _, number⟩ := r
  cases number with
  | none => rfl
  | some n => rfl

end TableReader

def lineRows (line : List Char) : List (List Nat) :=
  (line.foldl TableReader.step {}).endRow.rows.toList

theorem toList_tableRows (lines : List String) :
    (tableRows lines).toList = lines.flatMap fun line => lineRows line.toList := by
  have hread : ∀ rows : Array (List Nat),
      (lines.foldl (fun r (line : String) => (line.toList.foldl TableReader.step r).endRow)
        ({ rows } : TableReader)).rows.toList =
          rows.toList ++ lines.flatMap fun line => lineRows line.toList := by
    induction lines with
    | nil => exact fun rows => (List.append_nil _).symm
    | cons line lines ih =>
      intro rows
      have hline : (line.toList.foldl TableReader.step { rows }).endRow =
          { rows := rows ++ (lineRows line.toList).toArray } := by
        have hstart : ({ rows } : TableReader) = TableReader.behind rows {} := by
          rw [TableReader.behind, Array.append_empty]
        rw [hstart, TableReader.foldl_step_behind, TableReader.endRow_behind,
          TableReader.endRow_eq]
        rfl
      rw [List.foldl_cons, hline, ih, List.flatMap_cons, Array.toList_append, List.append_assoc]
  exact hread #[]

/-- A row of one code point, or of the two ends of a range and what is said of them. -/
def rangeRow : List Nat → TableRow
  | first :: last :: entry => ⟨first, last, entry⟩
  | [c] => ⟨c, c, []⟩
  | [] => ⟨1, 0, []⟩

def rangeRows (line : List Char) : List TableRow := (lineRows line).map rangeRow

/-- A row of one code point and of what is said of it. -/
def pointRow : List Nat → TableRow
  | c :: entry => ⟨c, c, entry⟩
  | [] => ⟨1, 0, []⟩

def pointRows (line : List Char) : List TableRow := (lineRows line).map pointRow

/-- A row that speaks of no code point in any of the ranges. -/
def clearOf (ranges : List (Nat × Nat)) (row : TableRow) : Bool :=
  ranges.all fun (first, last) => Nat.blt row.last first || Nat.blt last row.first

theorem not_speaks_of_clearOf {ranges : List (Nat × Nat)} {row : TableRow}
    (h : clearOf ranges row = true) {n : Nat} (hn : ∃ ends ∈ ranges, ends.1 ≤ n ∧ n ≤ ends.2) :
    ¬ (row.first ≤ n ∧ n ≤ row.last) := by
  obtain ⟨ends, hends, hlow, hhigh⟩ := hn
  have hclear := List.all_eq_true.mp h ends hends
  rw [Bool.or_eq_true, Nat.blt_eq, Nat.blt_eq] at hclear
  omega

namespace Table

theorem toList_map_tableRows (f : List Nat → TableRow) (lines : List String) :
    ((tableRows lines).map f).toList = lines.flatMap fun line => (lineRows line.toList).map f := by
  rw [Array.toList_map, toList_tableRows, List.map_flatMap]

theorem toList_ofRanges (lines : List String) :
    (ofRanges lines).rows.toList = lines.flatMap fun line => rangeRows line.toList :=
  toList_map_tableRows rangeRow lines

section Checks
variable {p : TableRow → Bool}

/-- What is checked line by line holds of all rows. -/
theorem forall_map_tableRows {f : List Nat → TableRow} {lines : List String}
    (h : ∀ line ∈ lines, ((lineRows line.toList).map f).all p = true) :
    ∀ row ∈ ((tableRows lines).map f).toList, p row = true := by
  rw [toList_map_tableRows]
  intro row hrow
  obtain ⟨line, hline, hrow⟩ := List.mem_flatMap.mp hrow
  exact List.all_eq_true.mp (h line hline) row hrow

theorem forall_ofRanges {lines : List String}
    (h : ∀ line ∈ lines, (rangeRows line.toList).all p = true) :
    ∀ row ∈ (ofRanges lines).rows.toList, p row = true := forall_map_tableRows h

theorem forall_ofPoints {lines : List String}
    (h : ∀ line ∈ lines, (pointRows line.toList).all p = true) :
    ∀ row ∈ (ofPoints lines).rows.toList, p row = true := forall_map_tableRows h

end Checks

variable {t : Table}

theorem mem_of_findBetween {n lo hi : Nat} {row : TableRow}
    (h : t.findBetween n lo hi = some row) :
    row ∈ t.rows.toList ∧ row.first ≤ n ∧ n ≤ row.last := by
  fun_induction findBetween t n lo hi with
  | case1 lo hi hlt mid hnone => cases h
  | case2 lo hi hlt mid other hmid hbelow ih => exact ih h
  | case3 lo hi hlt mid other hmid hbelow habove ih => exact ih h
  | case4 lo hi hlt mid other hmid hbelow habove =>
    obtain rfl := Option.some.inj h
    exact ⟨Array.mem_toList_iff.mpr (Array.mem_of_getElem? hmid), by omega, by omega⟩
  | case5 lo hi hnone => cases h

theorem mem_of_find? {c : Char} {row : TableRow} (h : t.find? c = some row) :
    row ∈ t.rows.toList ∧ row.first ≤ c.toNat ∧ c.toNat ≤ row.last := mem_of_findBetween h

theorem find?_eq_none {ranges : List (Nat × Nat)}
    (h : ∀ row ∈ t.rows.toList, clearOf ranges row = true) {c : Char}
    (hc : ∃ ends ∈ ranges, ends.1 ≤ c.toNat ∧ c.toNat ≤ ends.2) : t.find? c = none := by
  cases hfound : t.find? c with
  | none => rfl
  | some row =>
    obtain ⟨hrow, hspeaks⟩ := mem_of_find? hfound
    exact absurd hspeaks (not_speaks_of_clearOf (h row hrow) hc)

theorem contains_eq_false {ranges : List (Nat × Nat)}
    (h : ∀ row ∈ t.rows.toList, clearOf ranges row = true) {c : Char}
    (hc : ∃ ends ∈ ranges, ends.1 ≤ c.toNat ∧ c.toNat ≤ ends.2) : t.contains c = false := by
  rw [contains, find?_eq_none h hc, Option.isSome_none]

end Table

end CodeSearch.Text
