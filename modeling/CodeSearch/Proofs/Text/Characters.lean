import CodeSearch.Proofs.Text.Tables
import CodeSearch.Text.LowerCase
import CodeSearch.Text.WhiteSpace
import CodeSearch.Text.WordChar

/-!
# Word characters and white space, lower case

No character is both a word character and white space. What lower case puts in place of a character
is its own lower case, so a text in lower case stays as it is.

Both are read off the rows of the tables, which say what holds of the characters they speak of.
-/

set_option autoImplicit false
set_option maxRecDepth 10000

namespace CodeSearch.Text

theorem forall_ascii {P : Char → Prop} (h : ∀ n < 0x80, P (Char.ofNat n)) {c : Char}
    (hascii : c.toNat < 0x80) : P c := by
  have hc := h c.toNat hascii
  rwa [Char.ofNat_toNat] at hc

theorem toNat_ofNat {n : Nat} (h : n.isValidChar) : (Char.ofNat n).toNat = n := by
  rw [Char.ofNat, dif_pos h]
  rfl

section White

/-- White space by code points. -/
def whiteRanges : List (Nat × Nat) :=
  [(9, 13), (32, 32), (0x85, 0x85), (0xA0, 0xA0), (0x1680, 0x1680), (0x2000, 0x200A),
    (0x2028, 0x2029), (0x202F, 0x202F), (0x205F, 0x205F), (0x3000, 0x3000)]

-- Line by line: one look at the whole table at once holds all of it in memory.
theorem wordSet_clearOfWhite :
    ∀ row ∈ wordSet.rows.toList, clearOf whiteRanges row = true := by
  apply Table.forall_ofRanges
  repeat' first
    | exact List.forall_mem_nil _
    | refine List.forall_mem_cons.mpr ⟨by rw [String.toList_ofList]; decide +kernel, ?_⟩

theorem exists_mem_whiteRanges {c : Char} (h : isWhite c = true) :
    ∃ ends ∈ whiteRanges, ends.1 ≤ c.toNat ∧ c.toNat ≤ ends.2 := by
  simp only [isWhite, Bool.or_eq_true, Bool.and_eq_true, decide_eq_true_eq, beq_iff_eq] at h
  simp only [whiteRanges, List.mem_cons, List.not_mem_nil, or_false, exists_eq_or_imp,
    exists_eq_left]
  omega

theorem isAsciiWord_of_isWhite {c : Char} (hascii : c.toNat < 0x80) :
    isWhite c = true → isAsciiWord c = false := by
  apply forall_ascii _ hascii
  decide +kernel

theorem isWord_of_isWhite {c : Char} (h : isWhite c = true) : isWord c = false := by
  unfold isWord
  split
  · rename_i hascii
    exact isAsciiWord_of_isWhite hascii h
  · exact Table.contains_eq_false wordSet_clearOfWhite (exists_mem_whiteRanges h)

end White

section Lower

/-- What lower case knows besides the table: the basic capitals, and the dotted capital I and the
capital sigma with two small forms each. -/
def basicRows : List TableRow :=
  [⟨0x41, 0x5A, [1, 0x61]⟩, ⟨0x130, 0x130, [1, 0x69]⟩, ⟨0x130, 0x130, [1, 0x307]⟩,
    ⟨0x3A3, 0x3A3, [1, 0x3C2]⟩, ⟨0x3A3, 0x3A3, [1, 0x3C3]⟩]

def caseRows : List TableRow := basicRows ++ lowerTable.rows.toList

/-- The row leaves the code point as it is. -/
def rests (n : Nat) (row : TableRow) : Bool :=
  Nat.blt n row.first || Nat.blt row.last n || Nat.beq (lowerPoint row n) n

/-- The least and the greatest code point that a row can put in place of another. -/
def imageEnds (row : TableRow) : Nat × Nat :=
  match row.entry with
  | [_, target] => (target, target + (row.last - row.first))
  | _ => (row.first, row.last)

/-- What the row puts in place of a code point is left as it is by the other. For most rows the two
ends tell. -/
def settles (row other : TableRow) : Bool :=
  Nat.blt (imageEnds row).2 other.first || Nat.blt other.last (imageEnds row).1 ||
    (List.range (row.last + 1 - row.first)).all fun i =>
      Nat.beq (lowerPoint row (row.first + i)) (row.first + i) ||
        rests (lowerPoint row (row.first + i)) other

theorem caseRows_settle : (caseRows.all fun row => caseRows.all (settles row)) = true := by
  unfold caseRows lowerTable
  rw [Table.toList_ofRanges]
  simp only [List.flatMap_cons, List.flatMap_nil]
  repeat rw [String.toList_ofList]
  decide +kernel

theorem rests_iff {n : Nat} {row : TableRow} :
    rests n row = true ↔ (row.first ≤ n → n ≤ row.last → lowerPoint row n = n) := by
  simp only [rests, Bool.or_eq_true, Nat.blt_eq, Nat.beq_eq]
  omega

theorem lowerPoint_imageEnds {row : TableRow} {n : Nat} (hlast : n ≤ row.last) :
    lowerPoint row n = n ∨
      (imageEnds row).1 ≤ lowerPoint row n ∧ lowerPoint row n ≤ (imageEnds row).2 := by
  unfold lowerPoint
  split
  · rename_i step target hentry
    split
    · simp only [imageEnds, hentry]
      omega
    · exact Or.inl rfl
  · exact Or.inl rfl

theorem rests_of_settles {row other : TableRow} (h : settles row other = true) {n : Nat}
    (hfirst : row.first ≤ n) (hlast : n ≤ row.last) :
    lowerPoint row n = n ∨ rests (lowerPoint row n) other = true := by
  rw [settles, Bool.or_eq_true, Bool.or_eq_true, Nat.blt_eq, Nat.blt_eq] at h
  rcases h with hends | hpoints
  · apply (lowerPoint_imageEnds hlast).imp_right
    rintro ⟨hlow, hhigh⟩
    rw [rests_iff]
    omega
  · have hmem : n - row.first ∈ List.range (row.last + 1 - row.first) :=
      List.mem_range.mpr (by omega)
    have hpoint := List.all_eq_true.mp hpoints _ hmem
    rw [Nat.add_sub_cancel' hfirst, Bool.or_eq_true, Nat.beq_eq] at hpoint
    exact hpoint

/-- Its own lower case, among others too. -/
def AtRest (c : Char) : Prop := c ≠ 'Σ' ∧ lowerChar c = [c]

theorem toLower_capital {c : Char} (hascii : c.toNat < 0x80) : c.toLower ≠ c →
    0x41 ≤ c.toNat ∧ c.toNat ≤ 0x5A ∧ c.toLower = Char.ofNat (0x61 + (c.toNat - 0x41)) := by
  apply forall_ascii _ hascii
  decide +kernel

theorem atRest_of_ascii {c : Char} (hascii : c.toNat < 0x80) (hlower : c.toLower = c) :
    AtRest c := by
  constructor
  · rintro rfl
    exact absurd hascii (by decide)
  · rw [lowerChar_ascii c hascii, hlower]

theorem basicRows_subset : basicRows ⊆ caseRows := List.subset_append_left _ _

theorem lowerChar_cases (c : Char) : lowerChar c = [c] ∨
    c.toNat = 0x130 ∧ lowerChar c = ['i', '\u0307'] ∨
    ∃ row ∈ caseRows, row.first ≤ c.toNat ∧ c.toNat ≤ row.last ∧
      lowerChar c = [Char.ofNat (lowerPoint row c.toNat)] := by
  unfold lowerChar
  split
  · rename_i hascii
    by_cases hsame : c.toLower = c
    · exact Or.inl (by rw [hsame])
    · obtain ⟨hlow, hhigh, himage⟩ := toLower_capital hascii hsame
      refine Or.inr (Or.inr ⟨_, basicRows_subset List.mem_cons_self, hlow, hhigh, ?_⟩)
      rw [himage]
      simp only [lowerPoint, Nat.mod_one, beq_self_eq_true, if_true]
  · split
    · rename_i hdot
      exact Or.inr (Or.inl ⟨beq_iff_eq.mp hdot, rfl⟩)
    · split
      · rename_i row hfound
        obtain ⟨hrow, hfirst, hlast⟩ := Table.mem_of_find? hfound
        exact Or.inr (Or.inr ⟨row, List.mem_append_right _ hrow, hfirst, hlast, rfl⟩)
      · exact Or.inl rfl

theorem atRest_of_rests {c : Char} (h : ∀ row ∈ caseRows, rests c.toNat row = true) : AtRest c := by
  have hbasic : ∀ row ∈ basicRows, rests c.toNat row = true :=
    fun row hrow => h row (basicRows_subset hrow)
  simp only [basicRows, List.forall_mem_cons, rests_iff, lowerPoint, Nat.mod_one,
    beq_self_eq_true, if_true] at hbasic
  obtain ⟨-, hdotted, -, hsigma, -⟩ := hbasic
  constructor
  · rintro rfl
    exact absurd (hsigma (by decide) (by decide)) (by decide)
  · rcases lowerChar_cases c with hsame | ⟨hdot, -⟩ | ⟨row, hrow, hfirst, hlast, himage⟩
    · exact hsame
    · omega
    · rw [himage, rests_iff.mp (h row hrow) hfirst hlast, Char.ofNat_toNat]

theorem atRest_image {row : TableRow} (hrow : row ∈ caseRows) {n : Nat} (hfirst : row.first ≤ n)
    (hlast : n ≤ row.last) (hmoved : lowerPoint row n ≠ n) :
    AtRest (Char.ofNat (lowerPoint row n)) := by
  by_cases hvalid : (lowerPoint row n).isValidChar
  · apply atRest_of_rests
    intro other hother
    have hsettles := List.all_eq_true.mp (List.all_eq_true.mp caseRows_settle row hrow) other hother
    rw [toNat_ofNat hvalid]
    exact (rests_of_settles hsettles hfirst hlast).resolve_left hmoved
  · rw [Char.ofNat, dif_neg hvalid]
    exact atRest_of_ascii (by decide) (by decide)

theorem exists_row_of_mem_lowerChar {c d : Char} (hmoved : lowerChar c ≠ [c])
    (h : d ∈ lowerChar c) : ∃ row ∈ caseRows, row.first ≤ c.toNat ∧ c.toNat ≤ row.last ∧
      lowerPoint row c.toNat ≠ c.toNat ∧ d = Char.ofNat (lowerPoint row c.toNat) := by
  have hbasic : ∀ row ∈ basicRows, row ∈ caseRows := fun row hrow => basicRows_subset hrow
  simp only [basicRows, List.forall_mem_cons] at hbasic
  obtain ⟨-, hletter, hmark, -⟩ := hbasic
  rcases lowerChar_cases c with hsame | ⟨hdot, hparts⟩ | ⟨row, hrow, hfirst, hlast, himage⟩
  · exact absurd hsame hmoved
  · rw [hparts] at h
    rw [hdot]
    rcases List.mem_cons.mp h with rfl | h
    · exact ⟨_, hletter, by decide, by decide, by decide, by decide⟩
    · obtain rfl := List.mem_singleton.mp h
      exact ⟨_, hmark, by decide, by decide, by decide, by decide⟩
  · rw [himage] at h
    refine ⟨row, hrow, hfirst, hlast, ?_, List.mem_singleton.mp h⟩
    intro hsame
    rw [himage, hsame, Char.ofNat_toNat] at hmoved
    exact hmoved rfl

theorem atRest_of_mem_lowerChar {c d : Char} (hc : c ≠ 'Σ') (h : d ∈ lowerChar c) : AtRest d := by
  by_cases hsame : lowerChar c = [c]
  · rw [hsame] at h
    obtain rfl := List.mem_singleton.mp h
    exact ⟨hc, hsame⟩
  · obtain ⟨row, hrow, hfirst, hlast, hmoved, rfl⟩ := exists_row_of_mem_lowerChar hsame h
    exact atRest_image hrow hfirst hlast hmoved

theorem atRest_sigma {small : Char} (h : small = 'ς' ∨ small = 'σ') : AtRest small := by
  have hrows : ∀ row ∈ basicRows, row ∈ caseRows := fun row hrow => basicRows_subset hrow
  simp only [basicRows, List.forall_mem_cons] at hrows
  obtain ⟨-, -, -, hfinal, hinner, -⟩ := hrows
  rcases h with rfl | rfl
  · exact atRest_image (n := 0x3A3) hfinal (by decide) (by decide) (by decide)
  · exact atRest_image (n := 0x3A3) hinner (by decide) (by decide) (by decide)

theorem atRest_of_mem_lowerFrom {cs : List Char} : ∀ {before out : List Char},
    (∀ c ∈ out, AtRest c) → ∀ c ∈ lowerFrom before out cs, AtRest c := by
  induction cs with
  | nil =>
    intro before out hout c hc
    exact hout c (List.mem_reverse.mp hc)
  | cons d cs ih =>
    intro before out hout c hc
    rw [lowerFrom] at hc
    split at hc
    · refine ih (List.forall_mem_cons.mpr ⟨atRest_sigma ?_, hout⟩) c hc
      split
      · exact Or.inl rfl
      · exact Or.inr rfl
    · rename_i hd
      refine ih (fun c hc => ?_) c hc
      rcases List.mem_append.mp hc with hc | hc
      · exact atRest_of_mem_lowerChar (fun heq => hd (beq_iff_eq.mpr heq)) (List.mem_reverse.mp hc)
      · exact hout c hc

theorem atRest_of_mem_lowerCase {cs : List Char} {c : Char} (h : c ∈ lowerCase cs) : AtRest c :=
  atRest_of_mem_lowerFrom (List.forall_mem_nil _) c h

theorem lowerCase_of_atRest {cs : List Char} (h : ∀ c ∈ cs, AtRest c) : lowerCase cs = cs := by
  have hfrom : ∀ before out, lowerFrom before out cs = out.reverse ++ cs := by
    induction cs with
    | nil => exact fun _ out => (List.append_nil _).symm
    | cons c cs ih =>
      obtain ⟨⟨hsigma, hlower⟩, hcs⟩ := List.forall_mem_cons.mp h
      intro before out
      rw [lowerFrom, if_neg (by rwa [beq_iff_eq]), hlower, ih hcs, List.reverse_append,
        List.reverse_reverse, List.append_assoc]
      rfl
  exact hfrom [] []

end Lower

end CodeSearch.Text
