import CodeSearch.Proofs.Naming.Canonical
import CodeSearch.Proofs.Text.LowerCase
import CodeSearch.Proofs.Text.Runs

/-!
# Spellings of one name

A normalized name has the shape that names have, and it leaves out of its input what spellings of
one name differ in: what stands between the letters, digits and dots of the folded input, the case
of basic letters, and the marks that folding drops. What is left of a character in a name is a
matter of the character alone.
-/

set_option autoImplicit false

namespace CodeSearch.ProjectName
open Text

section Gaps

/-- Folded texts that are the same but for their gaps: where one has other characters than names
have, the other has some too. -/
inductive SameButGaps : List Char → List Char → Prop where
  | nil : SameButGaps [] []
  | keep {c : Char} {cs ds : List Char} : isNameChar c = true → SameButGaps cs ds →
      SameButGaps (c :: cs) (c :: ds)
  | gap {gap gap' cs ds : List Char} : gap ≠ [] → (∀ c ∈ gap, isNameChar c = false) →
      gap' ≠ [] → (∀ c ∈ gap', isNameChar c = false) → SameButGaps cs ds →
      SameButGaps (gap ++ cs) (gap' ++ ds)

theorem SameButGaps.squeezeFrom_eq {cs ds : List Char} (h : SameButGaps cs ds) (inRun : Bool) :
    squeezeFrom (fun c => !isNameChar c) '-' inRun cs =
      squeezeFrom (fun c => !isNameChar c) '-' inRun ds := by
  induction h generalizing inRun with
  | nil => rfl
  | keep hc _ ih =>
    rw [squeezeFrom, squeezeFrom, hc, Bool.not_true, if_neg Bool.false_ne_true,
      if_neg Bool.false_ne_true, ih]
  | gap hne hgap hne' hgap' _ ih =>
    simp only [← Bool.not_eq_true'] at hgap hgap'
    cases inRun with
    | false => rw [squeezeFrom_gap hgap hne, squeezeFrom_gap hgap' hne', ih]
    | true => rw [squeezeFrom_true_gap hgap, squeezeFrom_true_gap hgap', ih]

theorem SameButGaps.ofFolded_eq {cs ds : List Char} (h : SameButGaps cs ds) :
    ofFolded cs = ofFolded ds := by
  have hdashed :
      squeeze (fun c => !isNameChar c) '-' cs = squeeze (fun c => !isNameChar c) '-' ds :=
    h.squeezeFrom_eq false
  rw [ofFolded, ofFolded, dash, dash, hdashed]

/-- The folded text with a dash for each character that names do not have. -/
def mask (c : Char) : Char := if isNameChar c then c else '-'

theorem mask_of_isNameChar {c : Char} (h : isNameChar c = true) : mask c = c := by
  rw [mask, if_pos h]

theorem mask_of_not_isNameChar {c : Char} (h : isNameChar c = false) : mask c = '-' := by
  rw [mask, h, if_neg Bool.false_ne_true]

theorem isNameChar_mask (c : Char) : isNameChar (mask c) = isNameChar c := by
  cases h : isNameChar c with
  | true => rw [mask_of_isNameChar h, h]
  | false =>
    rw [mask_of_not_isNameChar h]
    rfl

theorem sameButGaps_of_mask {cs ds : List Char} (h : cs.map mask = ds.map mask) :
    SameButGaps cs ds := by
  induction cs generalizing ds with
  | nil =>
    obtain rfl := List.map_eq_nil_iff.mp h.symm
    exact .nil
  | cons c cs ih =>
    obtain ⟨d, ds, rfl⟩ := List.exists_cons_of_ne_nil (l := ds) (by
      rintro rfl
      cases h)
    obtain ⟨hfirst, hrest⟩ := List.cons.inj h
    have hkind : isNameChar c = isNameChar d := by
      rw [← isNameChar_mask c, hfirst, isNameChar_mask d]
    cases hc : isNameChar c with
    | true =>
      rw [hc] at hkind
      rw [mask_of_isNameChar hc, mask_of_isNameChar hkind.symm] at hfirst
      subst hfirst
      exact .keep hc (ih hrest)
    | false =>
      rw [hc] at hkind
      exact .gap (List.cons_ne_nil c []) (List.forall_mem_singleton.mpr hc) (List.cons_ne_nil d [])
        (List.forall_mem_singleton.mpr hkind.symm) (ih hrest)

end Gaps

section Imprints

/-- A row that puts no basic character in place of one beyond the first marks, the sign of Kelvin
apart. -/
def staysHigh (row : TableRow) : Bool :=
  Nat.blt row.last 0x300 || Nat.ble 0x80 (imageEnds row).1 ||
    (Nat.beq row.first 0x212A && Nat.beq row.last 0x212A)

theorem caseRows_stayHigh : caseRows.all staysHigh = true := by
  unfold caseRows lowerTable
  rw [Table.toList_ofRanges]
  simp only [List.flatMap_cons, List.flatMap_nil]
  repeat rw [String.toList_ofList]
  decide +kernel

theorem isNameChar_of_le {c : Char} (h : 0x80 ≤ c.toNat) : isNameChar c = false := by
  refine eq_false_of_ne_true fun hname => ?_
  rcases isNameChar_bounds hname with rfl | hletter | hdigit
  · exact absurd h (by decide)
  · omega
  · omega

theorem isNameChar_ofNat {n : Nat} (h : 0x80 ≤ n) : isNameChar (Char.ofNat n) = false := by
  by_cases hvalid : n.isValidChar
  · exact isNameChar_of_le (by rwa [toNat_ofNat hvalid])
  · rw [Char.ofNat, dif_neg hvalid]
    decide

theorem mask_lowerChar {c : Char} (hhigh : 0x300 ≤ c.toNat) (hkelvin : c.toNat ≠ 0x212A) :
    (lowerChar c).map mask = ['-'] := by
  obtain ⟨d, hd, hnot⟩ : ∃ d, lowerChar c = [d] ∧ isNameChar d = false := by
    rcases lowerChar_cases c with hsame | ⟨hdot, -⟩ | ⟨row, hrow, hfirst, hlast, himage⟩
    · exact ⟨c, hsame, isNameChar_of_le (by omega)⟩
    · omega
    · refine ⟨_, himage, isNameChar_ofNat ?_⟩
      have hstays := List.all_eq_true.mp caseRows_stayHigh row hrow
      simp only [staysHigh, Bool.or_eq_true, Bool.and_eq_true, Nat.blt_eq, Nat.ble_eq,
        Nat.beq_eq] at hstays
      rcases @lowerPoint_imageEnds row c.toNat hlast with hpoint | hpoint
      · omega
      · omega
  rw [hd, List.map_singleton, mask_of_not_isNameChar hnot]

/-- What is left of a part of a character in the masked text. -/
def trace (c : Char) : List Char := if isDroppedMark c then [] else (lowerChar c).map mask

/-- What is left of a character in the masked text. -/
def imprint (c : Char) : List Char := (decomposeChar c).flatMap trace

theorem trace_of_class {c : Char} (h : combiningClass c ≠ 0) : trace c = [] ∨ trace c = ['-'] := by
  unfold trace
  split
  · exact Or.inl rfl
  · refine Or.inr (mask_lowerChar ?_ ?_)
    · by_contra hlow
      exact h (combiningClass_of_lt (by omega))
    · intro hkelvin
      have hnone := Table.find?_eq_none combiningTable_clearOfKelvin (c := c)
        ⟨_, List.mem_singleton_self _, by omega, by omega⟩
      apply h
      unfold combiningClass
      rw [hnone]
      split
      · rfl
      · rfl

theorem unordered_trace : Unordered trace := by
  intro c d hc hd
  rcases trace_of_class hc with hc | hc
  · rw [hc, List.append_nil, List.nil_append]
  · rcases trace_of_class hd with hd | hd
    · rw [hd, List.append_nil, List.nil_append]
    · rw [hc, hd]

theorem flatMap_kept {f g : Char → List Char}
    (h : ∀ c, g c = if isDroppedMark c then [] else f c) (cs : List Char) :
    (cs.filter fun c => !isDroppedMark c).flatMap f = cs.flatMap g := by
  induction cs with
  | nil => rfl
  | cons c cs ih =>
    rw [List.flatMap_cons, h c, ← ih]
    cases hmark : isDroppedMark c with
    | true => rw [List.filter_cons_of_neg (by rw [hmark]; exact Bool.false_ne_true)]; rfl
    | false => rw [List.filter_cons_of_pos (by rw [hmark]; rfl), List.flatMap_cons]; rfl

theorem map_mask_fold (input : List Char) : (fold input).map mask = input.flatMap imprint := by
  have hsigma : ∀ small, small = 'ς' ∨ small = 'σ' → [mask small] = (lowerChar 'Σ').map mask := by
    rw [mask_lowerChar (c := 'Σ') (by decide) (by decide)]
    rintro small (rfl | rfl)
    · decide
    · decide
  rw [fold, map_lowerCase hsigma, flatMap_kept (g := trace) fun _ => rfl,
    flatMap_decompose unordered_trace]
  rfl

theorem isDroppedMark_of_mem_decomposeChar {c d : Char} (h : isDroppedMark c = true)
    (hd : d ∈ decomposeChar c) : isDroppedMark d = true := by
  have hblock := h
  simp only [isDroppedMark, Bool.and_eq_true, decide_eq_true_eq] at hblock
  unfold decomposeChar at hd
  rw [if_neg (by omega), if_neg (by
    rw [Bool.and_eq_true, decide_eq_true_eq, decide_eq_true_eq]
    omega)] at hd
  split at hd
  · rename_i row hfound
    obtain ⟨hrow, hspeaks⟩ := Table.mem_of_find? hfound
    obtain ⟨n, hn, rfl⟩ := List.mem_map.mp hd
    have hkeeps := decompositionTable_keepsBlock row hrow
    rw [keepsBlock, Bool.or_eq_true] at hkeeps
    rcases hkeeps with hclear | hentry
    · exact absurd hspeaks
        (not_speaks_of_clearOf hclear ⟨_, List.mem_singleton_self _, hblock.1, hblock.2⟩)
    · have hin := List.all_eq_true.mp hentry n hn
      rw [Bool.and_eq_true, Nat.ble_eq, Nat.ble_eq] at hin
      have hvalid : n.isValidChar := Or.inl (by omega)
      simp only [isDroppedMark, Bool.and_eq_true, decide_eq_true_eq, toNat_ofNat hvalid]
      exact hin
  · rwa [List.mem_singleton.mp hd]

theorem imprint_of_isDroppedMark {c : Char} (h : isDroppedMark c = true) : imprint c = [] := by
  apply List.flatMap_eq_nil_iff.mpr
  intro d hd
  rw [trace, isDroppedMark_of_mem_decomposeChar h hd, if_pos rfl]

theorem imprint_toLower (c : Char) : imprint c.toLower = imprint c := by
  by_cases hascii : c.toNat < 0x80
  · have hlower : c.toLower.toNat < 0x80 ∧ c.toLower.toLower = c.toLower := by
      apply forall_ascii _ hascii
      decide +kernel
    have himprint : ∀ d : Char, d.toNat < 0x80 → imprint d = [mask d.toLower] := by
      intro d hd
      have hkept : isDroppedMark d = false := by
        simp only [isDroppedMark, Bool.and_eq_false_iff, decide_eq_false_iff_not]
        omega
      rw [imprint, decomposeChar_of_lt (by omega), List.flatMap_singleton, trace, hkept,
        if_neg Bool.false_ne_true, lowerChar_ascii d hd, List.map_singleton]
    have hsmall := himprint c.toLower hlower.1
    rw [hlower.2] at hsmall
    exact hsmall.trans (himprint c hascii).symm
  · have hsame : c.toLower = c := by
      unfold Char.toLower
      split
      · rename_i hupper
        have hlast : c.toNat ≤ 90 := hupper.2
        omega
      · rfl
    rw [hsame]

end Imprints

section Names

/-- A spelling without the marks that folding drops, and with basic letters in one case. -/
def bare (input : String) : List Char :=
  (input.toList.filter fun c => !isDroppedMark c).map Char.toLower

theorem flatMap_imprint_bare (input : String) :
    (bare input).flatMap imprint = input.toList.flatMap imprint := by
  have hdropped : ∀ c, imprint c = if isDroppedMark c then [] else imprint c := by
    intro c
    split
    · rename_i hmark
      exact imprint_of_isDroppedMark hmark
    · rfl
  rw [bare, List.flatMap_map]
  simp only [imprint_toLower]
  exact flatMap_kept hdropped input.toList

theorem sameButGaps_of_bare {input other : String} (h : bare other = bare input) :
    SameButGaps (fold other.toList) (fold input.toList) := by
  apply sameButGaps_of_mask
  rw [map_mask_fold, map_mask_fold, ← flatMap_imprint_bare, h, flatMap_imprint_bare]

theorem normalize_eq_of_sameButGaps {input other : String}
    (h : SameButGaps (fold other.toList) (fold input.toList)) :
    normalize other = normalize input := by
  rw [normalize, h.ofFolded_eq, ← normalize]

/-- A name is short and has letters, digits and single dots and dashes, a letter or digit first. It
is shared by all spellings whose folded forms differ only in what their gaps are made of, and so by
those that differ only in the case of basic letters and in marks that folding drops. -/
theorem formed_and_shared_by_spellings (input : String) :
    (1 ≤ (normalize input).length ∧ (normalize input).length ≤ 100) ∧
    (∀ c ∈ (normalize input).toList,
      'a' ≤ c ∧ c ≤ 'z' ∨ '0' ≤ c ∧ c ≤ '9' ∨ c = '.' ∨ c = '-') ∧
    (∃ c ∈ (normalize input).toList.head?, 'a' ≤ c ∧ c ≤ 'z' ∨ '0' ≤ c ∧ c ≤ '9') ∧
    ¬ ['.', '.'] <:+: (normalize input).toList ∧
    ¬ ['-', '-'] <:+: (normalize input).toList ∧
    (∀ other : String, SameButGaps (fold other.toList) (fold input.toList) →
      normalize other = normalize input) ∧
    ∀ other : String, bare other = bare input → normalize other = normalize input := by
  have hformed : Formed (normalize input).toList := by
    rw [normalize, String.toList_ofList]
    exact formed_ofFolded _
  have hchars : ∀ c ∈ (normalize input).toList,
      'a' ≤ c ∧ c ≤ 'z' ∨ '0' ≤ c ∧ c ≤ '9' ∨ c = '.' ∨ c = '-' := by
    intro c hc
    have hchar := hformed.tidy.chars c hc
    simpa only [isNameChar, Bool.or_eq_true, Bool.and_eq_true, decide_eq_true_eq, beq_iff_eq,
      or_assoc] using hchar
  obtain ⟨first, hfirst, hunmarked⟩ := hformed.front
  refine ⟨⟨?_, hformed.short⟩, hchars, ⟨first, hfirst, ?_⟩, ?_, ?_,
    fun other => normalize_eq_of_sameButGaps,
    fun other h => normalize_eq_of_sameButGaps (sameButGaps_of_bare h)⟩
  · rw [← String.length_toList]
    exact List.length_pos_of_mem (List.mem_of_mem_head? hfirst)
  · rw [isMark, Bool.or_eq_false_iff, beq_eq_false_iff_ne, beq_eq_false_iff_ne] at hunmarked
    rcases hchars first (List.mem_of_mem_head? hfirst) with hletter | hdigit | hdot | hdash
    · exact Or.inl hletter
    · exact Or.inr hdigit
    · exact absurd hdot hunmarked.1
    · exact absurd hdash hunmarked.2
  · intro hdots
    have hpair := List.IsChain.infix hformed.tidy.dots hdots
    exact hpair.rel ⟨rfl, rfl⟩
  · intro hdashes
    have hpair := List.IsChain.infix hformed.tidy.dashes hdashes
    exact hpair.rel ⟨rfl, rfl⟩

theorem one_name_for_spellings_of_cafe :
    SameButGaps (fold "le_cafe".toList) (fold "le, cafe".toList) ∧
    bare "LE, Cafe\u0301" = bare "le, cafe" ∧
    normalize "le_cafe" = normalize "le, cafe" ∧
    normalize "LE, Cafe\u0301" = normalize "le, cafe" := by
  obtain ⟨-, -, -, -, -, hgaps, hbare⟩ := formed_and_shared_by_spellings "le, cafe"
  have hplain : ∀ cs : List Char, cs.all (fun c => c.toNat < 0x80 ∧ c.toLower = c) = true →
      fold cs = cs :=
    fun cs h => fold_eq_self fun c hc => of_decide_eq_true (List.all_eq_true.mp h c hc)
  have hgap : ∀ c ∈ ['_'], isNameChar c = false := List.forall_mem_singleton.mpr (by decide)
  have hgap' : ∀ c ∈ [',', ' '], isNameChar c = false :=
    List.forall_mem_cons.mpr ⟨by decide, List.forall_mem_singleton.mpr (by decide)⟩
  have hcafe : SameButGaps "cafe".toList "cafe".toList := sameButGaps_of_mask rfl
  have hsame : SameButGaps (fold "le_cafe".toList) (fold "le, cafe".toList) := by
    rw [hplain _ (by decide), hplain _ (by decide)]
    exact .keep (by decide) (.keep (by decide)
      (.gap (List.cons_ne_nil _ _) hgap (List.cons_ne_nil _ _) hgap' hcafe))
  have hletters : bare "LE, Cafe\u0301" = bare "le, cafe" := by decide
  exact ⟨hsame, hletters, hgaps _ hsame, hbare _ hletters⟩

end Names

end CodeSearch.ProjectName
