import CodeSearch.ProjectName
import CodeSearch.Proofs.Text.Characters
import CodeSearch.Proofs.Text.Decomposition
import CodeSearch.Proofs.Text.Squeezing

/-!
# Shape of project names

A normalized name has basic letters, digits, dots and dashes, at most `maxLength` of them, no two
dots and no two dashes in a row, and it starts with a letter or digit. Normalizing it once more
changes nothing in it but its end: a name that was cut right behind a dot or a dash loses those.
-/

set_option autoImplicit false

namespace CodeSearch.Text

theorem lowerCase_eq_self {cs : List Char} (h : ∀ c ∈ cs, c.toNat < 0x80 ∧ c.toLower = c) :
    lowerCase cs = cs :=
  lowerCase_of_atRest fun c hc => atRest_of_ascii (h c hc).1 (h c hc).2

end CodeSearch.Text

namespace CodeSearch.ProjectName
open Text

def isMark (c : Char) : Bool := c == '.' || c == '-'

theorem trimEnds_eq (cs : List Char) : trimEnds cs = (cs.dropWhile isMark).rdropWhile isMark :=
  trimWhere_eq isMark cs

/-- Spelled with name characters and dashes, no two dashes and no two dots in a row. -/
structure Tidy (cs : List Char) : Prop where
  chars : ∀ c ∈ cs, isNameChar c = true ∨ c = '-'
  dashes : cs.IsChain (Lone (· == '-'))
  dots : cs.IsChain (Lone (· == '.'))

theorem Tidy.of_isInfix {cs ds : List Char} (h : Tidy cs) (hds : ds <:+: cs) : Tidy ds := by
  constructor
  · exact fun c hc => h.chars c (hds.subset hc)
  · exact List.IsChain.infix h.dashes hds
  · exact List.IsChain.infix h.dots hds

theorem isNameChar_bounds {c : Char} (h : isNameChar c = true) :
    c = '.' ∨ 97 ≤ c.toNat ∧ c.toNat ≤ 122 ∨ 48 ≤ c.toNat ∧ c.toNat ≤ 57 := by
  unfold isNameChar at h
  rw [Bool.or_eq_true, Bool.or_eq_true, Bool.and_eq_true, Bool.and_eq_true, beq_iff_eq] at h
  rcases h with (h | h) | h
  · exact Or.inr (Or.inl ⟨of_decide_eq_true h.1, of_decide_eq_true h.2⟩)
  · exact Or.inr (Or.inr ⟨of_decide_eq_true h.1, of_decide_eq_true h.2⟩)
  · exact Or.inl h

section Dash

theorem lone_of_ne {p : Char → Bool} {a b : Char} (h : p a = false ∨ p b = false) : Lone p a b := by
  rintro ⟨ha, hb⟩
  rcases h with h | h
  · rw [ha] at h
    cases h
  · rw [hb] at h
    cases h

theorem tidy_dash (folded : List Char) : Tidy (dash folded) := by
  have hinner : ∀ c ∈ squeeze (fun c => !isNameChar c) '-' folded,
      isNameChar c = true ∨ c = '-' := by
    intro c hc
    rcases mem_squeezeFrom hc with rfl | ⟨-, hname⟩
    · exact Or.inr rfl
    · simp only [Bool.not_eq_false'] at hname
      exact Or.inl hname
  constructor
  · intro c hc
    rcases mem_squeezeFrom hc with rfl | ⟨hin, -⟩
    · exact Or.inl rfl
    · exact hinner c hin
  · -- Squeezing the dots afterwards brings no two dashes together: a dot stays between them.
    have hlone : (squeeze (fun c => !isNameChar c) '-' folded).IsChain (Lone (· == '-')) := by
      apply (isChain_lone_squeeze folded).imp
      rintro a b hab ⟨ha, hb⟩
      rw [beq_iff_eq] at ha hb
      subst ha hb
      exact hab ⟨rfl, rfl⟩
    apply isChain_squeeze _ _ hlone
    · exact fun c => lone_of_ne (Or.inl rfl)
    · exact fun c => lone_of_ne (Or.inr rfl)
  · exact isChain_lone_squeeze _

theorem Tidy.dash_eq_self {cs : List Char} (h : Tidy cs) : dash cs = cs := by
  have hdash : ∀ c ∈ cs, (!isNameChar c) = true → c = '-' := by
    intro c hc hname
    rcases h.chars c hc with hc | hc
    · rw [hc] at hname
      cases hname
    · exact hc
  have hlone : cs.IsChain (Lone fun c => !isNameChar c) := by
    apply h.dashes.imp_of_mem_imp
    rintro a b ha hb hab ⟨hna, hnb⟩
    exact hab ⟨beq_iff_eq.mpr (hdash a ha hna), beq_iff_eq.mpr (hdash b hb hnb)⟩
  unfold dash
  rw [squeeze_eq_self hdash hlone]
  exact squeeze_eq_self (fun c _ hc => beq_iff_eq.mp hc) h.dots

end Dash

section Fold

theorem Tidy.ascii {cs : List Char} (h : Tidy cs) {c : Char} (hc : c ∈ cs) :
    c.toNat < 0x80 ∧ c.toLower = c := by
  have hbounds : c.toNat < 0x80 ∧ ¬ (65 ≤ c.toNat ∧ c.toNat ≤ 90) := by
    rcases h.chars c hc with hname | rfl
    · rcases isNameChar_bounds hname with rfl | hletter | hdigit
      · decide
      · omega
      · omega
    · decide
  refine ⟨hbounds.1, ?_⟩
  unfold Char.toLower
  split
  · rename_i hupper
    exact absurd hupper hbounds.2
  · rfl

theorem fold_eq_self {cs : List Char} (h : ∀ c ∈ cs, c.toNat < 0x80 ∧ c.toLower = c) :
    fold cs = cs := by
  have hsmall : ∀ c ∈ cs, c.toNat < 0xC0 := by
    intro c hc
    have := (h c hc).1
    omega
  have hkept : cs.filter (fun c => !isDroppedMark c) = cs := by
    apply List.filter_eq_self.mpr
    intro c hc
    have := hsmall c hc
    unfold isDroppedMark
    simp only [Bool.not_eq_true', Bool.and_eq_false_iff, decide_eq_false_iff_not]
    omega
  unfold fold
  rw [decompose_eq_self hsmall, hkept, lowerCase_eq_self h]

theorem Tidy.fold_eq_self {cs : List Char} (h : Tidy cs) : fold cs = cs :=
  ProjectName.fold_eq_self fun _ hc => h.ascii hc

end Fold

section Normalize

/-- The name before it is cut to length. -/
def uncut (folded : List Char) : List Char :=
  if (trimEnds (dash folded)).isEmpty then untitled.toList else trimEnds (dash folded)

theorem ofFolded_eq (folded : List Char) : ofFolded folded = (uncut folded).take maxLength := rfl

theorem tidy_uncut (folded : List Char) : Tidy (uncut folded) := by
  unfold uncut
  split
  · have hletters : untitled.toList.all (fun c => isNameChar c || c == '-') = true := by decide
    constructor
    · intro c hc
      have hletter := List.all_eq_true.mp hletters c hc
      rwa [Bool.or_eq_true, beq_iff_eq] at hletter
    · unfold Lone
      decide
    · unfold Lone
      decide
  · exact (tidy_dash folded).of_isInfix (trimWhere_isInfix _ _)

theorem rdropWhile_eq_self_iff_getLast? {p : Char → Bool} {cs : List Char} :
    cs.rdropWhile p = cs ↔ cs.getLast?.any p = false := by
  rcases List.eq_nil_or_concat cs with rfl | ⟨front, last, rfl⟩
  · exact ⟨fun _ => rfl, fun _ => List.rdropWhile_nil p⟩
  · rw [List.concat_eq_append, List.rdropWhile_eq_self_iff, List.getLast?_concat, Option.any_some]
    simp only [ne_eq, List.append_eq_nil_iff, List.cons_ne_self, and_false, not_false_eq_true,
      forall_true_left, List.getLast_append_singleton, Bool.not_eq_true]

theorem uncut_ends (folded : List Char) :
    (∃ c ∈ (uncut folded).head?, isMark c = false) ∧
      (uncut folded).rdropWhile isMark = uncut folded := by
  unfold uncut
  split
  · exact ⟨⟨'u', by decide, by decide⟩, by decide⟩
  · rename_i hempty
    rw [trimEnds_eq] at hempty ⊢
    refine ⟨?_, List.rdropWhile_idempotent _ _⟩
    have hnot := List.head?_dropWhile_not isMark (dash folded)
    obtain ⟨rest, hrest⟩ := List.rdropWhile_prefix isMark ((dash folded).dropWhile isMark)
    cases htrimmed : ((dash folded).dropWhile isMark).rdropWhile isMark with
    | nil => exact absurd (List.isEmpty_iff.mpr htrimmed) hempty
    | cons c cs =>
      rw [htrimmed] at hrest
      rw [← hrest] at hnot
      exact ⟨c, rfl, hnot⟩

/-- The shape of a normalized name. -/
structure Formed (cs : List Char) : Prop where
  tidy : Tidy cs
  front : ∃ c ∈ cs.head?, isMark c = false
  short : cs.length ≤ maxLength

theorem formed_ofFolded (folded : List Char) : Formed (ofFolded folded) := by
  rw [ofFolded_eq]
  constructor
  · have hcut : (uncut folded).take maxLength <+: uncut folded := List.take_prefix _ _
    exact (tidy_uncut folded).of_isInfix hcut.isInfix
  · rw [List.head?_take, if_neg (by decide)]
    exact (uncut_ends folded).1
  · exact List.length_take_le _ _

/-- Normalizing a name again trims its end and does nothing else. -/
theorem Formed.ofFolded_fold {cs : List Char} (h : Formed cs) :
    ofFolded (fold cs) = cs.rdropWhile isMark := by
  obtain ⟨c, hc, hfront⟩ := h.front
  obtain ⟨rest, rfl⟩ : ∃ rest, cs = c :: rest := by
    cases cs with
    | nil => cases hc
    | cons d rest =>
      cases hc
      exact ⟨rest, rfl⟩
  -- Folding and dashes change nothing any more, and there is nothing to trim in front.
  have htrim : trimEnds (dash (fold (c :: rest))) = (c :: rest).rdropWhile isMark := by
    rw [h.tidy.fold_eq_self, h.tidy.dash_eq_self, trimEnds_eq, List.dropWhile_cons, hfront]
    rfl
  have hsome : (c :: rest).rdropWhile isMark ≠ [] := by
    intro hnil
    have := List.rdropWhile_eq_nil_iff.mp hnil c List.mem_cons_self
    rw [hfront] at this
    cases this
  have hfewer : (c :: rest).rdropWhile isMark <+: c :: rest := List.rdropWhile_prefix _ _
  have hshort : ((c :: rest).rdropWhile isMark).length ≤ maxLength :=
    hfewer.length_le.trans h.short
  rw [ofFolded_eq, uncut, htrim, if_neg (by rwa [List.isEmpty_iff]), List.take_of_length_le hshort]

/-- Whether a name was cut right behind a dot or a dash, to lose it when it is normalized again. -/
def endsInMark (name : String) : Bool := name.toList.getLast?.any isMark

theorem normalize_normalize (input : String) :
    normalize (normalize input) =
      String.ofList ((normalize input).toList.rdropWhile isMark) := by
  have hformed : Formed (normalize input).toList := by
    rw [normalize, String.toList_ofList]
    exact formed_ofFolded _
  rw [normalize, hformed.ofFolded_fold]

theorem normalize_eq_self_iff (input : String) :
    normalize (normalize input) = normalize input ↔ endsInMark (normalize input) = false := by
  rw [normalize_normalize, endsInMark, ← rdropWhile_eq_self_iff_getLast?, ← String.toList_inj,
    String.toList_ofList]

/-- Only a name of full length can have been cut. -/
theorem length_of_endsInMark {input : String} (h : endsInMark (normalize input) = true) :
    (normalize input).length = maxLength := by
  rw [← String.length_toList, normalize, String.toList_ofList, ofFolded_eq, List.length_take]
  rcases Nat.le_total maxLength (uncut (fold input.toList)).length with hlong | hshort
  · exact Nat.min_eq_left hlong
  · have hends := rdropWhile_eq_self_iff_getLast?.mp (uncut_ends (fold input.toList)).2
    rw [endsInMark, normalize, String.toList_ofList, ofFolded_eq, List.take_of_length_le hshort,
      hends] at h
    cases h

end Normalize

theorem untitled_eq_normalize : untitled = normalize "" := by decide

theorem ofPath_eq_normalize (path : String) : ∃ input, ofPath path = normalize input := by
  unfold ofPath
  split
  · exact ⟨_, rfl⟩
  · exact ⟨"", untitled_eq_normalize⟩

end CodeSearch.ProjectName
