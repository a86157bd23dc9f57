import CodeSearch.Proofs.Text.LowerCase
import CodeSearch.Proofs.Text.Runs
import CodeSearch.Search.Ranking
import Mathlib.Algebra.Order.Field.Basic
import Mathlib.Data.Finset.Card
import Mathlib.Data.Rat.Cast.Order

/-!
# Overlap of a query and a text

The terms of a query are the runs of other characters than white space in its lower case, each once.
The overlap is the share of them that stand somewhere in the text, so it is a measure of the set of
terms: how often and where a term stands in the query makes no difference.
-/

set_option autoImplicit false

namespace CodeSearch

namespace Text
variable {p : Char → Bool}

theorem occursIn_iff {word cs : List Char} : occursIn word cs = true ↔ word <:+: cs := by
  induction cs with
  | nil => rw [occursIn, List.isEmpty_iff, List.infix_nil]
  | cons c cs ih =>
    rw [occursIn, Bool.or_eq_true, List.isPrefixOf_iff_prefix, ih, List.infix_cons_iff]

namespace Runs

theorem append_gap {gap cs : List Char} {words : List (List Char)} (hgap : ∀ c ∈ gap, p c = false)
    (h : Runs p cs words) : Runs p (gap ++ cs) words := by
  induction gap with
  | nil => exact h
  | cons c gap ih =>
    obtain ⟨hc, hgap⟩ := List.forall_mem_cons.mp hgap
    exact (ih hgap).cons_gap hc

theorem append {w : Char} (hw : p w = false) {cs ds : List Char} {words more : List (List Char)}
    (h : Runs p cs words) (h' : Runs p ds more) : Runs p (cs ++ w :: ds) (words ++ more) := by
  have hrest : Runs p (w :: ds) more := h'.cons_gap hw
  induction h with
  | none hgap => exact hrest.append_gap hgap
  | @run gap word rest words hgap hne hword hhead _ ih =>
    rw [List.append_assoc]
    refine .run hgap hne hword ?_ ih
    intro c hc
    cases rest with
    | nil =>
      obtain rfl := Option.some.inj hc
      exact hw
    | cons d rest => exact hhead c hc

end Runs

end Text

namespace Query
open Text

theorem nodup_eraseDups {α : Type} [BEq α] [LawfulBEq α] (xs : List α) : xs.eraseDups.Nodup := by
  match xs with
  | [] => exact List.nodup_nil
  | x :: xs =>
    rw [List.eraseDups_cons, List.nodup_cons, List.mem_eraseDups, List.mem_filter]
    refine ⟨fun h => ?_, nodup_eraseDups _⟩
    simp only [BEq.rfl, Bool.not_true, Bool.false_eq_true, and_false] at h
termination_by xs.length
decreasing_by exact Nat.lt_succ_of_le (List.length_filter_le _ _)

/-- The terms of a query without their order. -/
def termSet (query : List Char) : Finset (List Char) := (terms query).toFinset

theorem mem_termSet {query term : List Char} {runs : List (List Char)}
    (h : Runs (fun c => !isWhite c) (lowerCase query) runs) :
    term ∈ termSet query ↔ term ∈ runs := by
  have hruns : runs = wordsBetween isWhite (lowerCase query) := by
    simpa only [Bool.not_not] using runs_iff.mp h
  rw [termSet, List.mem_toFinset, terms, List.mem_eraseDups, hruns]

theorem mem_termSet_iff {query term : List Char} : term ∈ termSet query ↔
    ∃ runs, Runs (fun c => !isWhite c) (lowerCase query) runs ∧ term ∈ runs := by
  constructor
  · intro hterm
    obtain ⟨runs, h⟩ := Runs.exists_runs (fun c => !isWhite c) (lowerCase query)
    exact ⟨runs, h, (mem_termSet h).mp hterm⟩
  · rintro ⟨runs, h, hterm⟩
    exact (mem_termSet h).mpr hterm

theorem termSet_append {w : Char} (hw : isWhite w = true) (query extra : List Char) :
    termSet (query ++ w :: extra) = termSet query ∪ termSet extra := by
  obtain ⟨runs, h⟩ := Runs.exists_runs (fun c => !isWhite c) (lowerCase query)
  obtain ⟨more, h'⟩ := Runs.exists_runs (fun c => !isWhite c) (lowerCase extra)
  have hboth : Runs (fun c => !isWhite c) (lowerCase (query ++ w :: extra)) (runs ++ more) := by
    rw [lowerCase_append hw]
    exact h.append (by rw [hw, Bool.not_true]) h'
  ext term
  rw [mem_termSet hboth, Finset.mem_union, mem_termSet h, mem_termSet h', List.mem_append]

theorem nodup_terms (query : List Char) : (terms query).Nodup := nodup_eraseDups _

theorem mem_termSet_joinWith {w : Char} (hw : isWhite w = true) {pieces : List (List Char)}
    {term : List Char} :
    term ∈ termSet (joinWith [w] pieces) ↔ ∃ piece ∈ pieces, term ∈ termSet piece := by
  induction pieces with
  | nil =>
    have hnone : termSet (joinWith [w] []) = ∅ := rfl
    rw [hnone]
    exact iff_of_false (Finset.notMem_empty term) fun ⟨_, hpiece, _⟩ => List.not_mem_nil hpiece
  | cons first rest ih =>
    simp only [List.mem_cons, exists_eq_or_imp, ← ih]
    cases rest with
    | nil =>
      have hone : joinWith [w] [first] = first := List.intercalate_singleton ..
      have hnone : termSet (joinWith [w] []) = ∅ := rfl
      rw [hone, hnone, or_iff_left (Finset.notMem_empty term)]
    | cons second rest =>
      rw [joinWith_cons_cons, List.append_assoc, List.singleton_append, termSet_append hw,
        Finset.mem_union]

theorem card_termSet (query : List Char) : (termSet query).card = (terms query).length :=
  List.toFinset_card_of_nodup (nodup_terms query)

/-- The terms that stand in a text, both in lower case. -/
def occurring (terms : Finset (List Char)) (content : List Char) : Finset (List Char) :=
  terms.filter fun term => term <:+: lowerCase content

theorem card_occurring (query content : List Char) :
    (occurring (termSet query) content).card = hitCount (terms query) content := by
  have hkept : occurring (termSet query) content =
      ((terms query).filter fun term => occursIn term (lowerCase content)).toFinset := by
    ext term
    rw [occurring, Finset.mem_filter, termSet, List.mem_toFinset, List.mem_toFinset,
      List.mem_filter, occursIn_iff]
  rw [hkept, List.toFinset_card_of_nodup ((nodup_terms query).filter _), hitCount,
    List.countP_eq_length_filter]

theorem occurring_nil (query : List Char) : occurring (termSet query) [] = ∅ := by
  apply Finset.filter_eq_empty_iff.mpr
  intro term hterm hinfix
  obtain ⟨runs, h, hrun⟩ := mem_termSet_iff.mp hterm
  exact (h.solid term hrun).1 (List.infix_nil.mp hinfix)

end Query

namespace Ranking
open Text Query

section Share
variable {terms more : Finset (List Char)} {content : List Char}

/-- The share of some terms that stands in a text. There is none of no terms. -/
def share (terms : Finset (List Char)) (content : List Char) : Rat :=
  (occurring terms content).card / terms.card

theorem lexicalOverlap_eq (query content : List Char) :
    lexicalOverlap query content = share (termSet query) content := by
  unfold lexicalOverlap share
  dsimp only
  split
  · rename_i hnone
    rw [Bool.or_eq_true, List.isEmpty_iff, List.isEmpty_iff] at hnone
    rcases hnone with rfl | hterms
    · rw [occurring_nil, Finset.card_empty]
      exact (zero_div _).symm
    · rw [card_termSet, hterms]
      exact (div_zero _).symm
  · rw [card_termSet, card_occurring]
    rfl

theorem card_occurring_le : ((occurring terms content).card : Rat) ≤ terms.card :=
  Nat.cast_le.mpr (Finset.card_filter_le terms _)

theorem share_nonneg : 0 ≤ share terms content := div_nonneg (Nat.cast_nonneg _) (Nat.cast_nonneg _)

theorem share_le_one : share terms content ≤ 1 :=
  div_le_one_of_le₀ card_occurring_le (Nat.cast_nonneg _)

theorem share_eq_one_iff : share terms content = 1 ↔
    terms.Nonempty ∧ ∀ term ∈ terms, term <:+: lowerCase content := by
  rcases terms.eq_empty_or_nonempty with rfl | hsome
  · simp [share]
  · have hpos : (terms.card : Rat) ≠ 0 := Nat.cast_ne_zero.mpr (Finset.card_pos.mpr hsome).ne'
    rw [share, div_eq_one_iff_eq hpos, Nat.cast_inj, occurring, Finset.card_filter_eq_iff]
    exact (and_iff_right hsome).symm

theorem share_eq_zero_iff :
    share terms content = 0 ↔ ∀ term ∈ terms, ¬ term <:+: lowerCase content := by
  rw [← Finset.filter_eq_empty_iff, ← occurring, ← Finset.card_eq_zero, share, div_eq_zero_iff,
    Nat.cast_eq_zero, Nat.cast_eq_zero, or_iff_left_iff_imp]
  intro hnone
  have hle : (occurring terms content).card ≤ terms.card := Finset.card_filter_le terms _
  omega

theorem div_le_add_div_add {found all : Nat} (h : found ≤ all) (new : Nat) :
    (found : Rat) / all ≤ (found + new : Nat) / (all + new : Nat) := by
  rcases Nat.eq_zero_or_pos all with rfl | hpos
  · rw [Nat.cast_zero, div_zero]
    exact div_nonneg (Nat.cast_nonneg _) (Nat.cast_nonneg _)
  · have hpos' : 0 < all + new := by omega
    rw [div_le_div_iff₀ (Nat.cast_pos.mpr hpos) (Nat.cast_pos.mpr hpos')]
    norm_cast
    rw [Nat.mul_add, Nat.add_mul, Nat.add_le_add_iff_left, Nat.mul_comm]
    exact Nat.mul_le_mul_left new h

/-- More terms that stand in the text make no smaller share. -/
theorem share_le_of_occur (hsub : terms ⊆ more)
    (h : ∀ term ∈ more, term ∉ terms → term <:+: lowerCase content) :
    share terms content ≤ share more content := by
  have hfound : occurring more content = occurring terms content ∪ (more \ terms) := by
    ext term
    simp only [occurring, Finset.mem_filter, Finset.mem_union, Finset.mem_sdiff]
    constructor
    · rintro ⟨hterm, hinfix⟩
      by_cases hold : term ∈ terms
      · exact Or.inl ⟨hold, hinfix⟩
      · exact Or.inr ⟨hterm, hold⟩
    · rintro (⟨hold, hinfix⟩ | ⟨hterm, hnew⟩)
      · exact ⟨hsub hold, hinfix⟩
      · exact ⟨hterm, h term hterm hnew⟩
  have hapart : Disjoint (occurring terms content) (more \ terms) :=
    Finset.disjoint_of_subset_left (Finset.filter_subset _ _) Finset.disjoint_sdiff
  have hmore : more.card = terms.card + (more \ terms).card := by
    rw [Nat.add_comm, Finset.card_sdiff_add_card_eq_card hsub]
  rw [share, share, hfound, Finset.card_union_of_disjoint hapart, hmore]
  exact div_le_add_div_add (Finset.card_filter_le terms _) _

/-- More terms that do not stand in the text make no larger share. -/
theorem share_le_of_not_occur (hsub : terms ⊆ more)
    (h : ∀ term ∈ more, term ∉ terms → ¬ term <:+: lowerCase content) :
    share more content ≤ share terms content := by
  have hfound : occurring more content = occurring terms content := by
    ext term
    simp only [occurring, Finset.mem_filter]
    constructor
    · rintro ⟨hterm, hinfix⟩
      exact ⟨by_contra fun hnew => h term hterm hnew hinfix, hinfix⟩
    · exact fun ⟨hterm, hinfix⟩ => ⟨hsub hterm, hinfix⟩
  rw [share, share, hfound]
  rcases terms.eq_empty_or_nonempty with rfl | hsome
  · have hnone : occurring ∅ content = ∅ := Finset.filter_empty _
    rw [hnone, Finset.card_empty, Nat.cast_zero, zero_div, zero_div]
  · exact div_le_div_of_nonneg_left (Nat.cast_nonneg _)
      (Nat.cast_pos.mpr (Finset.card_pos.mpr hsome)) (Nat.cast_le.mpr (Finset.card_le_card hsub))

end Share

/-- The overlap is between zero and one: one where there are terms and all of them stand in the
text, zero where none does. Only the set of terms matters: more terms that stand in the text do not
lower it, more that do not stand there do not raise it, and pieces of a query may change places and
come again. -/
theorem overlap_measures_terms (query content : List Char) :
    (∀ term, term ∈ termSet query ↔
      ∃ runs, Runs (fun c => !isWhite c) (lowerCase query) runs ∧ term ∈ runs) ∧
    (0 ≤ (lexicalOverlap query content : Rat) ∧ (lexicalOverlap query content : Rat) ≤ 1) ∧
    ((lexicalOverlap query content : Rat) = 1 ↔
      (termSet query).Nonempty ∧ ∀ term ∈ termSet query, term <:+: lowerCase content) ∧
    ((lexicalOverlap query content : Rat) = 0 ↔
      ∀ term ∈ termSet query, ¬ term <:+: lowerCase content) ∧
    (∀ other, termSet other = termSet query →
      (lexicalOverlap other content : Rat) = lexicalOverlap query content) ∧
    (∀ other, termSet query ⊆ termSet other →
      ((∀ term ∈ termSet other, term ∉ termSet query → term <:+: lowerCase content) →
        (lexicalOverlap query content : Rat) ≤ lexicalOverlap other content) ∧
      ((∀ term ∈ termSet other, term ∉ termSet query → ¬ term <:+: lowerCase content) →
        (lexicalOverlap other content : Rat) ≤ lexicalOverlap query content)) ∧
    (∀ w extra, isWhite w = true →
      termSet (query ++ w :: extra) = termSet query ∪ termSet extra) ∧
    ∀ w pieces others, isWhite w = true → pieces ⊆ others → others ⊆ pieces →
      (lexicalOverlap (joinWith [w] pieces) content : Rat) =
        lexicalOverlap (joinWith [w] others) content := by
  simp only [lexicalOverlap_eq]
  refine ⟨fun term => mem_termSet_iff, ⟨share_nonneg, share_le_one⟩, share_eq_one_iff,
    share_eq_zero_iff, ?_, ?_, ?_, ?_⟩
  · intro other hsame
    rw [hsame]
  · exact fun other hsub => ⟨share_le_of_occur hsub, share_le_of_not_occur hsub⟩
  · exact fun w extra hw => termSet_append hw query extra
  · intro w pieces others hw hsub hsup
    have hsame : termSet (joinWith [w] pieces) = termSet (joinWith [w] others) := by
      ext term
      rw [mem_termSet_joinWith hw, mem_termSet_joinWith hw]
      constructor
      · exact fun ⟨piece, hpiece, hterm⟩ => ⟨piece, hsub hpiece, hterm⟩
      · exact fun ⟨piece, hpiece, hterm⟩ => ⟨piece, hsup hpiece, hterm⟩
    rw [hsame]

section Parsing

/-- A text that is found by what it parses. -/
def parser : List Char := "fn parse_config() {}".toList

theorem parser_found_by_its_terms :
    (termSet "Config PARSE".toList = termSet "parse parse config".toList ∧
      (lexicalOverlap "Config PARSE".toList parser : Rat) =
        lexicalOverlap "parse parse config".toList parser) ∧
    (termSet "Parse".toList ⊆ termSet "parse Fn".toList ∧
      (lexicalOverlap "Parse".toList parser : Rat) ≤ lexicalOverlap "parse Fn".toList parser) ∧
    (termSet "Parse".toList ⊆ termSet "json parse".toList ∧
      (lexicalOverlap "json parse".toList parser : Rat) ≤ lexicalOverlap "Parse".toList parser) ∧
    termSet "Parse JSON".toList = termSet "Parse".toList ∪ termSet "JSON".toList ∧
    (lexicalOverlap (joinWith [' '] ["fn".toList, "json".toList]) parser : Rat) =
      lexicalOverlap (joinWith [' '] ["json".toList, "fn".toList, "fn".toList]) parser := by
  obtain ⟨-, -, -, -, hsame, -, -, hpieces⟩ :=
    overlap_measures_terms "parse parse config".toList parser
  obtain ⟨-, -, -, -, -, hmore, hapart, -⟩ := overlap_measures_terms "Parse".toList parser
  have hterms : termSet "Config PARSE".toList = termSet "parse parse config".toList := by decide
  have hfound : termSet "Parse".toList ⊆ termSet "parse Fn".toList := by decide
  have hmissed : termSet "Parse".toList ⊆ termSet "json parse".toList := by decide
  refine ⟨⟨hterms, hsame _ hterms⟩, ⟨hfound, (hmore _ hfound).1 ?_⟩,
    ⟨hmissed, (hmore _ hmissed).2 ?_⟩, ?_, ?_⟩
  · decide
  · decide
  · exact hapart ' ' "JSON".toList (by decide)
  · exact hpieces ' ' _ _ (by decide) (by decide) (by decide)

end Parsing

end Ranking

end CodeSearch
