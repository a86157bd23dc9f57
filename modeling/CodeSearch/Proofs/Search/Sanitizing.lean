import CodeSearch.Proofs.Text.Characters
import CodeSearch.Proofs.Text.Runs
import CodeSearch.Search.Query

/-!
# Sanitizing is tokenization

What is embedded of a query are its words, the maximal runs of word characters of the query in
lower case, with one blank between neighbours. A query that is sanitized stays as it is.
-/

set_option autoImplicit false

namespace CodeSearch.Query
open Text

def words (query : List Char) : List (List Char) :=
  wordsBetween (fun c => !isWord c) (lowerCase query)

theorem isWord_blank : isWord ' ' = false := isWord_of_isWhite (by decide)

/-- With punctuation gone, white space is all that is not a word character. -/
theorem isWhite_blankOut (c : Char) : isWhite (blankOut c) = !isWord c := by
  unfold blankOut
  cases hword : isWord c with
  | true =>
    have hwhite : isWhite c = false := by
      by_contra hwhite
      rw [isWord_of_isWhite (eq_true_of_ne_false hwhite)] at hword
      cases hword
    rw [Bool.true_or, if_pos rfl, hwhite, Bool.not_true]
  | false =>
    cases hwhite : isWhite c with
    | true => rw [Bool.or_true, if_pos rfl, hwhite, Bool.not_false]
    | false => rw [Bool.or_false, if_neg Bool.false_ne_true]; rfl

theorem blankOut_of_isWord {c : Char} (h : isWord c = true) : blankOut c = c := by
  rw [blankOut, h, Bool.true_or, if_pos rfl]

theorem runs_words (query : List Char) : Runs isWord (lowerCase query) (words query) :=
  runs_iff.mpr rfl

theorem sanitizeChars_eq (query : List Char) :
    sanitizeChars query = joinWith [' '] (words query) := by
  apply trimWhere_squeeze (by decide)
  apply (runs_words query).map
  · exact fun c => by rw [isWhite_blankOut, Bool.not_not]
  · exact fun c hc => blankOut_of_isWord hc

theorem toList_sanitize (query : String) :
    (sanitize query).toList = joinWith [' '] (words query.toList) := by
  rw [sanitize, String.toList_ofList, sanitizeChars_eq]

theorem lowerCase_sanitize (query : String) :
    lowerCase (sanitize query).toList = (sanitize query).toList := by
  apply lowerCase_of_atRest
  intro c hc
  rw [toList_sanitize] at hc
  rcases mem_joinWith hc with rfl | ⟨word, hword, hc⟩
  · exact atRest_of_ascii (by decide) (by decide)
  · exact atRest_of_mem_lowerCase ((runs_words query.toList).mem_of_mem hword hc)

theorem words_sanitize (query : String) : words (sanitize query).toList = words query.toList := by
  have hruns : Runs isWord (sanitize query).toList (words query.toList) := by
    rw [toList_sanitize]
    exact runs_joinWith isWord_blank (runs_words query.toList).solid
  rw [words, lowerCase_sanitize]
  exact (runs_iff.mp hruns).symm

/-- The words of a query are its runs of word characters in lower case. They are what the query is
sanitized to, with one blank between neighbours, so there is no other character in it, no blank at
an end and no two blanks in a row. -/
theorem sanitize_joins_words (query : String) :
    (∀ runs, Runs isWord (lowerCase query.toList) runs ↔ runs = words query.toList) ∧
    sanitize query = String.ofList (joinWith [' '] (words query.toList)) ∧
    (∀ c ∈ (sanitize query).toList, isWord c = true ∨ c = ' ') ∧
    (∀ c ∈ (sanitize query).toList.head?, isWord c = true) ∧
    (∀ c ∈ (sanitize query).toList.getLast?, isWord c = true) ∧
    ¬ [' ', ' '] <:+: (sanitize query).toList ∧
    sanitize (sanitize query) = sanitize query := by
  have hsolid : Solid isWord (words query.toList) := (runs_words query.toList).solid
  refine ⟨fun runs => runs_iff, ?_, ?_, ?_, ?_, ?_, ?_⟩
  · rw [sanitize, sanitizeChars_eq]
  · rw [toList_sanitize]
    intro c hc
    rcases mem_joinWith hc with rfl | ⟨word, hword, hc⟩
    · exact Or.inr rfl
    · exact Or.inl ((hsolid word hword).2 c hc)
  · rw [toList_sanitize]
    exact head?_joinWith hsolid
  · rw [toList_sanitize]
    exact getLast?_joinWith hsolid
  · intro hdouble
    rw [sanitize, String.toList_ofList, sanitizeChars] at hdouble
    have hlone : [' ', ' '].IsChain (Lone isWhite) :=
      List.IsChain.infix (isChain_lone_squeeze _) (hdouble.trans (trimWhere_isInfix _ _))
    exact hlone.rel ⟨by decide, by decide⟩
  · rw [sanitize, sanitizeChars_eq, words_sanitize, ← sanitizeChars_eq, ← sanitize]

end CodeSearch.Query
