import CodeSearch.Text.Lines
import CodeSearch.Text.WhiteSpace
import Mathlib.Algebra.Ring.Nat

/-!
# Lines of a text

Lines are what stands between line feeds, less a carriage return at their end. Joining lines puts
one character between neighbours, which is white space.
-/

set_option autoImplicit false

namespace CodeSearch.Text

theorem splitFrom_singleton (sep : Char) (done : List (List Char)) (piece cs : List Char) :
    splitFrom [sep] done piece 0 cs =
      done.reverse ++ cs.splitOnPPrepend (fun c => c == sep) piece := by
  induction cs generalizing done piece with
  | nil => simp [splitFrom]
  | cons c cs ih =>
    rw [splitFrom, List.splitOnPPrepend_cons_eq_if]
    by_cases heq : c = sep
    · subst heq
      simp [ih]
    · have hne : (sep == c) = false := by simpa using fun h => heq h.symm
      simp [ih, heq, hne, List.isPrefixOf]

theorem splitLines_eq (text : List Char) :
    splitLines text = (text.splitOn '\n').map chompReturn := by
  rw [splitLines, splitOn, if_neg (by simp), splitFrom_singleton]
  simp [List.splitOn_eq_splitOnP]

theorem length_splitLines (text : List Char) :
    (splitLines text).length = text.count '\n' + 1 := by
  have hprepend : ∀ piece : List Char,
      (text.splitOnPPrepend (fun c => c == '\n') piece).length = text.count '\n' + 1 := by
    induction text with
    | nil => simp
    | cons c cs ih =>
      intro piece
      rw [List.splitOnPPrepend_cons_eq_if]
      split <;> rename_i hfeed
      · rw [List.length_cons, ← List.splitOnPPrepend_nil_right, ih, eq_of_beq hfeed,
          List.count_cons_self]
      · rw [ih, List.count_cons, if_neg hfeed]
  rw [splitLines, splitOn, if_neg (by simp), splitFrom_singleton]
  simpa using hprepend []

theorem isBlank_joinLines (ls : List (List Char)) :
    isBlank (joinLines ls) = true ↔ ∀ l ∈ ls, isBlank l = true := by
  induction ls with
  | nil => simp [joinLines, joinWith, isBlank]
  | cons l ls ih =>
    cases ls with
    | nil => simp [joinLines, joinWith]
    | cons l' ls =>
      have hnl : isWhite '\n' = true := by decide
      rw [List.forall_mem_cons, ← ih]
      simp [joinLines, joinWith, isBlank, List.intercalate_cons_cons, hnl]

theorem length_joinLines (ls : List (List Char)) :
    (joinLines ls).length = (ls.map List.length).sum + (ls.length - 1) := by
  induction ls with
  | nil => rfl
  | cons l ls ih =>
    cases ls with
    | nil => simp [joinLines, joinWith]
    | cons l' ls =>
      simp only [joinLines, joinWith, List.intercalate_cons_cons, List.length_append,
        List.map_cons, List.sum_cons, List.length_cons, List.length_nil] at ih ⊢
      omega

theorem sum_length_le_of_sublist {ls ms : List (List Char)} (h : ls.Sublist ms) :
    (ls.map List.length).sum ≤ (ms.map List.length).sum := by
  induction h with
  | slnil => exact Nat.le_refl _
  | cons a _ ih => simp only [List.map_cons, List.sum_cons]; omega
  | cons_cons a _ ih => simp only [List.map_cons, List.sum_cons]; omega

theorem length_joinLines_le {ls ms : List (List Char)} (h : ls.Sublist ms) :
    (joinLines ls).length ≤ (joinLines ms).length := by
  have hsum := sum_length_le_of_sublist h
  have hlen := h.length_le
  rw [length_joinLines, length_joinLines]
  omega

end CodeSearch.Text
