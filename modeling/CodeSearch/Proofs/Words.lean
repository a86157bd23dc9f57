import CodeSearch.Word
import Mathlib.Tactic.Common

/-!
# Words

When a sum or a product fits into a word, and what a word with a sign stands for. A list of steps
that may each have no result has one if all of them do.
-/

set_option autoImplicit false

namespace CodeSearch.Word

theorem plus?_eq_some_iff {a b n : Nat} : plus? a b = some n ↔ n = a + b ∧ a + b < size := by
  unfold plus?
  split
  · rw [Option.some.injEq]
    omega
  · simp only [reduceCtorEq, false_iff]
    omega

theorem plus?_eq_none_iff {a b : Nat} : plus? a b = none ↔ size ≤ a + b := by
  unfold plus?
  split
  · simp only [reduceCtorEq, false_iff]
    omega
  · simp only [true_iff]
    omega

theorem times?_eq_some_iff {a b n : Nat} : times? a b = some n ↔ n = a * b ∧ a * b < size := by
  unfold times?
  split
  · rw [Option.some.injEq]
    omega
  · simp only [reduceCtorEq, false_iff]
    omega

theorem toInt_signed (n : Nat) : (signed n).toInt = (n : Int).bmod size := Int64.toInt_ofNat' ..

theorem toInt_signed_of_lt {n : Nat} (h : n < half) : (signed n).toInt = n :=
  Int64.toInt_ofNat_of_lt h

theorem le_toInt (w : Int64) : -half ≤ w.toInt := w.le_toInt

theorem toInt_lt (w : Int64) : w.toInt < half := w.toInt_lt

/-- A number that fits is what its word stands for. -/
theorem ofInt?_eq_some_iff {n : Int} {w : Int64} : ofInt? n = some w ↔ w.toInt = n := by
  have hlow := le_toInt w
  have hhigh := toInt_lt w
  unfold ofInt?
  split
  · rename_i h
    rw [Option.some.injEq]
    constructor
    · rintro rfl
      exact Int64.toInt_ofInt_of_le h.1 h.2
    · rintro rfl
      exact Int64.ofInt_toInt w
  · simp only [reduceCtorEq, false_iff]
    omega

end CodeSearch.Word

namespace CodeSearch
variable {α β : Type} {f : α → Option β} {xs : List α} {ys : List β}

theorem eq_map_of_mapM {g : α → β} (hf : ∀ x y, f x = some y → y = g x)
    (h : xs.mapM f = some ys) : ys = xs.map g := by
  induction xs generalizing ys with
  | nil => simpa using h.symm
  | cons x xs ih =>
    rw [List.mapM_cons] at h
    simp only [Option.bind_eq_bind, Option.bind_eq_some_iff, Option.pure_def,
      Option.some.injEq] at h
    obtain ⟨y, hy, rest, hrest, rfl⟩ := h
    rw [hf x y hy, ih hrest, List.map_cons]

theorem mapM_eq_none_iff : xs.mapM f = none ↔ ∃ x ∈ xs, f x = none := by
  induction xs with
  | nil => simp
  | cons x xs ih =>
    rw [List.mapM_cons]
    cases hx : f x with
    | none => simp [hx]
    | some y =>
      have hrest : (xs.mapM f).bind (fun ys => some (y :: ys)) = none ↔ xs.mapM f = none := by
        cases xs.mapM f <;> simp
      simpa [hx, ih] using hrest.trans ih

end CodeSearch
