import CodeSearch.Json.Reader
import CodeSearch.Proofs.Decimal.Literals
import Mathlib.Tactic.IntervalCases

/-!
# Reading back strings and numbers

A quoted string reads back as the string, whatever follows. The text of a literal is read to its end
and has a value, which need not be the number it was printed from.
-/

set_option autoImplicit false

namespace CodeSearch.Json

section Strings
variable {out rest : List Char} {fuel : Nat}

theorem readUnit?_control {n : Nat} (h : n < 32) :
    readUnit? ('0' :: '0' :: Nat.digitChar (n / 16) :: Nat.digitChar (n % 16) :: rest) =
      some (n, rest) := by
  interval_cases n <;> rfl

/-- One step of the reader takes a character back from what stands for it. -/
theorem readString?_escapeChar (c : Char) :
    readString? (fuel + 1) ⟨out, none, false⟩ (escapeChar c ++ rest) =
      readString? fuel ⟨c :: out, none, false⟩ rest := by
  by_cases hquote : c = '"'
  · subst hquote
    rfl
  by_cases hbackslash : c = '\\'
  · subst hbackslash
    rfl
  by_cases hfeed : c = '\n'
  · subst hfeed
    rfl
  by_cases hreturn : c = '\r'
  · subst hreturn
    rfl
  by_cases htab : c = '\t'
  · subst htab
    rfl
  by_cases hback : c.toNat = 8
  · obtain rfl : c = Char.ofNat 8 := by rw [← hback, Char.ofNat_toNat]
    rfl
  by_cases hform : c.toNat = 12
  · obtain rfl : c = Char.ofNat 12 := by rw [← hform, Char.ofNat_toNat]
    rfl
  by_cases hcontrol : c.toNat < 32
  · have hhigh : isHighUnit c.toNat = false := by simp [isHighUnit]; omega
    have hlow : isLowUnit c.toNat = false := by simp [isLowUnit]; omega
    simp [escapeChar, hquote, hbackslash, hfeed, hreturn, htab, hback, hform, hcontrol, readString?,
      readUnit?_control hcontrol, StringState.unit, hhigh, hlow]
  · simp [escapeChar, hquote, hbackslash, hfeed, hreturn, htab, hback, hform, hcontrol, readString?,
      StringState.char, StringState.settle]

theorem readString?_flatMap_escapeChar {cs : List Char} (out rest : List Char)
    (h : cs.length < fuel) :
    readString? fuel ⟨out, none, false⟩ (cs.flatMap escapeChar ++ '"' :: rest) =
      some (string (String.ofList (out.reverse ++ cs)), rest) := by
  induction cs generalizing out fuel with
  | nil =>
    obtain ⟨fuel, rfl⟩ := Nat.exists_eq_add_of_lt h
    simp [readString?, StringState.value, StringState.settle]
  | cons c cs ih =>
    obtain ⟨fuel, rfl⟩ : ∃ n, fuel = n + 1 := ⟨fuel - 1, by omega⟩
    rw [List.flatMap_cons, List.append_assoc, readString?_escapeChar,
      ih _ (by simpa using h), List.reverse_cons, List.append_assoc, List.singleton_append]

/-- Each character takes at least one. -/
theorem length_le_flatMap_escapeChar (cs : List Char) :
    cs.length ≤ (cs.flatMap escapeChar).length := by
  induction cs with
  | nil => exact Nat.le_refl 0
  | cons c cs ih =>
    have hc : 1 ≤ (escapeChar c).length := by
      unfold escapeChar
      grind
    rw [List.flatMap_cons, List.length_append, List.length_cons]
    omega

end Strings

section Numbers
open Decimal (Literal Stops)
variable {l : Literal} {rest : List Char}

/-- No digit is a sign. -/
theorem head?_body_ne (h : l.Proper) (rest : List Char) : (l.body ++ rest).head? ≠ some '-' := by
  cases hwhole : l.whole with
  | nil => exact absurd hwhole h.nonempty
  | cons c cs =>
    have hdigit : c.isDigit = true := h.digits c (by simp [hwhole])
    rw [Literal.body, hwhole, List.cons_append, List.cons_append, List.head?_cons, Ne,
      Option.some_inj]
    rintro rfl
    cases hdigit

theorem readNumber?_text (h : l.Proper) (hrest : Stops rest) :
    readNumber? (l.text ++ rest) = some (numberValue l, rest) := by
  have hparts := Literal.readParts?_body h hrest
  have hhead := head?_body_ne h rest
  have hwhole := h.nonempty
  have hleading := h.leading
  have hfraction : l.fraction ≠ some [] := fun hnil => (h.fraction [] hnil).1 rfl
  unfold readNumber? Literal.text
  split
  · rename_i negative body heq
    have hsign : negative = l.negative ∧ body = l.body ++ rest := by
      cases hnegative : l.negative with
      | true => simpa [hnegative, eq_comm] using heq
      | false =>
        rw [hnegative, if_neg (by decide)] at heq
        split at heq
        · rename_i hcons
          rw [hcons] at hhead
          exact absurd rfl hhead
        · simpa [eq_comm] using heq
    rw [hsign.1, hsign.2, hparts]
    simp only [Option.bind_eq_bind, Option.bind_some]
    split
    · simp_all
    · simp_all
    · rw [if_neg hfraction]

end Numbers

end CodeSearch.Json
