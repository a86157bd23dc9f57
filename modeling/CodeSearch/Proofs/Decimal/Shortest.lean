import CodeSearch.Decimal.Shortest
import Mathlib.Data.Int.Log
import Mathlib.Data.Rat.Floor
import Mathlib.Tactic.FieldSimp
import Mathlib.Tactic.Positivity
import Mathlib.Tactic.NormNum

/-!
# The shortest decimal of a double has digits

The decimal exponent that is searched for is the logarithm of the number. So the number is at least
one step of the coarsest grid that is tried, and no grid point that is taken for a positive double
is zero.
-/

set_option autoImplicit false

namespace CodeSearch.Decimal

namespace Quotient

def value (q : Quotient) : ℚ := q.numerator / q.denominator

variable {q : Quotient}

theorem denominator_ofBinary (n : Nat) (e : Int) : 0 < (ofBinary n e).denominator := by
  unfold ofBinary
  split
  · exact Nat.one_pos
  · exact Nat.pow_pos (by decide)

theorem value_ofBinary (n : Nat) (e : Int) : (ofBinary n e).value = n * 2 ^ e := by
  unfold ofBinary value
  split <;> rename_i he
  · obtain ⟨k, rfl⟩ := Int.eq_ofNat_of_zero_le he
    simp
  · obtain ⟨k, rfl⟩ := Int.exists_eq_neg_ofNat (Int.le_of_lt (Int.not_le.mp he))
    simp [div_eq_mul_inv]

theorem denominator_downBy (h : 0 < q.denominator) (e : Int) : 0 < (q.downBy e).denominator := by
  unfold downBy
  split
  · exact Nat.mul_pos h (Nat.pow_pos (by decide))
  · exact h

theorem value_downBy (q : Quotient) (e : Int) : (q.downBy e).value = q.value / 10 ^ e := by
  unfold downBy value
  split <;> rename_i he
  · obtain ⟨k, rfl⟩ := Int.eq_ofNat_of_zero_le he
    simp [div_div]
  · obtain ⟨k, rfl⟩ := Int.exists_eq_neg_ofNat (Int.le_of_lt (Int.not_le.mp he))
    simp [div_eq_mul_inv, mul_right_comm]

theorem mul_denominator_le_iff (h : 0 < q.denominator) (n : Nat) :
    n * q.denominator ≤ q.numerator ↔ (n : ℚ) ≤ q.value := by
  have hpos : (0 : ℚ) < q.denominator := by exact_mod_cast h
  rw [value, le_div_iff₀ hpos]
  exact_mod_cast Iff.rfl

/-- Scaling down by a power of ten leaves one or more just if that power is no larger. -/
theorem denominator_le_downBy_iff (h : 0 < q.denominator) (e : Int) :
    (q.downBy e).denominator ≤ (q.downBy e).numerator ↔ (10 : ℚ) ^ e ≤ q.value := by
  have hle := mul_denominator_le_iff (denominator_downBy h e) 1
  have hpos : (0 : ℚ) < 10 ^ e := zpow_pos (by decide) e
  rw [Nat.one_mul, value_downBy, Nat.cast_one, one_le_div hpos] at hle
  exact hle

end Quotient

section Exponent
variable {q : Quotient}

theorem ten_zpow_le_iff {r : ℚ} (hpos : 0 < r) (k : Int) :
    (10 : ℚ) ^ k ≤ r ↔ k ≤ Int.log 10 r :=
  mod_cast Int.zpow_le_iff_le_log (b := 10) (by decide) hpos

/-- The search ends at the logarithm if it is within reach. -/
theorem exponentFrom_eq_log (hden : 0 < q.denominator) (hpos : 0 < q.value) {fuel : Nat} {k : Int}
    (hreach : (Int.log 10 q.value - k).natAbs ≤ fuel) :
    exponentFrom q fuel k = Int.log 10 q.value := by
  induction fuel generalizing k with
  | zero =>
    rw [exponentFrom]
    omega
  | succ fuel ih =>
    have hdown := Quotient.denominator_le_downBy_iff hden k
    rw [ten_zpow_le_iff hpos] at hdown
    have hup := Quotient.mul_denominator_le_iff (Quotient.denominator_downBy hden k) 10
    rw [Quotient.value_downBy, le_div_iff₀ (zpow_pos (by decide) k), Nat.cast_ofNat,
      ← zpow_one_add₀ (by decide), ten_zpow_le_iff hpos, Nat.mul_comm] at hup
    rw [exponentFrom]
    split
    · exact ih (by omega)
    · split
      · exact ih (by omega)
      · omega

end Exponent

namespace Binary

/-- Positive doubles, and one power of two past the largest. -/
structure InRange (b : Binary) : Prop where
  positive : 0 < b.mantissa
  narrow : b.mantissa < 2 ^ 53
  least : -1074 ≤ b.exponent
  most : b.exponent ≤ 972

variable {b : Binary}

theorem two_zpow_le_ten_zpow : (2 : ℚ) ^ (1074 : Int) ≤ 10 ^ (700 : Int) := by
  have hpow : 2 ^ 1074 ≤ 10 ^ 700 := by decide +kernel
  rw [zpow_ofNat, zpow_ofNat]
  exact_mod_cast hpow

/-- The decimal exponent of a positive double is at most its logarithm. -/
theorem InRange.ten_zpow_le (h : b.InRange) :
    (10 : ℚ) ^ decimalExponent (.ofBinary b.mantissa b.exponent) ≤
      (Quotient.ofBinary b.mantissa b.exponent).value := by
  have hden := Quotient.denominator_ofBinary b.mantissa b.exponent
  have hvalue := Quotient.value_ofBinary b.mantissa b.exponent
  have hmantissa : (1 : ℚ) ≤ b.mantissa := by exact_mod_cast h.positive
  have hnarrow : (b.mantissa : ℚ) ≤ 2 ^ (53 : Int) := by exact_mod_cast Nat.le_of_lt h.narrow
  have htwo : (0 : ℚ) < 2 ^ b.exponent := zpow_pos (by decide) b.exponent
  have hpos : 0 < (Quotient.ofBinary b.mantissa b.exponent).value := by
    rw [hvalue]
    exact mul_pos (lt_of_lt_of_le one_pos hmantissa) htwo
  have hlow : -700 ≤ Int.log 10 (Quotient.ofBinary b.mantissa b.exponent).value := by
    rw [← ten_zpow_le_iff hpos, hvalue]
    calc (10 : ℚ) ^ (-700 : Int) ≤ 2 ^ (-1074 : Int) := by
          rw [zpow_neg, zpow_neg]
          exact inv_anti₀ (zpow_pos (by decide) _) two_zpow_le_ten_zpow
      _ ≤ 2 ^ b.exponent := zpow_le_zpow_right₀ (by decide) h.least
      _ ≤ b.mantissa * 2 ^ b.exponent := le_mul_of_one_le_left htwo.le hmantissa
  have hhigh : Int.log 10 (Quotient.ofBinary b.mantissa b.exponent).value < 700 := by
    rw [← not_le, ← ten_zpow_le_iff hpos, not_le, hvalue]
    calc (b.mantissa : ℚ) * 2 ^ b.exponent ≤ 2 ^ (53 : Int) * 2 ^ (972 : Int) :=
          mul_le_mul hnarrow (zpow_le_zpow_right₀ (by decide) h.most) htwo.le (by positivity)
      _ = 2 ^ (1025 : Int) := by rw [← zpow_add₀ (by decide)]; rfl
      _ < 2 ^ (1074 : Int) := zpow_lt_zpow_right₀ (by decide) (by decide)
      _ ≤ 10 ^ (700 : Int) := two_zpow_le_ten_zpow
  rw [decimalExponent, exponentFrom_eq_log hden hpos (by omega), ten_zpow_le_iff hpos]

/-- On a grid no coarser than the number itself, no point that is found is zero. -/
theorem gridPoint?_ne_zero {e : Int}
    (h : (10 : ℚ) ^ e ≤ (Quotient.ofBinary b.mantissa b.exponent).value) {d : Nat}
    (hd : gridPoint? b e = some d) : d ≠ 0 := by
  have hden := Quotient.denominator_ofBinary (4 * b.mantissa) (b.exponent - 2)
  have hvalue : (Quotient.ofBinary (4 * b.mantissa) (b.exponent - 2)).value =
      (Quotient.ofBinary b.mantissa b.exponent).value := by
    rw [Quotient.value_ofBinary, Quotient.value_ofBinary, zpow_sub₀ (by decide)]
    push_cast
    ring
  rw [← hvalue, ← Quotient.denominator_le_downBy_iff hden] at h
  have hpoint := Nat.div_pos h (Quotient.denominator_downBy hden e)
  unfold gridPoint? at hd
  simp only at hd
  generalize ((Quotient.ofBinary (4 * b.mantissa) (b.exponent - 2)).downBy e) = value at hd hpoint
  grind

theorem shortestFrom_ne_zero (hpositive : 0 < b.mantissa) {k : Int}
    (hk : (10 : ℚ) ^ k ≤ (Quotient.ofBinary b.mantissa b.exponent).value) (fuel : Nat) {count : Nat}
    (hcount : 1 ≤ count) : (shortestFrom b k fuel count).digits ≠ 0 := by
  induction fuel generalizing count with
  | zero => exact Nat.ne_of_gt hpositive
  | succ fuel ih =>
    rw [shortestFrom]
    split
    · rename_i d hd
      refine gridPoint?_ne_zero (le_trans ?_ hk) hd
      exact zpow_le_zpow_right₀ (by decide) (by omega)
    · exact ih (by omega)

theorem dropZeros_ne_zero (fuel : Nat) {s : Scaled} (h : s.digits ≠ 0) :
    (dropZeros fuel s).digits ≠ 0 := by
  induction fuel generalizing s with
  | zero => exact h
  | succ fuel ih =>
    rw [dropZeros]
    split
    · rename_i hzero
      apply ih
      simp only
      omega
    · exact h

theorem shortest_ne_zero (h : b.InRange) : (shortest b).digits ≠ 0 :=
  dropZeros_ne_zero 20 (shortestFrom_ne_zero h.positive h.ten_zpow_le 17 (Nat.le_refl 1))

theorem inRange_ofBits {bits : Nat} (h : bits % 2 ^ 63 ≠ 0) : (ofBits (bits % 2 ^ 63)).InRange := by
  unfold ofBits
  simp only [Nat.pow_eq]
  split
  · constructor <;> simp only <;> omega
  · constructor <;> simp only <;> omega

end Binary

end CodeSearch.Decimal
