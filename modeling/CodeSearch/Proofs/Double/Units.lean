import Mathlib

/-!
# Doubles in units of the smallest

Every finite double is a whole number of times the smallest positive one, and infinity counts as
what would follow the largest. Doubles that are numbers are in the order of these units, and so are
their bits behind the sign.
-/

set_option autoImplicit false

namespace CodeSearch.Double
open Float.Model Float.Model.UnpackedFloat

section Magnitudes
variable {m n : Nat} {e d : Int}

/-- Mantissas have 53 bits, or fewer at the lowest exponent. -/
structure Normal (m : Nat) (e : Int) : Prop where
  lt : m < 2 ^ 53
  low : -1074 ≤ e
  full : e = -1074 ∨ 2 ^ 52 ≤ m

/-- How many times the smallest double. -/
def magnitude (m : Nat) (e : Int) : Nat := m * 2 ^ (e + 1074).toNat

/-- What would follow the largest double. -/
def top : Nat := magnitude (2 ^ 52) 972

theorem top_eq : top = magnitude (2 ^ 52) 972 := rfl

attribute [irreducible] top

theorem magnitude_pos (h : 0 < m) (e : Int) : 0 < magnitude m e :=
  Nat.mul_pos h (Nat.two_pow_pos _)

theorem top_pos : 0 < top := by
  rw [top_eq]
  exact magnitude_pos (by decide) _

/-- A full mantissa counts for more than any at a lower exponent. -/
theorem magnitude_lt_of_lt (hm : m < 2 ^ 53) (hn : 2 ^ 52 ≤ n) (he : -1074 ≤ e) (h : e < d) :
    magnitude m e < magnitude n d := by
  have hexponent : (e + 1074).toNat + 1 ≤ (d + 1074).toNat := by omega
  calc m * 2 ^ (e + 1074).toNat
    _ < 2 ^ 53 * 2 ^ (e + 1074).toNat := Nat.mul_lt_mul_of_pos_right hm (Nat.two_pow_pos _)
    _ = 2 ^ 52 * 2 ^ ((e + 1074).toNat + 1) := by rw [← Nat.pow_add, ← Nat.pow_add]; congr 1; omega
    _ ≤ n * 2 ^ (d + 1074).toNat :=
      Nat.mul_le_mul hn (Nat.pow_le_pow_right (by decide) hexponent)

theorem magnitude_lt_iff (hm : Normal m e) (hn : Normal n d) :
    magnitude m e < magnitude n d ↔ e < d ∨ e = d ∧ m < n := by
  have := hm.low
  have := hn.low
  rcases lt_trichotomy e d with hlt | rfl | hlt
  · have hfull := hn.full.resolve_left (by omega)
    exact iff_of_true (magnitude_lt_of_lt hm.lt hfull hm.low hlt) (Or.inl hlt)
  · simp [magnitude]
  · have hfull := hm.full.resolve_left (by omega)
    have hback := magnitude_lt_of_lt hn.lt hfull hn.low hlt
    omega

theorem magnitude_lt_top (h : Normal m e) (he : e < 972) : magnitude m e < top := by
  rw [top_eq]
  exact magnitude_lt_of_lt h.lt le_rfl h.low he

end Magnitudes

section Order

/-- The form that bits are unpacked to. -/
def Canonical : UnpackedFloat → Prop
  | .finite _ m e _ => Normal m e ∧ e < 972
  | _ => True

def units : UnpackedFloat → Int
  | .notANumber | .zero _ => 0
  | .finite s m e _ => s.apply (magnitude m e)
  | .infinity s => s.apply top

theorem lt_iff_units {x y : UnpackedFloat} (hx : Canonical x) (hy : Canonical y)
    (hnx : x.isNaN = false) (hny : y.isNaN = false) : x.lt y = true ↔ units x < units y := by
  have htop := top_pos
  have hbounds {m : Nat} {e : Int} (hpos : 0 < m) (h : Normal m e ∧ e < 972) :
      0 < magnitude m e ∧ magnitude m e < top :=
    ⟨magnitude_pos hpos e, magnitude_lt_top h.1 h.2⟩
  have hsigns : compare Sign.negative Sign.positive = .lt := rfl
  have hpositive (e d : Int) (m n : Nat) : (compare e d).then (compare m n) = .lt ↔
      e < d ∨ e = d ∧ m < n := by
    rw [Ordering.then_eq_lt, Int.compare_eq_lt, Int.compare_eq_eq, Nat.compare_eq_lt]
  have hnegative (e d : Int) (m n : Nat) : (compare e d).then (compare m n) = .gt ↔
      d < e ∨ d = e ∧ n < m := by
    rw [Ordering.then_eq_gt, Int.compare_eq_gt, Int.compare_eq_eq, Nat.compare_eq_gt,
      eq_comm (a := e)]
  rcases x with (_ | _) | _ | _ | ⟨(_ | _), m, e, hm⟩ <;>
    rcases y with (_ | _) | _ | _ | ⟨(_ | _), n, d, hn⟩ <;>
    simp [UnpackedFloat.lt, UnpackedFloat.compare, UnpackedFloat.isNaN, units, Sign.apply,
      Canonical, hsigns, hpositive, hnegative] at hx hy hnx hny ⊢
  all_goals first
    | omega
    | have := hbounds hm hx
      omega
    | have := hbounds hn hy
      omega
    | have := hbounds hm hx
      have := hbounds hn hy
      omega
    | exact (magnitude_lt_iff hx.1 hy.1).symm
    | exact (magnitude_lt_iff hy.1 hx.1).symm

end Order

section Fields

/-- Mantissa and exponent by the bits behind the sign. The lowest exponent has no full mantissas. -/
def fields (n : Nat) : Nat × Int :=
  if n < 2 ^ 52 then (n, -1074) else (2 ^ 52 + n % 2 ^ 52, (n / 2 ^ 52 : Nat) - 1075)

theorem normal_fields (n : Nat) : Normal (fields n).1 (fields n).2 := by
  unfold fields
  split
  · constructor <;> omega
  · constructor <;> omega

theorem fields_eq_of_lt {n : Nat} (h : n < 2 ^ 52) : fields n = (n, -1074) := if_pos h

theorem fields_eq_of_full {e m : Nat} (he : 0 < e) (hm : m < 2 ^ 52) :
    fields (e * 2 ^ 52 + m) = (2 ^ 52 + m, (e : Int) - 1075) := by
  have hfull : ¬ e * 2 ^ 52 + m < 2 ^ 52 := by omega
  rw [fields, if_neg hfull]
  ext <;> dsimp only <;> omega

/-- What the bits behind the sign count for. -/
def scale (n : Nat) : Nat := magnitude (fields n).1 (fields n).2

theorem scale_strictMono : StrictMono scale := by
  intro n n' h
  apply (magnitude_lt_iff (normal_fields n) (normal_fields n')).mpr
  unfold fields
  split <;> split <;> dsimp only <;> omega

theorem scale_zero : scale 0 = 0 := rfl

theorem scale_infinity : scale (2047 * 2 ^ 52) = top := by
  rw [top_eq]
  rfl

end Fields

section Bits

variable {s : Sign} {E : BitVec 11} {M : BitVec 52}

theorem toNat_implicit_append (M : BitVec 52) : (1#1 ++ M).toNat = 2 ^ 52 + M.toNat := by
  rw [BitVec.toNat_append, BitVec.toNat_ofNat, Nat.pow_one, Nat.one_mod, Nat.one_shiftLeft,
    ← Nat.two_pow_add_eq_or_of_lt M.isLt 1, Nat.mul_one]

theorem unpack_infinity (hE : E.toNat = 2047) (hM : M.toNat = 0) :
    UnpackedFloat.unpack .binary64 (packComponents .binary64 s E M) = .infinity s := by
  obtain rfl : E = 2047#11 := BitVec.eq_of_toNat_eq hE
  obtain rfl : M = 0#52 := BitVec.eq_of_toNat_eq hM
  simp [UnpackedFloat.unpack]

theorem isNaN_unpack (hE : E.toNat = 2047) (hM : 0 < M.toNat) :
    (UnpackedFloat.unpack .binary64 (packComponents .binary64 s E M)).isNaN = true := by
  obtain rfl : E = 2047#11 := BitVec.eq_of_toNat_eq hE
  have hfilled : M ≠ 0#52 := by
    rintro rfl
    exact lt_irrefl _ hM
  simp [UnpackedFloat.unpack, hfilled, UnpackedFloat.isNaN]

theorem unpack_zero (hE : E.toNat = 0) (hM : M.toNat = 0) :
    UnpackedFloat.unpack .binary64 (packComponents .binary64 s E M) = .zero s := by
  obtain rfl : E = 0#11 := BitVec.eq_of_toNat_eq hE
  obtain rfl : M = 0#52 := BitVec.eq_of_toNat_eq hM
  simp [UnpackedFloat.unpack]

theorem unpack_short (hE : E.toNat = 0) (hM : 0 < M.toNat) :
    UnpackedFloat.unpack .binary64 (packComponents .binary64 s E M) =
      .finite s M.toNat (-1074) hM := by
  obtain rfl : E = 0#11 := BitVec.eq_of_toNat_eq hE
  have hfilled : M ≠ 0#52 := by
    rintro rfl
    exact lt_irrefl _ hM
  simp [UnpackedFloat.unpack, hfilled, Format.exponentBias]

theorem unpack_full (hpos : 0 < E.toNat) (hlt : E.toNat < 2047) :
    UnpackedFloat.unpack .binary64 (packComponents .binary64 s E M) =
      .finite s (2 ^ 52 + M.toNat) (E.toNat - 1075) (Nat.add_pos_left (by decide) _) := by
  have hones : E ≠ 2047#11 := by
    rintro rfl
    exact lt_irrefl _ hlt
  have hzeros : E ≠ 0#11 := by
    rintro rfl
    exact lt_irrefl _ hpos
  simp [UnpackedFloat.unpack, hones, hzeros, Format.exponentBias, toNat_implicit_append]

/-- What is a number is unpacked to its canonical form, and counts for what its bits do. -/
theorem unpack_components
    (h : (UnpackedFloat.unpack .binary64 (packComponents .binary64 s E M)).isNaN = false) :
    Canonical (UnpackedFloat.unpack .binary64 (packComponents .binary64 s E M)) ∧
      units (UnpackedFloat.unpack .binary64 (packComponents .binary64 s E M)) =
        s.apply (scale (E.toNat * 2 ^ 52 + M.toNat)) := by
  have hM := M.isLt
  have hE : E.toNat = 2047 ∨ E.toNat = 0 ∨ 0 < E.toNat ∧ E.toNat < 2047 := by omega
  rcases hE with hE | hE | ⟨hpos, hlt⟩
  · rcases Nat.eq_zero_or_pos M.toNat with hzero | hfilled
    · rw [unpack_infinity hE hzero, hE, hzero, Nat.add_zero, scale_infinity]
      exact ⟨trivial, rfl⟩
    · rw [isNaN_unpack hE hfilled] at h
      cases h
  · rcases Nat.eq_zero_or_pos M.toNat with hzero | hfilled
    · rw [unpack_zero hE hzero, hE, hzero, Nat.add_zero, Nat.zero_mul, scale_zero]
      exact ⟨trivial, by cases s <;> rfl⟩
    · have hfields := fields_eq_of_lt hM
      have hnormal := normal_fields M.toNat
      rw [hfields] at hnormal
      rw [unpack_short hE hfilled, hE, Nat.zero_mul, Nat.zero_add, scale, hfields]
      exact ⟨⟨hnormal, by decide⟩, rfl⟩
  · have hfields := fields_eq_of_full hpos hM
    have hnormal := normal_fields (E.toNat * 2 ^ 52 + M.toNat)
    rw [hfields] at hnormal
    rw [unpack_full hpos hlt, scale, hfields]
    exact ⟨⟨hnormal, by omega⟩, rfl⟩

theorem log2_add_one_iff {m : Nat} (h : m < 2 ^ 53) : m.log2 + 1 = 53 ↔ 2 ^ 52 ≤ m := by
  rcases Nat.eq_zero_or_pos m with rfl | hpos
  · decide
  · have hlog : m.log2 = 52 ↔ 2 ^ 52 ≤ m := by
      rw [Nat.log2_eq_iff hpos.ne', and_iff_left h]
    omega

/-- What is finite comes back as it was packed, unless its exponent is too high. -/
theorem unpack_pack {m : Nat} {e : Int} {hm : 0 < m} (h : Normal m e) :
    UnpackedFloat.unpack .binary64 (UnpackedFloat.pack .binary64 (.finite s m e hm)) =
      if e < 972 then .finite s m e hm else .infinity s := by
  have hlow := h.low
  have hlt := h.lt
  have hbias : (Format.binary64.exponentBias : Int) = 1023 := rfl
  have hbits : Format.binary64.mantissaBits = 53 := rfl
  unfold UnpackedFloat.pack
  simp only [hbias, hbits, log2_add_one_iff hlt]
  split
  · have hhigh : ¬ e < 972 := by omega
    rw [if_neg hhigh, packedInfinity]
    exact unpack_infinity rfl rfl
  have hfinite : e < 972 := by omega
  rw [if_pos hfinite]
  split
  · have hE : (BitVec.ofNat 11 (e + 1023 + (52 : Nat)).toNat).toNat = (e + 1075).toNat := by
      rw [BitVec.toNat_ofNat]
      omega
    have hM : (BitVec.ofNat 52 m).toNat = m - 2 ^ 52 := by
      rw [BitVec.toNat_ofNat]
      omega
    rw [unpack_full (by omega) (by omega)]
    congr 1 <;> omega
  · have hM : (BitVec.ofNat 52 m).toNat = m := by
      rw [BitVec.toNat_ofNat]
      omega
    rw [unpack_short rfl (by omega)]
    have := h.full
    congr 1; omega

/-- The bits of a number say in their order how many units it is. -/
theorem unpack_spec {b : BitVec 64} (h : (UnpackedFloat.unpack .binary64 b).isNaN = false) :
    Canonical (UnpackedFloat.unpack .binary64 b) ∧ units (UnpackedFloat.unpack .binary64 b) =
      if b.toNat < 2 ^ 63 then (scale b.toNat : Int) else -scale (b.toNat - 2 ^ 63) := by
  let s := Sign.ofBitVec (@unpackSign .binary64 b)
  let E : BitVec 11 := @unpackExponent .binary64 b
  let M : BitVec 52 := @unpackMantissa .binary64 b
  have hb : packComponents .binary64 s E M = b :=
    @packComponents_unpackSign_unpackExponent_unpackMantissa .binary64 b
  have hE : E.toNat = b.toNat / 2 ^ 52 % 2 ^ 11 := by
    simp [E, unpackExponent_def, BitVec.extractLsb'_toNat, Nat.shiftRight_eq_div_pow]
  have hM : M.toNat = b.toNat % 2 ^ 52 := by
    simp [M, unpackMantissa_def, BitVec.extractLsb'_toNat]
  have hplace : E.toNat * 2 ^ 52 + M.toNat = b.toNat % 2 ^ 63 := by omega
  rw [← hb] at h
  have hspec := unpack_components h
  rw [hb, hplace] at hspec
  refine ⟨hspec.1, hspec.2.trans ?_⟩
  have hlt := b.isLt
  have hsign : (@unpackSign .binary64 b).toNat = b.toNat / 2 ^ 63 := by
    simp only [unpackSign_def, BitVec.extractLsb'_toNat, Nat.shiftRight_eq_div_pow]
    omega
  have hpositive : @unpackSign .binary64 b = 0#1 ↔ b.toNat < 2 ^ 63 := by
    rw [← BitVec.toNat_inj, hsign, BitVec.toNat_ofNat]
    omega
  simp only [s, Sign.ofBitVec, hpositive]
  split
  · rename_i hsmall
    rw [Nat.mod_eq_of_lt hsmall]
    rfl
  · have hrest : b.toNat % 2 ^ 63 = b.toNat - 2 ^ 63 := by omega
    rw [hrest]
    rfl

end Bits

end CodeSearch.Double
