import CodeSearch.Proofs.Double.Units

/-!
# Rounding

A sum or a difference of doubles is computed exactly and rounded to the nearest double, on a tie to
the one with an even mantissa. In units of the smallest double this is a division that is rounded,
and it keeps the order.
-/

set_option autoImplicit false

namespace CodeSearch.Double
open Float.Model Float.Model.UnpackedFloat

section Division
variable {v w c d : Nat}

/-- The quotient to the nearest number, on a tie to the even one. -/
def nearest (v d : Nat) : Nat :=
  if d < 2 * (v % d) ∨ 2 * (v % d) = d ∧ v / d % 2 = 1 then v / d + 1 else v / d

theorem div_le_nearest (v d : Nat) : v / d ≤ nearest v d := by
  unfold nearest
  split <;> omega

theorem nearest_le_div (v d : Nat) : nearest v d ≤ v / d + 1 := by
  unfold nearest
  split <;> omega

theorem nearest_mono (h : v ≤ w) (d : Nat) : nearest v d ≤ nearest w d := by
  rcases (Nat.div_le_div_right (c := d) h).eq_or_lt with heq | hlt
  · have hrest : v % d ≤ w % d := by
      have hv := Nat.div_add_mod v d
      have hw := Nat.div_add_mod w d
      rw [heq] at hv
      omega
    unfold nearest
    rw [heq]
    split <;> split <;> omega
  · exact (nearest_le_div v d).trans (hlt.trans_le (div_le_nearest w d))

theorem nearest_mul (hc : 0 < c) (v d : Nat) : nearest (v * c) (d * c) = nearest v d := by
  have htie : 2 * (v % d * c) = 2 * (v % d) * c := (Nat.mul_assoc ..).symm
  simp only [nearest, Nat.mul_div_mul_right _ _ hc, Nat.mul_mod_mul_right, htie,
    Nat.mul_lt_mul_right hc, Nat.mul_left_inj hc.ne']

theorem nearest_one (v : Nat) : nearest v 1 = v := by
  simp [nearest, Nat.mod_one]

theorem nearest_le (hd : 0 < d) (h : v ≤ c * d) : nearest v d ≤ c := by
  calc nearest v d
    _ ≤ nearest (c * d) (1 * d) := by rw [Nat.one_mul]; exact nearest_mono h d
    _ = c := by rw [nearest_mul hd, nearest_one]

theorem le_nearest (hd : 0 < d) (h : c * d ≤ v) : c ≤ nearest v d :=
  (Nat.le_div_iff_mul_le hd).mpr h |>.trans (div_le_nearest v d)

end Division

section Grid
variable {v w : Nat}

/-- The places that are dropped of a number of units to leave 53. -/
def dropped (v : Nat) : Nat := v.log2 - 52

/-- The nearest number of units with 53 places, on a tie the one with the even last place. -/
def onGrid (v : Nat) : Nat := nearest v (2 ^ dropped v) * 2 ^ dropped v

theorem nearest_le_full (v : Nat) : nearest v (2 ^ dropped v) ≤ 2 ^ 53 := by
  apply nearest_le (Nat.two_pow_pos _)
  rw [← Nat.pow_add]
  apply Nat.lt_log2_self.le.trans
  apply Nat.pow_le_pow_right (by decide)
  unfold dropped
  omega

theorem full_le_nearest (h : 0 < dropped v) : 2 ^ 52 ≤ nearest v (2 ^ dropped v) := by
  have hlog : 52 + dropped v = v.log2 := by
    unfold dropped at h ⊢
    omega
  have hne : v ≠ 0 := by
    rintro rfl
    cases h
  apply le_nearest (Nat.two_pow_pos _)
  rw [← Nat.pow_add, hlog]
  exact Nat.log2_self_le hne

theorem onGrid_mono (h : v ≤ w) : onGrid v ≤ onGrid w := by
  have hlog : v.log2 ≤ w.log2 := by
    rw [Nat.log2_eq_log_two, Nat.log2_eq_log_two]
    exact Nat.log_mono_right h
  have hdropped : dropped v ≤ dropped w := Nat.sub_le_sub_right hlog 52
  rcases hdropped.eq_or_lt with heq | hlt
  · rw [onGrid, onGrid, heq]
    exact Nat.mul_le_mul_right _ (nearest_mono h _)
  · calc nearest v (2 ^ dropped v) * 2 ^ dropped v
      _ ≤ 2 ^ 53 * 2 ^ dropped v := Nat.mul_le_mul_right _ (nearest_le_full v)
      _ = 2 ^ 52 * 2 ^ (dropped v + 1) := by rw [← Nat.pow_add, ← Nat.pow_add]; congr 1; omega
      _ ≤ nearest w (2 ^ dropped w) * 2 ^ dropped w :=
        Nat.mul_le_mul (full_le_nearest (by omega)) (Nat.pow_le_pow_right (by decide) hlt)

end Grid

section Shifting

/-- A mantissa that was shifted stands for what it was before, up to the rest that was shifted out
of it. The two bits that are kept of the rest say where it lies to one half. -/
structure Shifted (m k : Nat) (em : ExtendedMantissa) : Prop where
  mantissa : em.mantissa = m / 2 ^ k
  roundBit : em.roundBit = true ↔ 2 ^ k ≤ 2 * (m % 2 ^ k)
  stickyBit : em.stickyBit = true ↔ m % 2 ^ k ≠ 0 ∧ 2 * (m % 2 ^ k) ≠ 2 ^ k

theorem Shifted.shiftRightOne {m k : Nat} {em : ExtendedMantissa} (h : Shifted m k em) :
    Shifted m (k + 1) em.shiftRightOne := by
  have hpos : 0 < 2 ^ k := Nat.two_pow_pos k
  have hlt : m % 2 ^ k < 2 ^ k := Nat.mod_lt m hpos
  have hpow : 2 ^ (k + 1) = 2 ^ k * 2 := Nat.pow_succ ..
  have hmod : m % 2 ^ (k + 1) = m % 2 ^ k + 2 ^ k * (m / 2 ^ k % 2) := by
    rw [hpow, Nat.mod_mul]
  have hbit : m / 2 ^ k % 2 = 0 ∨ m / 2 ^ k % 2 = 1 := Nat.mod_two_eq_zero_or_one _
  constructor
  · rw [ExtendedMantissa.shiftRightOne, h.mantissa, Nat.div_div_eq_div_mul, hpow]
  · rw [ExtendedMantissa.shiftRightOne, h.mantissa, bne_iff_ne, hmod, hpow]
    rcases hbit with hbit | hbit <;> rw [hbit] <;> omega
  · rw [ExtendedMantissa.shiftRightOne, Bool.or_eq_true, h.roundBit, h.stickyBit, hmod, hpow]
    rcases hbit with hbit | hbit <;> rw [hbit] <;> omega

theorem shifted_shiftRight (m k : Nat) :
    Shifted m k ((⟨m, false, false⟩ : ExtendedMantissa) >>> k) := by
  induction k with
  | zero => constructor <;> simp [HShiftRight.hShiftRight, Nat.repeat, Nat.mod_one]
  | succ k ih => exact ih.shiftRightOne

theorem Shifted.roundedMantissa {m k : Nat} {em : ExtendedMantissa} (h : Shifted m k em) :
    em.roundedMantissa = nearest m (2 ^ k) := by
  obtain ⟨q, r, s⟩ := em
  obtain ⟨rfl, hr, hs⟩ := h
  have hlt : m % 2 ^ k < 2 ^ k := Nat.mod_lt m (Nat.two_pow_pos k)
  unfold nearest
  cases r <;> cases s <;>
    simp only [ExtendedMantissa.roundedMantissa, ExtendedMantissa.accuracy,
      Accuracy.roundToNearestEven, Bool.false_eq_true, false_iff, true_iff] at hr hs ⊢ <;>
    split <;> omega

end Shifting

section Rounding
variable {s : Sign} {m n : Nat} {e t : Int}

theorem log2_mul_two_pow (hm : 0 < m) (k : Nat) : (m * 2 ^ k).log2 = m.log2 + k := by
  have hpos : 0 < 2 ^ k := Nat.two_pow_pos k
  apply (Nat.log2_eq_iff (Nat.mul_pos hm hpos).ne').mpr
  constructor
  · rw [Nat.pow_add]
    exact Nat.mul_le_mul_right _ (Nat.log2_self_le hm.ne')
  · rw [Nat.add_right_comm, Nat.pow_add]
    exact Nat.mul_lt_mul_of_pos_right Nat.lt_log2_self hpos

/-- The exponent that leaves 53 places, unless it is the lowest. -/
def target (m : Nat) (e : Int) : Int := max (m.log2 + e - 52) (-1074)

theorem targetExponent_eq (m : Nat) (e : Int) :
    Format.binary64.targetExponent (totalExponent m e) = target m e := by
  have hbits : (Format.binary64.mantissaBits : Int) = 53 := rfl
  have hlowest : Format.binary64.minExponent = -1074 := rfl
  rw [Format.targetExponent, totalExponent, hbits, hlowest, target]
  omega

theorem dropped_magnitude (hm : 0 < m) (he : -1074 ≤ e) :
    dropped (magnitude m e) = (target m e + 1074).toNat := by
  rw [dropped, magnitude, log2_mul_two_pow hm, target]
  omega

/-- The places to drop are those below the target. -/
theorem nearest_magnitude (hm : 0 < m) (he : -1074 ≤ e) (h : e ≤ target m e) :
    nearest (magnitude m e) (2 ^ dropped (magnitude m e)) =
      nearest m (2 ^ (target m e - e).toNat) := by
  have hplaces : (target m e + 1074).toNat = (target m e - e).toNat + (e + 1074).toNat := by omega
  rw [dropped_magnitude hm he, hplaces, Nat.pow_add, magnitude, nearest_mul (Nat.two_pow_pos _)]

theorem shift_of_le (h : target n t ≤ t) :
    shiftToTargetExponent .binary64 n t .exact = (⟨n, false, false⟩, t) := by
  have hplaces : (target n t - t).toNat = 0 := by omega
  simp only [shiftToTargetExponent, shiftToExponent, targetExponent_eq, hplaces]
  simp [ExtendedMantissa.ofMantissaAndAccuracy, HShiftRight.hShiftRight, Nat.repeat]

theorem target_full (ht : -1074 ≤ t) : target (2 ^ 53) t = t + 1 := by
  rw [target, Nat.log2_two_pow]
  omega

theorem shift_full (ht : -1074 ≤ t) :
    shiftToTargetExponent .binary64 (2 ^ 53) t .exact = (⟨2 ^ 52, false, false⟩, t + 1) := by
  have hplaces : (t + 1 - t).toNat = 1 := by omega
  simp only [shiftToTargetExponent, shiftToExponent, targetExponent_eq, target_full ht, hplaces]
  rfl

theorem target_le (hn : n < 2 ^ 53) (ht : -1074 ≤ t) : target n t ≤ t := by
  have hlog : n.log2 ≤ 52 := by
    rcases Nat.eq_zero_or_pos n with rfl | hpos
    · decide
    · have := (Nat.log2_lt hpos.ne').mpr hn
      omega
  unfold target
  omega

/-- The zero, or the one finite double, that counts for so many units. -/
def CountsFor (s : Sign) (v : Nat) (x : UnpackedFloat) : Prop :=
  v = 0 ∧ x = .zero s ∨ ∃ m e h, x = .finite s m e h ∧ Normal m e ∧ magnitude m e = v

/-- What was rounded fits into 53 places or is the lowest number with 54. Then its last place is
zero and is dropped, so nothing is rounded twice. -/
theorem countsFor_shifted (hn : n ≤ 2 ^ 53) (ht : -1074 ≤ t) (hfull : t = -1074 ∨ 2 ^ 52 ≤ n)
    {last : ExtendedMantissa × Int} (hlast : shiftToTargetExponent .binary64 n t .exact = last) :
    CountsFor s (magnitude n t)
      (if h : last.1.mantissa = 0 then .zero s
        else .finite s last.1.mantissa last.2 (Nat.pos_of_ne_zero h)) := by
  rcases hn.lt_or_eq with hlt | rfl
  · rw [shift_of_le (target_le hlt ht)] at hlast
    subst hlast
    dsimp only
    split
    · rename_i hzero
      exact Or.inl ⟨by rw [hzero, magnitude, Nat.zero_mul], rfl⟩
    · rename_i hne
      exact Or.inr ⟨n, t, Nat.pos_of_ne_zero hne, rfl, ⟨hlt, ht, hfull⟩, rfl⟩
  · rw [shift_full ht] at hlast
    subst hlast
    have hnormal : Normal (2 ^ 52) (t + 1) := ⟨by decide, by omega, Or.inr le_rfl⟩
    refine Or.inr ⟨2 ^ 52, t + 1, by decide, rfl, hnormal, ?_⟩
    have hplaces : (t + 1 + 1074).toNat = (t + 1074).toNat + 1 := by omega
    rw [magnitude, magnitude, hplaces, ← Nat.pow_add, ← Nat.pow_add]
    congr 1
    omega

theorem countsFor_roundWithAccuracy (s : Sign) (hm : 0 < m) (he : -1074 ≤ e)
    (h : e ≤ target m e) :
    CountsFor s (onGrid (magnitude m e)) (roundWithAccuracy .binary64 s m e .exact) := by
  have hlow : -1074 ≤ target m e := le_max_right ..
  have hdropped := dropped_magnitude hm he
  have hgrid : onGrid (magnitude m e) =
      magnitude (nearest (magnitude m e) (2 ^ dropped (magnitude m e))) (target m e) := by
    rw [onGrid, hdropped]
    rfl
  have hmantissa : (shiftToTargetExponent .binary64 m e .exact).1.roundedMantissa =
      nearest (magnitude m e) (2 ^ dropped (magnitude m e)) := by
    rw [nearest_magnitude hm he h, ← (shifted_shiftRight m _).roundedMantissa, ← targetExponent_eq]
    rfl
  have hexponent : (shiftToTargetExponent .binary64 m e .exact).2 = target m e := by
    simp only [shiftToTargetExponent, shiftToExponent, targetExponent_eq]
    omega
  rw [hgrid, ← hmantissa, ← hexponent]
  apply countsFor_shifted _ _ _ rfl
  · rw [hmantissa]
    exact nearest_le_full _
  · rw [hexponent]
    exact hlow
  · rw [hmantissa, hexponent]
    rcases hlow.eq_or_lt with hlowest | hhigher
    · exact Or.inl hlowest.symm
    · exact Or.inr (full_le_nearest (by omega))

theorem countsFor_round (s : Sign) (hm : 0 < m) (he : -1074 ≤ e) :
    CountsFor s (onGrid (magnitude m e)) (UnpackedFloat.round .binary64 s m e) := by
  let d := (e - target m e).toNat
  have hlow : -1074 ≤ target m e := le_max_right ..
  have hpos : 0 < m * 2 ^ d := Nat.mul_pos hm (Nat.two_pow_pos d)
  have hplaces : (e + 1074).toNat = d + (e - d + 1074).toNat := by omega
  have hmagnitude : magnitude (m * 2 ^ d) (e - d) = magnitude m e := by
    rw [magnitude, magnitude, hplaces, Nat.pow_add, Nat.mul_assoc]
  have htarget : target (m * 2 ^ d) (e - d) = target m e := by
    rw [target, log2_mul_two_pow hm, target]
    omega
  have hround : UnpackedFloat.round .binary64 s m e =
      roundWithAccuracy .binary64 s (m * 2 ^ d) (e - d) .exact := by
    simp only [UnpackedFloat.round, decreaseExponent, targetExponent_eq, Nat.shiftLeft_eq]
    rfl
  rw [hround, ← hmagnitude]
  exact countsFor_roundWithAccuracy s hpos (by omega) (by omega)

end Rounding

section Results
variable {s : Sign} {m : Nat} {e z w : Int}

/-- A result as it is stored. -/
def stored (x : UnpackedFloat) : UnpackedFloat :=
  UnpackedFloat.unpack .binary64 (UnpackedFloat.pack .binary64 x)

theorem stored_zero (s : Sign) : stored (.zero s) = .zero s := unpack_packedZero

theorem stored_infinity (s : Sign) : stored (.infinity s) = .infinity s := unpack_infinity rfl rfl

theorem top_le_magnitude (h : Normal m e) (he : 972 ≤ e) : top ≤ magnitude m e := by
  have hlowest : Normal (2 ^ 52) 972 := ⟨by decide, by decide, Or.inr le_rfl⟩
  have hfull := h.full
  rw [top_eq, ← not_lt, magnitude_lt_iff h hlowest]
  omega

/-- The nearest units that a double can have. -/
def rounded (v : Nat) : Nat := min (onGrid v) top

theorem units_stored_round (s : Sign) (hm : 0 < m) (he : -1074 ≤ e) :
    (stored (UnpackedFloat.round .binary64 s m e)).isNaN = false ∧
      units (stored (UnpackedFloat.round .binary64 s m e)) =
        s.apply (rounded (magnitude m e)) := by
  rcases countsFor_round s hm he with ⟨hzero, h⟩ | ⟨m', e', hm', h, hnormal, hgrid⟩
  · rw [h, stored_zero, rounded, hzero, Nat.zero_min]
    exact ⟨rfl, by cases s <;> rfl⟩
  · rw [h, stored, unpack_pack hnormal, rounded, ← hgrid]
    split
    · rename_i hlow
      rw [min_eq_left (magnitude_lt_top hnormal hlow).le]
      exact ⟨rfl, rfl⟩
    · rename_i hhigh
      rw [min_eq_right (top_le_magnitude hnormal (by omega))]
      exact ⟨rfl, rfl⟩

def roundedUnits (z : Int) : Int :=
  if z < 0 then -(rounded z.natAbs : Int) else rounded z.natAbs

theorem roundedUnits_mono (h : z ≤ w) : roundedUnits z ≤ roundedUnits w := by
  have hmono {v w : Nat} (h : v ≤ w) : rounded v ≤ rounded w :=
    min_le_min_right _ (onGrid_mono h)
  unfold roundedUnits
  split
  · split
    · have hback : rounded w.natAbs ≤ rounded z.natAbs := hmono (by omega)
      omega
    · omega
  · have hnonneg : ¬ w < 0 := by omega
    have hon : rounded z.natAbs ≤ rounded w.natAbs := hmono (by omega)
    rw [if_neg hnonneg]
    omega

theorem rounded_zero : rounded 0 = 0 := Nat.zero_min top

theorem roundedUnits_apply (s : Sign) (v : Nat) :
    roundedUnits (s.apply v) = s.apply (rounded v) := by
  rcases Nat.eq_zero_or_pos v with rfl | hpos
  · cases s <;> exact congrArg Int.ofNat rounded_zero
  · cases s with
    | negative =>
      have hbelow : -(v : Int) < 0 := by omega
      rw [Sign.apply, roundedUnits, if_pos hbelow, Int.natAbs_neg, Int.natAbs_natCast, Sign.apply]
    | positive =>
      have habove : ¬ (v : Int) < 0 := by omega
      rw [Sign.apply, roundedUnits, if_neg habove, Int.natAbs_natCast, Sign.apply]

theorem apply_mul (s : Sign) (n k : Nat) : s.apply n * k = s.apply (n * k : Nat) := by
  cases s <;> simp [Sign.apply]

theorem units_stored_normalize (z : Int) (he : -1074 ≤ e) (zero : Sign) :
    (stored (UnpackedFloat.normalize .binary64 z e zero)).isNaN = false ∧
      units (stored (UnpackedFloat.normalize .binary64 z e zero)) =
        roundedUnits (z * (2 ^ (e + 1074).toNat : Nat)) := by
  have hround {s : Sign} {n : Nat} (hn : 0 < n) (hz : z = s.apply n)
      (h : UnpackedFloat.normalize .binary64 z e zero = UnpackedFloat.round .binary64 s n e) :
      (stored (UnpackedFloat.normalize .binary64 z e zero)).isNaN = false ∧
        units (stored (UnpackedFloat.normalize .binary64 z e zero)) =
          roundedUnits (z * (2 ^ (e + 1074).toNat : Nat)) := by
    rw [h, hz, apply_mul, roundedUnits_apply]
    exact units_stored_round s hn he
  rcases lt_trichotomy z 0 with hneg | rfl | hpos
  · apply hround (s := .negative) (n := (-z).toNat) (by omega)
    · simp only [Sign.apply]
      omega
    · rw [UnpackedFloat.normalize, Int.compare_eq_lt.mpr hneg]
  · have hzero : UnpackedFloat.normalize .binary64 0 e zero = .zero zero := rfl
    rw [hzero, stored_zero, Int.zero_mul]
    exact ⟨rfl, congrArg Int.ofNat rounded_zero.symm⟩
  · apply hround (s := .positive) (n := z.toNat) (by omega)
    · simp only [Sign.apply]
      omega
    · rw [UnpackedFloat.normalize, Int.compare_eq_gt.mpr hpos]

end Results

section Differences
variable {s : Sign} {m : Nat} {e : Int} {hm : 0 < m} {y y' : UnpackedFloat}

theorem target_normal (h : Normal m e) (hm : 0 < m) : target m e = e := by
  have hle := target_le h.lt h.low
  have hlog : 2 ^ 52 ≤ m → m.log2 = 52 := fun hfull =>
    (Nat.log2_eq_iff hm.ne').mpr ⟨hfull, h.lt⟩
  have hfull := h.full.imp_right hlog
  unfold target at hle ⊢
  omega

/-- Doubles are on the grid that is rounded to. -/
theorem rounded_magnitude (h : Normal m e) (hm : 0 < m) (he : e < 972) :
    rounded (magnitude m e) = magnitude m e := by
  have htarget := target_normal h hm
  have hnearest : nearest (magnitude m e) (2 ^ dropped (magnitude m e)) = m := by
    rw [nearest_magnitude hm h.low htarget.ge, htarget, Int.sub_self]
    exact nearest_one m
  rw [rounded, onGrid, hnearest, dropped_magnitude hm h.low, htarget]
  exact min_eq_left (magnitude_lt_top h he).le

/-- The difference to a finite double is the exact one, rounded. -/
theorem units_stored_sub (h : Canonical (.finite s m e hm)) (hy : Canonical y)
    (hfinite : y.isFinite = true) :
    (stored (UnpackedFloat.sub .binary64 (.finite s m e hm) y)).isNaN = false ∧
      units (stored (UnpackedFloat.sub .binary64 (.finite s m e hm) y)) =
        roundedUnits (units (.finite s m e hm) - units y) := by
  cases y with
  | infinity | notANumber => cases hfinite
  | zero s' =>
    have hsub : UnpackedFloat.sub .binary64 (.finite s m e hm) (.zero s') = .finite s m e hm := rfl
    have hstored : stored (.finite s m e hm) = .finite s m e hm := by
      rw [stored, unpack_pack h.1, if_pos h.2]
    rw [hsub, hstored]
    refine ⟨rfl, ?_⟩
    simp only [units, Int.sub_zero, roundedUnits_apply, rounded_magnitude h.1 hm h.2]
  | finite s' n d hn =>
    have hlow : -1074 ≤ min e d := le_min h.1.low hy.1.low
    have hshift {n : Nat} {d t : Int} (ht : -1074 ≤ t) (hd : t ≤ d) :
        (n <<< (d - t).toNat) * 2 ^ (t + 1074).toNat = magnitude n d := by
      have hplaces : (d + 1074).toNat = (d - t).toNat + (t + 1074).toNat := by omega
      rw [magnitude, hplaces, Nat.pow_add, Nat.shiftLeft_eq, Nat.mul_assoc]
    have hunits : (s.apply (m <<< (e - min e d).toNat : Nat) -
        s'.apply (n <<< (d - min e d).toNat : Nat)) * (2 ^ (min e d + 1074).toNat : Nat) =
          units (.finite s m e hm) - units (.finite s' n d hn) := by
      rw [Int.sub_mul, apply_mul, apply_mul, hshift hlow (min_le_left ..),
        hshift hlow (min_le_right ..), units, units]
    rw [← hunits]
    exact units_stored_normalize _ hlow .positive

theorem units_lt_top {x : UnpackedFloat} (hx : Canonical x) (hfinite : x.isFinite = true) :
    -(top : Int) < units x ∧ units x < top := by
  have htop := top_pos
  cases x with
  | infinity | notANumber => cases hfinite
  | zero =>
    simp only [units]
    omega
  | finite s m e =>
    have hlt := magnitude_lt_top hx.1 hx.2
    cases s <;> simp only [units, Sign.apply] <;> omega

theorem units_le_top {x : UnpackedFloat} (hx : Canonical x) :
    -(top : Int) ≤ units x ∧ units x ≤ top := by
  have htop := top_pos
  cases x with
  | infinity s => cases s <;> simp only [units, Sign.apply] <;> omega
  | notANumber =>
    simp only [units]
    omega
  | zero | finite => exact (units_lt_top hx rfl).imp Int.le_of_lt Int.le_of_lt

theorem finite_or_infinity {x : UnpackedFloat} (h : x.isNaN = false) :
    x.isFinite = true ∨ x = .infinity .negative ∨ x = .infinity .positive := by
  cases x with
  | infinity s => cases s <;> simp
  | notANumber => cases h
  | zero | finite => exact Or.inl rfl

theorem canonical_stored (x : UnpackedFloat) : Canonical (stored x) := by
  cases h : (stored x).isNaN with
  | false => exact (unpack_spec h).1
  | true =>
    generalize stored x = y at h
    cases y with
    | finite => cases h
    | _ => trivial

/-- Taking more away leaves no more. -/
theorem stored_sub_antitone (h : Canonical (.finite s m e hm)) (hy : Canonical y)
    (hy' : Canonical y') (hny : y.isNaN = false) (hny' : y'.isNaN = false)
    (hle : units y ≤ units y') :
    units (stored (UnpackedFloat.sub .binary64 (.finite s m e hm) y')) ≤
      units (stored (UnpackedFloat.sub .binary64 (.finite s m e hm) y)) := by
  have hbounds := units_le_top
    (canonical_stored (UnpackedFloat.sub .binary64 (.finite s m e hm) y))
  have hbounds' := units_le_top
    (canonical_stored (UnpackedFloat.sub .binary64 (.finite s m e hm) y'))
  have hless : stored (UnpackedFloat.sub .binary64 (.finite s m e hm) (.infinity .positive)) =
      .infinity .negative := stored_infinity _
  have hmore : stored (UnpackedFloat.sub .binary64 (.finite s m e hm) (.infinity .negative)) =
      .infinity .positive := stored_infinity _
  have hlowest : units (.infinity .negative) = -(top : Int) := rfl
  have hhighest : units (.infinity .positive) = top := rfl
  rcases finite_or_infinity hny with hfinite | rfl | rfl
  · rcases finite_or_infinity hny' with hfinite' | rfl | rfl
    · rw [(units_stored_sub h hy' hfinite').2, (units_stored_sub h hy hfinite).2]
      exact roundedUnits_mono (by omega)
    · have := (units_lt_top hy hfinite).1
      omega
    · rw [hless]
      exact hbounds.1
  · rw [hmore]
    exact hbounds'.2
  · rcases finite_or_infinity hny' with hfinite' | rfl | rfl
    · have := (units_lt_top hy' hfinite').2
      omega
    · have := top_pos
      omega
    · exact le_rfl

theorem isNaN_stored_sub (h : Canonical (.finite s m e hm)) (hy : Canonical y)
    (hny : y.isNaN = false) :
    (stored (UnpackedFloat.sub .binary64 (.finite s m e hm) y)).isNaN = false := by
  rcases finite_or_infinity hny with hfinite | rfl | rfl
  · exact (units_stored_sub h hy hfinite).1
  · exact congrArg UnpackedFloat.isNaN (stored_infinity .positive)
  · exact congrArg UnpackedFloat.isNaN (stored_infinity .negative)

end Differences

end CodeSearch.Double
