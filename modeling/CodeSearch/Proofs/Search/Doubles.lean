import CodeSearch.Proofs.Double.Rounding
import CodeSearch.Proofs.Search.Order

/-!
# The order of doubles

Doubles that are numbers are in the order of their units, and what is no number is in order with
nothing. The distances of a search are numbers, so they put its candidates in order, and the
differences to one put its hits in order.
-/

set_option autoImplicit false

namespace CodeSearch
open Float.Model

/-- What is no number compares with nothing, either way round. -/
theorem unpacked_compare_swap (x y : UnpackedFloat) :
    y.compare x = (x.compare y).map Ordering.swap := by
  rcases x with (_ | _) | _ | _ | ⟨(_ | _), m, e, _⟩ <;>
    rcases y with (_ | _) | _ | _ | ⟨(_ | _), n, d, _⟩ <;>
    first
    | rfl
    | simp only [UnpackedFloat.compare, Option.map_some, Ordering.swap_then, Nat.compare_swap,
        Int.compare_swap]

section Numbers
variable {x y z : Float}

abbrev IsNumber (x : Float) : Prop := x.isNaN = false

def doubleUnits (x : Float) : Int := Double.units x.toModel.unpack

theorem canonical_double (h : IsNumber x) : Double.Canonical x.toModel.unpack :=
  (Double.unpack_spec h).1

theorem double_lt_iff (hx : IsNumber x) (hy : IsNumber y) :
    Score.lt x y = true ↔ doubleUnits x < doubleUnits y := by
  have hunpacked : Score.lt x y = true ↔ x.toModel.unpack.lt y.toModel.unpack = true := by
    constructor
    · intro h
      exact of_decide_eq_true (of_decide_eq_true h)
    · intro h
      exact decide_eq_true (decide_eq_true h)
  exact hunpacked.trans (Double.lt_iff_units (canonical_double hx) (canonical_double hy) hx hy)

theorem double_not_lt_iff (hx : IsNumber x) (hy : IsNumber y) :
    Score.lt x y = false ↔ doubleUnits y ≤ doubleUnits x := by
  rw [← Bool.not_eq_true, double_lt_iff hx hy, not_lt]

theorem doubleUnits_eq (h : IsNumber x) : doubleUnits x =
    if x.toBits.toNat < 2 ^ 63 then (Double.scale x.toBits.toNat : Int)
    else -Double.scale (x.toBits.toNat - 2 ^ 63) :=
  (Double.unpack_spec h).2

/-- The key to sort by goes by the units, with the zeros apart. -/
theorem floatSortKey_lt (hx : IsNumber x) (hy : IsNumber y)
    (h : doubleUnits x < doubleUnits y) : floatSortKey x < floatSortKey y := by
  have hscale {n n' : Nat} (h : Double.scale n < Double.scale n') : n < n' :=
    Double.scale_strictMono.lt_iff_lt.mp h
  rw [doubleUnits_eq hx, doubleUnits_eq hy] at h
  have hhalf : Nat.pow 2 63 = 2 ^ 63 := rfl
  simp only [floatSortKey, hhalf]
  generalize x.toBits.toNat = n at h ⊢
  generalize y.toBits.toNat = n' at h ⊢
  by_cases hn : n < 2 ^ 63 <;> by_cases hn' : n' < 2 ^ 63 <;>
    simp only [hn, hn', if_true, if_false] at h ⊢
  · exact Int.ofNat_lt.mpr (hscale (Int.ofNat_lt.mp h))
  · omega
  · omega
  · have := hscale (Int.ofNat_lt.mp (neg_lt_neg_iff.mp h))
    omega

theorem canonical_one : Double.Canonical (.finite .positive (2 ^ 52) (-52) (by decide)) :=
  ⟨⟨by decide, by decide, Or.inr le_rfl⟩, by decide⟩

theorem isNumber_one_sub (hx : IsNumber x) : IsNumber (Score.one - x) :=
  Double.isNaN_stored_sub canonical_one (canonical_double hx) hx

theorem one_sub_antitone (hx : IsNumber x) (hy : IsNumber y)
    (h : doubleUnits x ≤ doubleUnits y) :
    doubleUnits (Score.one - y) ≤ doubleUnits (Score.one - x) :=
  Double.stored_sub_antitone canonical_one (canonical_double hx) (canonical_double hy) hx hy h

/-- The arithmetic of doubles is lawful among all that are numbers. -/
theorem lawfulOn_numbers : Score.LawfulOn IsNumber where
  lt_asymm {x y} hx hy h := by
    rw [double_lt_iff hx hy] at h
    rw [double_not_lt_iff hy hx]
    exact h.le
  lt_or_lt {x y z} hx hy hz h := by
    rw [double_lt_iff hx hz] at h
    rw [double_lt_iff hx hy, double_lt_iff hy hz]
    omega
  one_sub := isNumber_one_sub
  lt_of_sub_lt_sub {x y} hx hy h := by
    rw [double_lt_iff (isNumber_one_sub hy) (isNumber_one_sub hx)] at h
    rw [double_lt_iff hx hy]
    by_contra hnot
    exact absurd h (not_lt.mpr (one_sub_antitone hy hx (not_lt.mp hnot)))
  sortLe_total {x y} _ _ := by
    simp only [Score.sortLe, Bool.or_eq_true, decide_eq_true_eq]
    exact le_total _ _
  sortLe_trans {x y z} _ _ _ hxy hyz := by
    simp only [Score.sortLe, decide_eq_true_eq] at hxy hyz ⊢
    exact hxy.trans hyz
  not_lt_of_sortLe {x y} hx hy h := by
    rw [double_not_lt_iff hx hy]
    by_contra hnot
    have hkey := floatSortKey_lt hx hy (not_le.mp hnot)
    exact absurd (of_decide_eq_true h) (not_le.mpr hkey)
  lt_of_larger_lt {x y z} hx hy hz := by
    have hlarger : Score.larger x y = if x < y then y else x := by
      simp only [Score.larger, hx, hy, Bool.false_eq_true, if_false]
    rw [hlarger]
    split
    · rename_i hlt
      have hxy := (double_lt_iff hx hy).mp (decide_eq_true hlt)
      rw [double_lt_iff hx hz, double_lt_iff hy hz]
      omega
    · rename_i hnot
      have hyx := (double_not_lt_iff hx hy).mp (decide_eq_false hnot)
      rw [double_lt_iff hx hz, double_lt_iff hy hz]
      omega

end Numbers

/-- The distances to a query are numbers. -/
theorem cosineDistance_number {query v : Vec} {d : Float} (h : cosineDistance query v = some d) :
    IsNumber d := by
  unfold cosineDistance at h
  dsimp only at h
  split at h
  · simp at h
  · rename_i hnumber
    obtain rfl := Option.some.inj h
    exact eq_false_of_ne_true hnumber

end CodeSearch
