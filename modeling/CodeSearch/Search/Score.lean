/-!
The arithmetic that similarities are measured in. Ranking uses nothing of its numbers but the
operations of this class, so it can be run on doubles and studied on rationals.
-/

set_option autoImplicit false

namespace CodeSearch

class Score (α : Type) extends Add α, Sub α, Mul α, Div α where
  ofNat : Nat → α
  /-- The number `digits / 10 ^ places`. -/
  ofDecimal : Nat → Nat → α
  /-- Numeric order; nothing is less than or equal to what is no number. -/
  le : α → α → Bool
  lt : α → α → Bool
  /-- A total order for sorting. -/
  sortLe : α → α → Bool
  /-- The larger of two; what is no number is passed over. -/
  larger : α → α → α

namespace Score

def one {α : Type} [Score α] : α := ofNat 1

end Score

/-- Doubles in the order of a signed magnitude: the zeros are apart, and what is no number ends the
order on the side of its sign. -/
def floatSortKey (x : Float) : Int :=
  let bits := x.toBits.toNat
  if bits < Nat.pow 2 63 then bits else -((bits - Nat.pow 2 63 : Nat) : Int) - 1

instance : Score Float where
  ofNat := Float.ofNat
  ofDecimal digits places := Float.ofScientific digits true places
  le x y := x <= y
  lt x y := x < y
  sortLe x y := decide (floatSortKey x ≤ floatSortKey y)
  larger x y := if x.isNaN then y else if y.isNaN then x else if x < y then y else x

instance : Score Rat where
  ofNat n := (n : Rat)
  ofDecimal digits places := (digits : Rat) / (Nat.pow 10 places : Rat)
  le x y := decide (x ≤ y)
  lt x y := decide (x < y)
  sortLe x y := decide (x ≤ y)
  larger x y := if x < y then y else x

end CodeSearch
