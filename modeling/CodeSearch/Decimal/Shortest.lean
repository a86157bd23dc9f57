/-!
The shortest decimal that reads back as a given double. A finite double is a whole number times a
power of two; the reals nearest to it form an interval, and the answer is the point of the coarsest
decimal grid in that interval, the nearest one where there are two.
-/

set_option autoImplicit false

namespace CodeSearch.Decimal

/-- A decimal number `digits · 10 ^ exponent`. -/
structure Scaled where
  digits : Nat
  exponent : Int
deriving DecidableEq, Repr

/-- A positive double as `mantissa · 2 ^ exponent`. `narrow` says that the double below is closer
than the one above. -/
structure Binary where
  mantissa : Nat
  exponent : Int
  narrow : Bool
deriving DecidableEq, Repr

/-- Decodes the bits of a finite double, the sign apart. -/
def Binary.ofBits (bits : Nat) : Binary :=
  let fraction : Nat := bits % Nat.pow 2 52
  let biased : Nat := bits / Nat.pow 2 52 % Nat.pow 2 11
  if biased = 0 then ⟨fraction, -1074, false⟩
  else ⟨fraction + Nat.pow 2 52, (biased : Int) - 1075, fraction == 0 && biased != 1⟩

structure Quotient where
  numerator : Nat
  denominator : Nat

/-- `n · 2 ^ e` as a quotient. -/
def Quotient.ofBinary (n : Nat) (e : Int) : Quotient :=
  if 0 ≤ e then ⟨n * Nat.pow 2 e.toNat, 1⟩ else ⟨n, Nat.pow 2 (-e).toNat⟩

/-- The number `q / 10 ^ e`. -/
def Quotient.downBy (q : Quotient) (e : Int) : Quotient :=
  if 0 ≤ e then { q with denominator := q.denominator * Nat.pow 10 e.toNat }
  else { q with numerator := q.numerator * Nat.pow 10 (-e).toNat }

/-- The larger of `10 ^ k ≤ n / d`, searched from `k` with `fuel` steps either way. -/
def exponentFrom (q : Quotient) : Nat → Int → Int
  | 0, k => k
  | fuel + 1, k =>
    let scaled := q.downBy k
    if scaled.numerator < scaled.denominator then exponentFrom q fuel (k - 1)
    else if scaled.denominator * 10 ≤ scaled.numerator then exponentFrom q fuel (k + 1)
    else k

/-- Greatest `k` with `10 ^ k ≤ q`; doubles lie between `10 ^ -324` and `10 ^ 309`. -/
def decimalExponent (q : Quotient) : Int := exponentFrom q 700 0

/-- A grid point within the interval of reals nearest to `b`, on the grid of step `10 ^ e`. -/
def gridPoint? (b : Binary) (e : Int) : Option Nat :=
  let value := (Quotient.ofBinary (4 * b.mantissa) (b.exponent - 2)).downBy e
  let unit := (Quotient.ofBinary 1 (b.exponent - 2)).downBy e
  let below := (if b.narrow then 1 else 2) * unit.numerator
  let above := 2 * unit.numerator
  let closed := b.mantissa % 2 == 0
  let d := value.numerator / value.denominator
  let rest := value.numerator % value.denominator
  let gap := value.denominator - rest
  let downFits := if closed then rest ≤ below else rest < below
  let upFits := if closed then gap ≤ above else gap < above
  if downFits && upFits then
    some (if rest < gap then d else if gap < rest then d + 1 else if d % 2 == 0 then d else d + 1)
  else if downFits then some d
  else if upFits then some (d + 1)
  else none

/-- Tries grids of `count` digits, then finer ones. -/
def shortestFrom (b : Binary) (k : Int) : Nat → Nat → Scaled
  | 0, _ => ⟨b.mantissa, 0⟩
  | fuel + 1, count =>
    let e := k - count + 1
    match gridPoint? b e with
    | some d => ⟨d, e⟩
    | none => shortestFrom b k fuel (count + 1)

/-- Moves zeros at the end of the digits into the exponent. -/
def dropZeros : Nat → Scaled → Scaled
  | 0, s => s
  | fuel + 1, s =>
    if s.digits ≠ 0 ∧ s.digits % 10 = 0 then dropZeros fuel ⟨s.digits / 10, s.exponent + 1⟩ else s

/-- Shortest decimal of a positive double. -/
def shortest (b : Binary) : Scaled :=
  let k := decimalExponent (Quotient.ofBinary b.mantissa b.exponent)
  dropZeros 20 (shortestFrom b k 17 1)

end CodeSearch.Decimal
