import CodeSearch.Decimal.Shortest

/-!
Decimal text of doubles: the shortest text that reads back, and text with a fixed number of places.
-/

set_option autoImplicit false

namespace CodeSearch.Decimal

def isNegative (x : Float) : Bool := x.toBits >>> 63 == 1

def digitsOf (n : Nat) : List Char := Nat.toDigits 10 n

/-- Digits with a point after the first `place` of them. -/
def withPoint (digits : List Char) (place : Nat) : List Char :=
  digits.take place ++ '.' :: digits.drop place

/-- Digits and power of ten written out, with at least one place. -/
def plainDigits (s : Scaled) : List Char :=
  let digits := digitsOf s.digits
  let point : Int := digits.length + s.exponent
  if 0 ≤ s.exponent then digits ++ List.replicate s.exponent.toNat '0' ++ ['.', '0']
  else if 0 < point then withPoint digits point.toNat
  else ['0', '.'] ++ List.replicate (-point).toNat '0' ++ digits

/-- Powers of ten from `10 ^ -5` up to below `10 ^ 16` are written out; others have one digit before
the point and a signed exponent. -/
def scaledText (s : Scaled) : List Char :=
  let digits := digitsOf s.digits
  let point : Int := digits.length + s.exponent
  if -5 < point ∧ point ≤ 16 then plainDigits s
  else
    let power := point - 1
    let front := if digits.length = 1 then digits else withPoint digits 1
    front ++ 'e' :: (if power < 0 then '-' else '+') :: digitsOf power.natAbs

/-- Shortest text of a finite double that reads back. -/
def shortestText (x : Float) : String :=
  let bits := x.toBits.toNat % Nat.pow 2 63
  let body := if bits = 0 then ['0', '.', '0'] else scaledText (shortest (.ofBits bits))
  String.ofList (if isNegative x then '-' :: body else body)

/-- Shortest text of a double that reads back, without exponent. -/
def plainText (x : Float) : String :=
  if x.isNaN then "NaN"
  else
    let bits := x.toBits.toNat % Nat.pow 2 63
    let body :=
      if x.isInf then ['i', 'n', 'f']
      else if bits = 0 then ['0', '.', '0']
      else plainDigits (shortest (.ofBits bits))
    String.ofList (if isNegative x then '-' :: body else body)

/-- Quotient of whole numbers to the nearest one, a half to the even neighbour. -/
def roundDiv (n d : Nat) : Nat :=
  let q := n / d
  let r := n % d
  if 2 * r < d then q else if d < 2 * r then q + 1 else if q % 2 = 0 then q else q + 1

/-- Text with exactly `places` digits behind the point. -/
def fixedText (places : Nat) (x : Float) : String :=
  if x.isNaN then "NaN"
  else
    let body :=
      if x.isInf then ['i', 'n', 'f']
      else
        let b := Binary.ofBits (x.toBits.toNat % Nat.pow 2 63)
        let q := Quotient.ofBinary b.mantissa b.exponent
        let units := roundDiv (q.numerator * Nat.pow 10 places) q.denominator
        let digits := digitsOf units
        let padded := List.replicate (places + 1 - digits.length) '0' ++ digits
        if places = 0 then padded else withPoint padded (padded.length - places)
    String.ofList (if isNegative x then '-' :: body else body)

end CodeSearch.Decimal
