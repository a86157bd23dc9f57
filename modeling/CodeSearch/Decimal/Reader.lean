/-!
Reading numbers: the nearest double of a decimal text, whole numbers below a bound, and a quick
reading of literals that keeps at most 64 bits of their digits and scales them once.
-/

set_option autoImplicit false

namespace CodeSearch.Decimal

def digitValue (c : Char) : Nat := c.toNat - 48

def natOfDigits (digits : List Char) : Nat := digits.foldl (fun n c => n * 10 + digitValue c) 0

/-- A decimal literal in parts; `fraction` and `exponent` are none where the literal has none. -/
structure Literal where
  negative : Bool
  whole : List Char
  fraction : Option (List Char)
  exponent : Option Int
deriving Repr

/-- A run of digits and what follows. -/
def spanDigits (cs : List Char) : List Char × List Char :=
  (cs.takeWhile Char.isDigit, cs.dropWhile Char.isDigit)

/-- An exponent with its sign, from what follows the letter. -/
def readExponent? (cs : List Char) : Option (Int × List Char) :=
  let (negative, cs) := match cs with
    | '-' :: rest => (true, rest)
    | '+' :: rest => (false, rest)
    | _ => (false, cs)
  let (digits, rest) := spanDigits cs
  if digits.isEmpty then none
  else some (if negative then -(natOfDigits digits : Int) else natOfDigits digits, rest)

/-- A point and the digits behind it, if a point comes next. -/
def readFraction (cs : List Char) : Option (List Char) × List Char :=
  match cs with
  | '.' :: rest => let (digits, rest) := spanDigits rest; (some digits, rest)
  | _ => (none, cs)

/-- An exponent if its letter comes next; fails if the letter has no digits behind it. -/
def readPower? (cs : List Char) : Option (Option Int × List Char) :=
  match cs with
  | 'e' :: rest | 'E' :: rest => (readExponent? rest).map fun (e, rest) => (some e, rest)
  | _ => some (none, cs)

/-- A whole part, fraction and exponent, with nothing checked of how many digits they have. -/
def readParts? (negative : Bool) (cs : List Char) : Option (Literal × List Char) := do
  let (whole, rest) := spanDigits cs
  let (fraction, rest) := readFraction rest
  let (exponent, rest) ← readPower? rest
  return (⟨negative, whole, fraction, exponent⟩, rest)

/-- Exponents beyond this bound give zero or infinity whatever the digits. -/
def clampExponent (digits : Nat) (e : Int) : Int :=
  let bound : Int := 400 + digits
  max (-bound) (min bound e)

def withSign (negative : Bool) (x : Float) : Float := if negative then -x else x

def Literal.nearest (l : Literal) : Float :=
  let fraction := l.fraction.getD []
  let digits := l.whole ++ fraction
  let e := clampExponent digits.length (l.exponent.getD 0) - fraction.length
  withSign l.negative (Float.ofScientific (natOfDigits digits) (e < 0) e.natAbs)

/-- The double nearest to a decimal text, with the words for infinity and for no number. -/
def float? (text : List Char) : Option Float :=
  let (negative, body) := match text with
    | '-' :: rest => (true, rest)
    | '+' :: rest => (false, rest)
    | _ => (false, text)
  let word := String.ofList (body.map Char.toLower)
  if word == "inf" || word == "infinity" then some (withSign negative (1.0 / 0.0))
  else if word == "nan" then some (0.0 / 0.0)
  else match readParts? negative body with
    | some (l, []) =>
      if l.whole.isEmpty && (l.fraction.getD []).isEmpty then none else some l.nearest
    | _ => none

/-- A whole number below `2 ^ 64`, a plus sign allowed in front. -/
def word? (text : List Char) : Option Nat :=
  let digits := match text with
    | '+' :: rest => rest
    | _ => text
  if digits.isEmpty || !digits.all Char.isDigit then none
  else if natOfDigits digits < Nat.pow 2 64 then some (natOfDigits digits) else none

/-- Digits kept while they fit 64 bits, and how many were dropped. Once one does not fit, all that
follow are dropped. -/
structure Kept where
  value : Nat := 0
  full : Bool := false
  dropped : Nat := 0

def Kept.add (k : Kept) (c : Char) : Kept :=
  let value := k.value * 10 + digitValue c
  if k.full || Nat.pow 2 64 ≤ value then { k with full := true, dropped := k.dropped + 1 }
  else { k with value }

def powerOfTen (e : Nat) : Float := Float.ofScientific 1 false e

/-- Scales `x` by `10 ^ e` in one step, dividing by `10 ^ 308` first while `e` is out of reach;
none if the result is past the largest double. -/
def scale? : Nat → Float → Int → Option Float
  | 0, x, _ => some x
  | fuel + 1, x, e =>
    if e.natAbs ≤ 308 then
      if 0 ≤ e then
        let y := x * powerOfTen e.natAbs
        if y.isInf then none else some y
      else some (x / powerOfTen e.natAbs)
    else if x == 0.0 then some x
    else if 0 ≤ e then none
    else scale? fuel (x / powerOfTen 308) (e + 308)

/-- A quick reading: the digits that fit 64 bits, rounded once, then scaled once. It may miss the
nearest double by a unit in the last place. -/
def Literal.quick? (l : Literal) : Option Float :=
  let kept := l.whole.foldl Kept.add {}
  let whole := { kept with dropped := 0 }
  let fraction := l.fraction.getD []
  let all := fraction.foldl Kept.add whole
  let used := fraction.length - all.dropped
  let exponent := l.exponent.getD 0
  let e := clampExponent (l.whole.length + fraction.length) (exponent + kept.dropped - used)
  (scale? 6 (UInt64.ofNat all.value).toFloat e).map (withSign l.negative)

end CodeSearch.Decimal
