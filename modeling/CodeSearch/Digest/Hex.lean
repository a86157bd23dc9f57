/-!
Lower-case hexadecimal text of numbers and byte sequences.
-/

set_option autoImplicit false

namespace CodeSearch.Digest

def hexDigit (n : Nat) : Char :=
  if n < 10 then Char.ofNat (48 + n) else Char.ofNat (87 + n)

def hexByte (b : UInt8) : List Char := [hexDigit (b.toNat / 16), hexDigit (b.toNat % 16)]

def hex (bytes : List UInt8) : String := String.ofList (bytes.flatMap hexByte)

/-- The last `digits` hexadecimal digits of `n`, zeros in front. -/
def hexFixed (digits n : Nat) : String :=
  String.ofList ((List.range digits).map fun i => hexDigit (n / Nat.pow 16 (digits - 1 - i) % 16))

/-- Bytes of a word of `count` bytes, the lowest first. -/
def littleEndian (count n : Nat) : List UInt8 :=
  (List.range count).map fun i => UInt8.ofNat (n / Nat.pow 256 i)

/-- Bytes of a word of `count` bytes, the highest first. -/
def bigEndian (count n : Nat) : List UInt8 := (littleEndian count n).reverse

end CodeSearch.Digest
