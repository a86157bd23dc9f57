import CodeSearch.Digest.Hex

/-!
The keyed hash SipHash with one round per word and three rounds at the end.
-/

set_option autoImplicit false

namespace CodeSearch.Digest.SipHash

structure State where
  v0 : UInt64
  v1 : UInt64
  v2 : UInt64
  v3 : UInt64

def rotateLeft (x n : UInt64) : UInt64 := (x <<< n) ||| (x >>> (64 - n))

def initial (k0 k1 : UInt64) : State :=
  ⟨k0 ^^^ 0x736f6d6570736575, k1 ^^^ 0x646f72616e646f6d,
    k0 ^^^ 0x6c7967656e657261, k1 ^^^ 0x7465646279746573⟩

def round (s : State) : State :=
  let v0 := s.v0 + s.v1
  let v1 := rotateLeft s.v1 13 ^^^ v0
  let v0 := rotateLeft v0 32
  let v2 := s.v2 + s.v3
  let v3 := rotateLeft s.v3 16 ^^^ v2
  let v0 := v0 + v3
  let v3 := rotateLeft v3 21 ^^^ v0
  let v2 := v2 + v1
  let v1 := rotateLeft v1 17 ^^^ v2
  let v2 := rotateLeft v2 32
  ⟨v0, v1, v2, v3⟩

def absorb (s : State) (word : UInt64) : State :=
  let t := round { s with v3 := s.v3 ^^^ word }
  { t with v0 := t.v0 ^^^ word }

/-- The word whose lowest byte comes first. -/
def wordOf (bytes : List UInt8) : UInt64 :=
  bytes.foldr (fun b w => (w <<< 8) ||| b.toUInt64) 0

/-- Absorbs whole words; the bytes left over share the last word with the length. -/
def absorbAll (length : Nat) (s : State) (bytes : List UInt8) : State :=
  if _h : 8 ≤ bytes.length then
    absorbAll length (absorb s (wordOf (bytes.take 8))) (bytes.drop 8)
  else absorb s (wordOf bytes ||| (UInt64.ofNat length <<< 56))
termination_by bytes.length
decreasing_by simp only [List.length_drop]; omega

def hash (k0 k1 : UInt64) (bytes : List UInt8) : UInt64 :=
  let s := absorbAll bytes.length (initial k0 k1) bytes
  let s := round (round (round { s with v2 := s.v2 ^^^ 0xff }))
  s.v0 ^^^ s.v1 ^^^ s.v2 ^^^ s.v3

end CodeSearch.Digest.SipHash
