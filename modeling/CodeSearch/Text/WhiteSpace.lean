/-!
White space and what is left without it: trimming, blank text, and the count of characters that
leave ink.
-/

set_option autoImplicit false

namespace CodeSearch.Text

/-- The characters with the property White_Space. -/
def isWhite (c : Char) : Bool :=
  let n := c.toNat
  (9 ≤ n && n ≤ 13) || n == 32 || n == 0x85 || n == 0xA0 || n == 0x1680 ||
    (0x2000 ≤ n && n ≤ 0x200A) || n == 0x2028 || n == 0x2029 || n == 0x202F || n == 0x205F ||
    n == 0x3000

/-- Text without the characters of `p` at its two ends. -/
def trimWhere (p : Char → Bool) (cs : List Char) : List Char :=
  ((cs.dropWhile p).reverse.dropWhile p).reverse

def trim (cs : List Char) : List Char := trimWhere isWhite cs

def isBlank (cs : List Char) : Bool := cs.all isWhite

/-- Number of characters that are not white space. -/
def inkCount (cs : List Char) : Nat := cs.countP fun c => !isWhite c

/-- Each maximal run of characters of `p` becomes the one character `r`; `inRun` says that the
character before was of `p`. -/
def squeezeFrom (p : Char → Bool) (r : Char) : Bool → List Char → List Char
  | _, [] => []
  | inRun, c :: cs =>
    if p c then
      if inRun then squeezeFrom p r true cs else r :: squeezeFrom p r true cs
    else c :: squeezeFrom p r false cs

def squeeze (p : Char → Bool) (r : Char) (cs : List Char) : List Char :=
  squeezeFrom p r false cs

end CodeSearch.Text
