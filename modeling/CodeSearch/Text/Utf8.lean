/-!
Bytes of a text, and where its characters stand among them.
-/

set_option autoImplicit false

namespace CodeSearch.Text

def utf8 (cs : List Char) : List UInt8 := cs.flatMap String.utf8EncodeChar

/-- `k` plus the number of characters before byte offset `b`; none if `b` lies inside a character
or past the end. -/
def charsBeforeFrom (k : Nat) : Nat → List Char → Option Nat
  | 0, _ => some k
  | _ + 1, [] => none
  | b + 1, c :: cs =>
    if c.utf8Size ≤ b + 1 then charsBeforeFrom (k + 1) (b + 1 - c.utf8Size) cs else none

def charsBefore (b : Nat) (cs : List Char) : Option Nat := charsBeforeFrom 0 b cs

/-- The characters from byte `start` to byte `stop`, if both stand between characters and in
order. -/
def byteSlice? (cs : List Char) (start stop : Nat) : Option (List Char) :=
  if start ≤ stop then
    match charsBefore start cs, charsBefore stop cs with
    | some i, some j => some ((cs.drop i).take (j - i))
    | _, _ => none
  else none

/-- The text that a sequence of bytes encodes, if it does. -/
def ofUtf8? (bytes : List UInt8) : Option String :=
  String.fromUTF8? ⟨bytes.toArray⟩

theorem utf8_append (xs ys : List Char) : utf8 (xs ++ ys) = utf8 xs ++ utf8 ys :=
  List.flatMap_append

end CodeSearch.Text
