import CodeSearch.Text.Utf8

/-!
Glob patterns as sequences of tokens, and what they match. Matching walks over the bytes of a path
with the set of places that the tokens so far can end at, one truth value for each place between
bytes.
-/

set_option autoImplicit false

namespace CodeSearch.Glob

inductive Token where
  | literal (c : Char)
  /-- One byte. -/
  | anyOne
  /-- Any run of bytes. -/
  | anyRun
  /-- Directories in front, or none. -/
  | deepStart
  /-- Anything below. -/
  | deepEnd
  /-- Directories between two slashes, or just one slash. -/
  | deepMiddle
  /-- One byte of the ranges, or one outside them. -/
  | oneOf (negated : Bool) (ranges : List (Char × Char))
  | choice (branches : List (List Token))

/-- A pattern. With `keepsSlash`, single wildcards do not match a slash. -/
structure Pattern where
  tokens : List Token
  keepsSlash : Bool

def slash : UInt8 := 47

/-- Whether a byte is in a range of characters. A range of characters of several bytes is taken
byte by byte: all bytes of both ends, and what lies between the ends' neighbouring bytes. -/
def inRange (b : UInt8) (range : Char × Char) : Bool :=
  let low := String.utf8EncodeChar range.1
  let high := String.utf8EncodeChar range.2
  if range.1 = range.2 then low.contains b
  else low.contains b || high.contains b ||
    (decide (low.getLastD 0 ≤ b) && decide (b ≤ high.headD 0))

/-- The places one byte of `p` behind the places of `live`. -/
def advance (p : UInt8 → Bool) (path : List UInt8) (live : List Bool) : List Bool :=
  false :: List.zipWith (fun b here => here && p b) path live

/-- The places any run of bytes of `p` behind the places of `live`; `carry` says that a run may go
on. -/
def spread (p : UInt8 → Bool) (carry : Bool) : List UInt8 → List Bool → List Bool
  | _, [] => []
  | [], here :: _ => [here || carry]
  | b :: path, here :: live => (here || carry) :: spread p ((here || carry) && p b) path live

def either (a b : List Bool) : List Bool := List.zipWith or a b

/-- What single wildcards match. -/
def wild (keepsSlash : Bool) (b : UInt8) : Bool := !keepsSlash || b != slash

mutual

/-- Whether a branch has nothing to match with, not even through the choices in it. -/
def isHollow : List Token → Bool
  | [] => true
  | .choice branches :: rest => allHollow branches && isHollow rest
  | _ :: _ => false

def allHollow : List (List Token) → Bool
  | [] => true
  | branch :: rest => isHollow branch && allHollow rest

end

mutual

/-- The places that a token leads to from the places of `live`. A choice passes over hollow
branches; without any other it matches the empty text. -/
def Token.run (keepsSlash : Bool) (path : List UInt8) : Token → List Bool → List Bool
  | .literal c, live => (String.utf8EncodeChar c).foldl (fun l b => advance (· == b) path l) live
  | .anyOne, live => advance (wild keepsSlash) path live
  | .anyRun, live => spread (wild keepsSlash) false path live
  | .deepStart, live =>
    either live (advance (· == slash) path (spread (fun _ => true) false path live))
  | .deepEnd, live => spread (fun _ => true) false path (advance (· == slash) path live)
  | .deepMiddle, live =>
    let first := advance (· == slash) path live
    either first (advance (· == slash) path (spread (fun _ => true) false path first))
  | .oneOf negated ranges, live =>
    advance (fun b => (ranges.any (inRange b)) != negated) path live
  | .choice branches, live =>
    if allHollow branches then live else runBranches keepsSlash path branches live

def runAll (keepsSlash : Bool) (path : List UInt8) : List Token → List Bool → List Bool
  | [], live => live
  | token :: rest, live => runAll keepsSlash path rest (token.run keepsSlash path live)

def runBranches (keepsSlash : Bool) (path : List UInt8) :
    List (List Token) → List Bool → List Bool
  | [], live => live.map fun _ => false
  | branch :: rest, live =>
    let others := runBranches keepsSlash path rest live
    if isHollow branch then others else either (runAll keepsSlash path branch live) others

end

/-- Whether the pattern matches all of a path. A pattern of directories in front alone matches
everything. -/
def Pattern.matchesBytes (p : Pattern) (path : List UInt8) : Bool :=
  match p.tokens with
  | [.deepStart] => true
  | tokens =>
    let start := true :: path.map fun _ => false
    (runAll p.keepsSlash path tokens start).getLastD false

def Pattern.matches (p : Pattern) (path : String) : Bool :=
  p.matchesBytes (Text.utf8 path.toList)

end CodeSearch.Glob
