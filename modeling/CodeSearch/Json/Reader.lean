import CodeSearch.Decimal.Reader
import CodeSearch.Json
import CodeSearch.Text.Table

/-!
Reading JSON text. The text is cut into tokens, and the tokens drive a machine with a stack of the
arrays and objects that are open, so that depth has no limit. Nothing but white space may follow
the value.
-/

set_option autoImplicit false

namespace CodeSearch.Json

inductive Token where
  | openArray
  | closeArray
  | openObject
  | closeObject
  | colon
  | comma
  | scalar (value : Json)
deriving Inhabited

/-- Four hexadecimal digits and what follows. -/
def readUnit? : List Char → Option (Nat × List Char)
  | a :: b :: c :: d :: rest =>
    let isHex (c : Char) : Bool :=
      c.isDigit || ('a' ≤ c && c ≤ 'f') || ('A' ≤ c && c ≤ 'F')
    if isHex a && isHex b && isHex c && isHex d then
      some ([a, b, c, d].foldl (fun n c => n * 16 + Text.hexDigitValue c) 0, rest)
    else none
  | _ => none

def isHighUnit (n : Nat) : Bool := 0xD800 ≤ n && n < 0xDC00

def isLowUnit (n : Nat) : Bool := 0xDC00 ≤ n && n < 0xE000

/-- The character of an escape of one letter. -/
def simpleEscape? (c : Char) : Option Char :=
  if c == '"' || c == '\\' || c == '/' then some c
  else if c == 'n' then some '\n'
  else if c == 't' then some '\t'
  else if c == 'r' then some '\r'
  else if c == 'b' then some (Char.ofNat 8)
  else if c == 'f' then some (Char.ofNat 12)
  else none

/-- State within a string: its characters, newest first, a high surrogate that waits for its other
half, and whether half a pair has been met. -/
structure StringState where
  out : List Char := []
  high : Option Nat := none
  broken : Bool := false

/-- A high surrogate that nothing has followed is half a pair. -/
def StringState.settle (s : StringState) : StringState :=
  match s.high with
  | none => s
  | some _ => { s with high := none, broken := true }

def StringState.char (s : StringState) (c : Char) : StringState :=
  let s := s.settle
  { s with out := c :: s.out }

/-- Takes a UTF-16 unit. -/
def StringState.unit (s : StringState) (n : Nat) : StringState :=
  match s.high with
  | some h =>
    if isLowUnit n then
      { s with
        out := Char.ofNat (0x10000 + (h - 0xD800) * 0x400 + (n - 0xDC00)) :: s.out
        high := none }
    else if isHighUnit n then { s with high := some n, broken := true }
    else { s with out := Char.ofNat n :: s.out, high := none, broken := true }
  | none =>
    if isHighUnit n then { s with high := some n }
    else if isLowUnit n then { s with broken := true }
    else { s with out := Char.ofNat n :: s.out }

def StringState.value (s : StringState) : Json :=
  let s := s.settle
  if s.broken then unreadable else string (String.ofList s.out.reverse)

/-- Reads a string behind its opening quote. The fuel is the length of the text. -/
def readString? : Nat → StringState → List Char → Option (Json × List Char)
  | 0, _, _ => none
  | _ + 1, _, [] => none
  | fuel + 1, s, c :: cs =>
    if c == '"' then some (s.value, cs)
    else if c.toNat < 32 then none
    else if c == '\\' then
      match cs with
      | [] => none
      | e :: rest =>
        if e == 'u' then
          match readUnit? rest with
          | some (n, rest) => readString? fuel (s.unit n) rest
          | none => none
        else match simpleEscape? e with
          | some c => readString? fuel (s.char c) rest
          | none => none
    else readString? fuel (s.char c) cs

/-- A literal as a number: whole ones that fit 64 bits stay whole, except a negative zero. -/
def numberValue (l : Decimal.Literal) : Json :=
  let n := Decimal.natOfDigits l.whole
  if l.fraction.isNone && l.exponent.isNone && !l.negative && decide (n < Nat.pow 2 64) then integer n
  else if l.fraction.isNone && l.exponent.isNone && l.negative && decide (0 < n ∧ n ≤ Nat.pow 2 63) then
    integer (-(n : Int))
  else match l.quick? with
    | some x => real x
    | none => unreadable

/-- Reads a number: no zeros in front, and digits wherever there is room for them. -/
def readNumber? (cs : List Char) : Option (Json × List Char) := do
  let (negative, body) := match cs with
    | '-' :: rest => (true, rest)
    | _ => (false, cs)
  let (l, rest) ← Decimal.readParts? negative body
  match l.whole with
  | [] => none
  | '0' :: _ :: _ => none
  | _ => if l.fraction = some [] then none else some (numberValue l, rest)

def isBlankChar (c : Char) : Bool := c == ' ' || c == '\n' || c == '\t' || c == '\r'

/-- A word and what follows it. -/
def readWord? (word : List Char) (cs : List Char) : Option (List Char) :=
  if word.isPrefixOf cs then some (cs.drop word.length) else none

/-- The token that begins with `c`, and what follows it. -/
def readToken? (fuel : Nat) (c : Char) (cs : List Char) : Option (Token × List Char) :=
  if c == '[' then some (.openArray, cs)
  else if c == ']' then some (.closeArray, cs)
  else if c == '\x7b' then some (.openObject, cs)
  else if c == '\x7d' then some (.closeObject, cs)
  else if c == ':' then some (.colon, cs)
  else if c == ',' then some (.comma, cs)
  else if c == '"' then (readString? fuel {} cs).map fun (v, rest) => (.scalar v, rest)
  else if c == 'n' then (readWord? ['u', 'l', 'l'] cs).map fun rest => (.scalar null, rest)
  else if c == 't' then (readWord? ['r', 'u', 'e'] cs).map fun rest => (.scalar (bool true), rest)
  else if c == 'f' then
    (readWord? ['a', 'l', 's', 'e'] cs).map fun rest => (.scalar (bool false), rest)
  else (readNumber? (c :: cs)).map fun (v, rest) => (.scalar v, rest)

/-- Cuts a text into tokens, newest first on `out`. The fuel is the length of the text. -/
def tokensFrom : Nat → List Token → List Char → Option (List Token)
  | _, out, [] => some out.reverse
  | 0, _, _ :: _ => none
  | fuel + 1, out, c :: cs =>
    if isBlankChar c then tokensFrom fuel out cs
    else match readToken? (fuel + 1) c cs with
      | some (t, rest) => tokensFrom fuel (t :: out) rest
      | none => none

/-- An array or object that is open, newest first; an object also keeps the key whose value is
awaited. An object is no longer sound once a key of it denotes nothing. -/
inductive Frame where
  | array (items : List Json)
  | object (fields : List (String × Json)) (key : String) (sound : Bool)

inductive Awaiting where
  | value
  | valueOrClose
  | key
  | keyOrClose
  | colon
  | commaOrClose
  | nothing
deriving DecidableEq

structure Machine where
  frames : List Frame := []
  awaiting : Awaiting := .value
  result : Json := .null

namespace Machine

/-- A value is complete: it goes to the frame on top, or is the result. -/
def complete (m : Machine) (v : Json) : Machine :=
  match m.frames with
  | [] => { m with awaiting := .nothing, result := v }
  | .array items :: frames =>
    { m with frames := .array (v :: items) :: frames, awaiting := .commaOrClose }
  | .object fields key sound :: frames =>
    { m with frames := .object ((key, v) :: fields) key sound :: frames, awaiting := .commaOrClose }

/-- The frame on top is complete. -/
def close? (m : Machine) (isArray : Bool) : Option Machine :=
  match m.frames with
  | .array items :: frames =>
    if isArray then some (complete { m with frames } (.array items.reverse)) else none
  | .object fields _ sound :: frames =>
    if isArray then none
    else some (complete { m with frames } (if sound then .object fields.reverse else .unreadable))
  | [] => none

def setKey? (m : Machine) (v : Json) : Option Machine :=
  match m.frames, v with
  | .object fields _ sound :: frames, .string key =>
    some { m with frames := .object fields key sound :: frames, awaiting := .colon }
  | .object fields _ _ :: frames, .unreadable =>
    some { m with frames := .object fields "" false :: frames, awaiting := .colon }
  | _, _ => none

def awaitsValue (m : Machine) : Bool := m.awaiting = .value || m.awaiting = .valueOrClose

def step? (m : Machine) : Token → Option Machine
  | .openArray =>
    if m.awaitsValue then
      some { m with frames := .array [] :: m.frames, awaiting := .valueOrClose }
    else none
  | .openObject =>
    if m.awaitsValue then
      some { m with frames := .object [] "" true :: m.frames, awaiting := .keyOrClose }
    else none
  | .closeArray =>
    if m.awaiting = .valueOrClose || m.awaiting = .commaOrClose then m.close? true else none
  | .closeObject =>
    if m.awaiting = .keyOrClose || m.awaiting = .commaOrClose then m.close? false else none
  | .colon => if m.awaiting = .colon then some { m with awaiting := .value } else none
  | .comma =>
    match m.awaiting, m.frames with
    | .commaOrClose, .array _ :: _ => some { m with awaiting := .value }
    | .commaOrClose, .object _ _ _ :: _ => some { m with awaiting := .key }
    | _, _ => none
  | .scalar v =>
    if m.awaitsValue then some (m.complete v)
    else if m.awaiting = .key || m.awaiting = .keyOrClose then m.setKey? v
    else none

end Machine

def ofTokens? (tokens : List Token) : Option Json :=
  match tokens.foldlM Machine.step? {} with
  | some m => if m.awaiting = .nothing then some m.result else none
  | none => none

def parse? (text : String) : Option Json :=
  let cs := text.toList
  (tokensFrom cs.length [] cs).bind ofTokens?

end CodeSearch.Json
