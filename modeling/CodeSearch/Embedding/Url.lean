import CodeSearch.Digest.Hex
import CodeSearch.Text.Lines
import CodeSearch.Text.Table
import CodeSearch.Text.Utf8

/-!
Addresses of services. An address is read leniently and kept in its normal form: lower case scheme
and host, no default socket, no dots among the path's segments, and unsafe characters encoded.
-/

set_option autoImplicit false

namespace CodeSearch

structure Url where
  scheme : List Char
  /-- Host and socket number; none for an address without authority. -/
  authority : Option (List Char)
  path : List Char
  query : Option (List Char)
  fragment : Option (List Char)
deriving DecidableEq

namespace Url

/-- Schemes whose addresses always have a host, with their default sockets. -/
def specialSocket? (scheme : List Char) : Option Nat :=
  if scheme = "http".toList ∨ scheme = "ws".toList then some 80
  else if scheme = "https".toList ∨ scheme = "wss".toList then some 443
  else if scheme = "ftp".toList then some 21
  else none

/-- Percent signs and hexadecimal digits for each byte of a character. -/
def percentEncode (c : Char) : List Char :=
  (String.utf8EncodeChar c).flatMap fun b =>
    '%' :: (Digest.hexByte b).map Char.toUpper

/-- Encodes the characters of `unsafeChars`, controls, and all that is not a basic character. -/
def encode (unsafeChars : List Char) (cs : List Char) : List Char :=
  cs.flatMap fun c =>
    if c.toNat < 0x20 || 0x7E < c.toNat || unsafeChars.contains c then percentEncode c else [c]

def fragmentUnsafe : List Char := [' ', '"', '<', '>', '`']

def queryUnsafe (special : Bool) : List Char :=
  [' ', '"', '#', '<', '>'] ++ if special then ['\''] else []

def pathUnsafe : List Char := fragmentUnsafe ++ ['#', '?', '\x7b', '\x7d', '^']

/-- Decodes percent signs with two hexadecimal digits behind them. -/
def percentDecode : List Char → List UInt8
  | [] => []
  | '%' :: a :: b :: rest =>
    let isHex (c : Char) : Bool := c.isDigit || ('a' ≤ c && c ≤ 'f') || ('A' ≤ c && c ≤ 'F')
    if isHex a && isHex b then
      UInt8.ofNat (Text.hexDigitValue a * 16 + Text.hexDigitValue b) :: percentDecode rest
    else 37 :: percentDecode (a :: b :: rest)
  | c :: rest => String.utf8EncodeChar c ++ percentDecode rest

/-- Parts before and from the first character of `p`. -/
def cutAt (p : Char → Bool) (cs : List Char) : List Char × List Char :=
  (cs.takeWhile fun c => !p c, cs.dropWhile fun c => !p c)

/-- Value of a number in an IPv4 address: hexadecimal behind `0x`, octal behind `0`. -/
def ipv4Number? (cs : List Char) : Option Nat :=
  let digits (base : Nat) (cs : List Char) : Option Nat :=
    cs.foldl (fun n c =>
      let isHex := c.isDigit || ('a' ≤ c && c ≤ 'f')
      match n with
      | some n => if isHex && decide (Text.hexDigitValue c < base) then
          some (n * base + Text.hexDigitValue c) else none
      | none => none) (some 0)
  match cs with
  | [] => none
  | '0' :: 'x' :: rest => digits 16 rest
  | '0' :: rest => digits 8 rest
  | _ => digits 10 cs

/-- Address of the numbers between dots; the last fills the bytes that are left. -/
def ipv4? (numbers : List Nat) : Option (List Char) :=
  let count := numbers.length
  let front := numbers.dropLast
  let last := numbers.getLastD 0
  if count = 0 ∨ 4 < count ∨ front.any (fun n => 255 < n) ∨ Nat.pow 256 (5 - count) ≤ last then none
  else
    let value := (front.zipIdx.foldl (fun sum p => sum + p.1 * Nat.pow 256 (3 - p.2)) 0) + last
    some (Text.joinWith ['.']
      ((List.range 4).map fun i => Nat.toDigits 10 (value / Nat.pow 256 (3 - i) % 256)))

/-- Characters that no host has. -/
def hostForbidden (c : Char) : Bool :=
  c.toNat ≤ 0x20 || c.toNat == 0x7F ||
    ['#', '/', ':', '<', '>', '?', '@', '[', '\\', ']', '^', '|', '%'].contains c

/-- A host of a special scheme in normal form. -/
def host? (cs : List Char) : Option (List Char) :=
  match cs with
  | [] => none
  | '[' :: _ => if cs.getLast? = some ']' then some (cs.map Char.toLower) else none
  | _ =>
    match Text.ofUtf8? (percentDecode cs) with
    | none => none
    | some text =>
      let host := text.toList.map Char.toLower
      if host.isEmpty || host.any hostForbidden then none
      else
        let labels := Text.splitOn ['.'] host
        let labels :=
          if labels.getLast? = some [] ∧ 1 < labels.length then labels.dropLast else labels
        let last := labels.getLastD []
        if !last.isEmpty && (last.all Char.isDigit || (ipv4Number? last).isSome) then
          (labels.mapM ipv4Number?).bind ipv4?
        else some host

/-- Host and socket number in normal form. A user in front is left out. -/
def authority? (defaultSocket : Option Nat) (cs : List Char) : Option (List Char) :=
  let address := (cs.reverse.takeWhile (· != '@')).reverse
  let (host, socket) :=
    if address.head? = some '[' then
      let (inner, rest) := cutAt (· == ']') address
      (inner ++ rest.take 1, rest.drop 1)
    else cutAt (· == ':') address
  let hostText := if defaultSocket.isSome then host? host else some (encode [' '] host)
  match hostText, socket with
  | none, _ => none
  | some host, [] => some host
  | some host, colon :: digits =>
    if colon != ':' || !digits.all Char.isDigit then none
    else
      let n := digits.foldl (fun n c => n * 10 + (c.toNat - 48)) 0
      if 65535 < n then none
      else if digits.isEmpty || some n = defaultSocket then some host
      else some (host ++ ':' :: Nat.toDigits 10 n)

def isHere (segment : List Char) : Bool :=
  let s := String.ofList (segment.map Char.toLower)
  s == "." || s == "%2e"

def isUp (segment : List Char) : Bool :=
  let s := String.ofList (segment.map Char.toLower)
  s == ".." || s == ".%2e" || s == "%2e." || s == "%2e%2e"

/-- Segments with those of dots resolved; `done` is newest first. -/
def resolveDots (done : List (List Char)) : List (List Char) → List (List Char)
  | [] => done.reverse
  | [segment] =>
    if isHere segment then ([] :: done).reverse
    else if isUp segment then ([] :: done.drop 1).reverse
    else (segment :: done).reverse
  | segment :: rest =>
    if isHere segment then resolveDots done rest
    else if isUp segment then resolveDots (done.drop 1) rest
    else resolveDots (segment :: done) rest

/-- An absolute path in normal form. -/
def pathText (special : Bool) (cs : List Char) : List Char :=
  let cs := if special then cs.map fun c => if c == '\\' then '/' else c else cs
  let segments := match Text.splitOn ['/'] cs with
    | [] :: rest => rest
    | all => all
  '/' :: Text.joinWith ['/'] ((resolveDots [] segments).map (encode pathUnsafe))

def readTail (special : Bool) (cs : List Char) : Option (List Char) × Option (List Char) :=
  let (front, tail) := cutAt (· == '#') cs
  let query := match front with
    | '?' :: q => some (encode (queryUnsafe special) q)
    | _ => none
  (query, match tail with
    | _ :: f => some (encode fragmentUnsafe f)
    | [] => none)

/-- The scheme in front of a colon, and what follows. -/
def readScheme? (cs : List Char) : Option (List Char × List Char) :=
  let (scheme, rest) := cutAt (· == ':') cs
  match scheme, rest with
  | first :: _, _ :: after =>
    if first.isAlpha && scheme.all (fun c => c.isAlphanum || c == '+' || c == '-' || c == '.') then
      some (scheme.map Char.toLower, after)
    else none
  | _, _ => none

def parse? (text : String) : Option Url := do
  let outer (c : Char) : Bool := c.toNat ≤ 0x20
  let trimmed := (((text.toList.dropWhile outer).reverse).dropWhile outer).reverse
  let cs := trimmed.filter fun c => c != '\t' && c != '\n' && c != '\r'
  let (scheme, rest) ← readScheme? cs
  let socket := specialSocket? scheme
  let special := socket.isSome
  let isEnd (c : Char) : Bool := c == '?' || c == '#'
  let isSlash (c : Char) : Bool := c == '/' || (special && c == '\\')
  if special then
    let (address, rest) := cutAt (fun c => isSlash c || isEnd c) (rest.dropWhile isSlash)
    let authority ← authority? socket address
    let (path, tail) := cutAt isEnd rest
    let (query, fragment) := readTail true tail
    return ⟨scheme, some authority, pathText true path, query, fragment⟩
  else
    match rest with
    | '/' :: '/' :: rest =>
      let (address, rest) := cutAt (fun c => isSlash c || isEnd c) rest
      let authority ← authority? none address
      let (path, tail) := cutAt isEnd rest
      let (query, fragment) := readTail false tail
      let path := if path.isEmpty then [] else pathText false path
      return ⟨scheme, if authority.isEmpty then none else some authority, path, query, fragment⟩
    | _ =>
      let (path, tail) := cutAt isEnd rest
      let (query, fragment) := readTail false tail
      let path := if path.head? = some '/' then pathText false path else encode [] path
      return ⟨scheme, none, path, query, fragment⟩

/-- What a request asks the host for. -/
def target (u : Url) : String :=
  String.ofList (u.path ++ (match u.query with
    | some q => '?' :: q
    | none => []))

def toText (u : Url) : String :=
  String.ofList (u.scheme ++ ':' :: ((match u.authority with
    | some a => '/' :: '/' :: a
    | none => []) ++ u.path ++ (match u.query with
    | some q => '?' :: q
    | none => []) ++ (match u.fragment with
    | some f => '#' :: f
    | none => [])))

def isHttp (u : Url) : Bool := u.scheme = "http".toList || u.scheme = "https".toList

end Url

end CodeSearch
