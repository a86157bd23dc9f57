import CodeSearch.Discovery.Selection
import CodeSearch.Glob.Basic

/-!
Reading glob patterns, one character at a time. Two stars that fill a component are directories;
any other two stars are two wildcards. Braces hold alternatives and may nest, brackets hold a set
of characters, and a backslash makes the next character stand for itself.
-/

set_option autoImplicit false

namespace CodeSearch.Glob

inductive GlobError where
  | unclosedClass
  | unclosedChoice
  | unopenedChoice
  | invalidRange (first last : Char)
  | danglingEscape
deriving DecidableEq, Repr

def GlobError.reason : GlobError → String
  | unclosedClass => "unclosed character class; missing ']'"
  | unclosedChoice =>
    "unclosed alternate group; missing '\x7d' (maybe escape '\x7b' with '[\x7b]'?)"
  | unopenedChoice =>
    "unopened alternate group; missing '\x7b' (maybe escape '\x7d' with '[\x7d]'?)"
  | invalidRange first last => String.ofList
      ("invalid range; '".toList ++ [first] ++ "' > '".toList ++ [last] ++ ['\''])
  | danglingEscape => "dangling '\\'"

/-- A set of characters while it is read; `ranges` is newest first. -/
structure ClassState where
  negated : Bool := false
  ranges : List (Char × Char) := []
  /-- Nothing but the sign of negation has been read. -/
  first : Bool := true
  /-- A dash waits for the end of its range. -/
  inRange : Bool := false
  /-- The sign of negation may still come. -/
  fresh : Bool := true

/-- What the character at hand continues. -/
inductive Mode where
  | plain
  /-- A star; `before` is the character in front of it. -/
  | star (before : Option Char)
  /-- Two stars; `before` is the character in front of them. -/
  | twoStars (before : Option Char)
  | escape
  | set (state : ClassState)

/-- An open group: the tokens before it and its finished branches, all newest first. -/
structure Group where
  outer : List Token
  branches : List (List Token)

structure State where
  groups : List Group := []
  /-- Tokens of the branch at hand, newest first. -/
  tokens : List Token := []
  previous : Option Char := none
  mode : Mode := .plain
  /-- An opening bracket stands for itself from here on. -/
  bracketsPlain : Bool := false

namespace State

def push (s : State) (t : Token) : State := { s with tokens := t :: s.tokens }

/-- Two stars that do not fill a component. -/
def pushStars (s : State) : State := (s.push .anyRun).push .anyRun

/-- Two stars that fill a component behind something; they take the place of the slash before them,
and join two stars that already stand there. -/
def pushDeep (s : State) (atEnd : Bool) : State :=
  match s.tokens with
  | .deepStart :: _ | .deepEnd :: _ => s
  | _ :: rest => { s with tokens := (if atEnd then Token.deepEnd else .deepMiddle) :: rest }
  | [] => s

/-- Decides what two stars mean, by the character that follows; says whether that character, a
slash, belongs to them. -/
def settleStars (s : State) (before next : Option Char) : State × Bool :=
  let s := { s with mode := .plain }
  if s.tokens.isEmpty then
    if next = none ∨ next = some '/' then (s.push .deepStart, next = some '/')
    else (s.pushStars, false)
  else if before ≠ some '/' ∧
      (s.groups.isEmpty ∨ (before ≠ some ',' ∧ before ≠ some '\x7b')) then (s.pushStars, false)
  else if next = none then (s.pushDeep true, false)
  else if (next = some ',' ∨ next = some '\x7d') ∧ !s.groups.isEmpty then (s.pushDeep true, false)
  else if next = some '/' then (s.pushDeep false, true)
  else (s.pushStars, false)

def closeGroup (s : State) : Except GlobError State :=
  match s.groups with
  | [] => .error .unopenedChoice
  | g :: groups =>
    .ok { s with groups, tokens := .choice (s.tokens.reverse :: g.branches).reverse :: g.outer }

/-- Takes a character that continues nothing. -/
def plain (s : State) (c : Char) : Except GlobError State :=
  if c == '?' then .ok (s.push .anyOne)
  else if c == '*' then .ok { s with mode := .star s.previous }
  else if c == '[' && !s.bracketsPlain then .ok { s with mode := .set {} }
  else if c == '\x7b' then .ok { s with groups := ⟨s.tokens, []⟩ :: s.groups, tokens := [] }
  else if c == '\x7d' then s.closeGroup
  else if c == ',' then
    match s.groups with
    | [] => .ok (s.push (.literal ','))
    | g :: groups =>
      .ok { s with
        groups := { g with branches := s.tokens.reverse :: g.branches } :: groups, tokens := [] }
  else if c == '\\' then .ok { s with mode := .escape }
  else .ok (s.push (.literal c))

def endRange (k : ClassState) (c : Char) : Except GlobError ClassState :=
  match k.ranges with
  | (first, _) :: rest =>
    if c < first then .error (.invalidRange first c)
    else .ok { k with ranges := (first, c) :: rest, inRange := false }
  | [] => .ok { k with ranges := [(c, c)], inRange := false }

def inSet (s : State) (k : ClassState) (c : Char) : Except GlobError State :=
  if k.fresh && (c == '!' || c == '^') then
    .ok { s with mode := .set { k with negated := true, fresh := false } }
  else
    let next : ClassState := { k with first := false, fresh := false }
    if c == ']' && !k.first then
      let ranges := (if k.inRange then [('-', '-')] else []) ++ k.ranges
      .ok { s.push (.oneOf k.negated ranges.reverse) with mode := .plain }
    else if c == '-' && !k.first && !k.inRange then
      .ok { s with mode := .set { next with inRange := true } }
    else if k.inRange then
      match endRange next c with
      | .error e => .error e
      | .ok next => .ok { s with mode := .set next }
    else .ok { s with mode := .set { next with ranges := (c, c) :: next.ranges } }

def step (s : State) (c : Char) : Except GlobError State :=
  let taken (r : Except GlobError State) : Except GlobError State :=
    match r with
    | .ok s => .ok { s with previous := some c }
    | .error e => .error e
  match s.mode with
  | .plain => taken (s.plain c)
  | .escape => taken (.ok { s.push (.literal c) with mode := .plain })
  | .set k => taken (s.inSet k c)
  | .star before =>
    if c == '*' then taken (.ok { s with mode := .twoStars before })
    else taken ({ s.push .anyRun with mode := .plain }.plain c)
  | .twoStars before =>
    match s.settleStars before (some c) with
    | (s, true) => taken (.ok s)
    | (s, false) => taken (s.plain c)

def steps (s : State) : List Char → Except GlobError State
  | [] => .ok s
  | c :: cs =>
    match s.step c with
    | .error e => .error e
    | .ok s => s.steps cs

/-- What stands at the end of the pattern. -/
def finish (s : State) : Except GlobError (List Token) :=
  let s := match s.mode with
    | .star _ => s.push .anyRun
    | .twoStars before => (s.settleStars before none).1
    | _ => s
  match s.mode with
  | .escape => .error .danglingEscape
  | .set _ => .error .unclosedClass
  | _ => if s.groups.isEmpty then .ok s.tokens.reverse else .error .unclosedChoice

end State

/-- Whether a set that is being read comes to its end, or to an error, in the text that follows. -/
def State.setSettles (s : State) : List Char → Bool
  | [] => false
  | c :: cs =>
    match s.step c with
    | .error _ => true
    | .ok next =>
      match next.mode with
      | .set _ => next.setSettles cs
      | _ => true

def State.atSetStart (s : State) : Bool :=
  match s.mode with
  | .set k => k.fresh
  | _ => false

/-- Takes the next character; a bracket that is never closed stands for itself, and so do all
brackets behind it. -/
def State.lenientStep (s : State) (c : Char) (cs : List Char) : Except GlobError State :=
  match s.step c with
  | .error e => .error e
  | .ok next =>
    if next.atSetStart && !next.setSettles cs then { s with bracketsPlain := true }.step c
    else .ok next

def State.lenientSteps (s : State) : List Char → Except GlobError State
  | [] => .ok s
  | c :: cs =>
    match s.lenientStep c cs with
    | .error e => .error e
    | .ok s => s.lenientSteps cs

/-- A pattern whose wildcards match anything, slashes too. -/
def parse (glob : String) : Except GlobError Pattern :=
  match State.steps {} glob.toList with
  | .error e => .error e
  | .ok s =>
    match s.finish with
    | .error e => .error e
    | .ok tokens => .ok ⟨tokens, false⟩

/-- A pattern whose wildcards keep off slashes and whose unclosed brackets stand for themselves. -/
def parseLine (glob : String) : Except GlobError Pattern :=
  match State.lenientSteps {} glob.toList with
  | .error e => .error e
  | .ok s =>
    match s.finish with
    | .error e => .error e
    | .ok tokens => .ok ⟨tokens, true⟩

/-- Globs as they are read here. A set matches what one of its globs matches. -/
def reader : Globs where
  read glob :=
    match parse glob with
    | .error e => .error ("error parsing glob '" ++ glob ++ "': " ++ e.reason)
    | .ok p => .ok p.matches
  build ms := .ok fun path => ms.any fun m => m path

end CodeSearch.Glob
