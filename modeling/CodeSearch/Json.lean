import CodeSearch.Decimal.Printer

/-!
JSON values and their text. Whole numbers are kept apart from doubles. Some well-formed literals
denote nothing, such as a number beyond all doubles or a string with half of a surrogate pair;
they are values too, for whoever skips over them.
-/

set_option autoImplicit false

namespace CodeSearch

inductive Json where
  | null
  | bool (value : Bool)
  | integer (value : Int)
  | real (value : Float)
  | string (text : String)
  | array (items : List Json)
  | object (fields : List (String × Json))
  /-- A literal, or an object with a key, that is well formed but denotes nothing. -/
  | unreadable

instance : Inhabited Json := ⟨.null⟩

namespace Json

/-- The first field of that name. -/
def field? (name : String) : Json → Option Json
  | object fields => (fields.find? fun f => f.1 == name).map Prod.snd
  | _ => none

/-- The value of a field; a missing one counts as null. -/
def get (j : Json) (name : String) : Json := (j.field? name).getD null

def ofNat (n : Nat) : Json := integer n

def ofStrings (items : List String) : Json := array (items.map string)

/-- A value or null. -/
def ofOption {α : Type} (f : α → Json) (value : Option α) : Json :=
  match value with
  | some a => f a
  | none => null

/-- Escapes quotes, backslashes and control characters; all else stands for itself. -/
def escapeChar (c : Char) : List Char :=
  if c == '"' then ['\\', '"']
  else if c == '\\' then ['\\', '\\']
  else if c == '\n' then ['\\', 'n']
  else if c == '\r' then ['\\', 'r']
  else if c == '\t' then ['\\', 't']
  else if c.toNat == 8 then ['\\', 'b']
  else if c.toNat == 12 then ['\\', 'f']
  else if c.toNat < 32 then
    ['\\', 'u', '0', '0', Nat.digitChar (c.toNat / 16), Nat.digitChar (c.toNat % 16)]
  else [c]

def quoted (text : String) : String :=
  String.ofList ('"' :: text.toList.flatMap escapeChar ++ ['"'])

/-- Text of a double; what is not finite has none. -/
def realText (x : Float) : String :=
  if x.isNaN || x.isInf then "null" else Decimal.shortestText x

def indent (depth : Nat) : String := String.ofList (List.replicate (2 * depth) ' ')

mutual

/-- Text without blanks. -/
def compact : Json → String
  | null | unreadable => "null"
  | bool value => if value then "true" else "false"
  | integer value => toString value
  | real value => realText value
  | string text => quoted text
  | array items => "[" ++ String.intercalate "," (compactItems items) ++ "]"
  | object fields => "\x7b" ++ String.intercalate "," (compactFields fields) ++ "\x7d"

def compactItems : List Json → List String
  | [] => []
  | item :: items => compact item :: compactItems items

def compactFields : List (String × Json) → List String
  | [] => []
  | (name, value) :: fields => (quoted name ++ ":" ++ compact value) :: compactFields fields

end

mutual

/-- Text with one item or field per line, two blanks for each level; `depth` is that of the lines
within. -/
def prettyAt (depth : Nat) : Json → String
  | null | unreadable => "null"
  | bool value => if value then "true" else "false"
  | integer value => toString value
  | real value => realText value
  | string text => quoted text
  | array [] => "[]"
  | array items =>
    "[\n" ++ String.intercalate ",\n" (prettyItems depth items) ++ "\n" ++ indent (depth - 1) ++ "]"
  | object [] => "\x7b\x7d"
  | object fields =>
    "\x7b\n" ++ String.intercalate ",\n" (prettyFields depth fields) ++ "\n" ++
      indent (depth - 1) ++ "\x7d"

def prettyItems (depth : Nat) : List Json → List String
  | [] => []
  | item :: items => (indent depth ++ prettyAt (depth + 1) item) :: prettyItems depth items

def prettyFields (depth : Nat) : List (String × Json) → List String
  | [] => []
  | (name, value) :: fields =>
    (indent depth ++ quoted name ++ ": " ++ prettyAt (depth + 1) value) :: prettyFields depth fields

end

def pretty (value : Json) : String := prettyAt 1 value

end Json

end CodeSearch
