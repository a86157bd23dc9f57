import CodeSearch.Json

/-!
Records read from JSON. A record is written as an object, whose other fields do not count, or as an
array of its fields in order, from which fields at the end may be missing.
-/

set_option autoImplicit false

namespace CodeSearch.Json

/-- The values of the named fields of a record. No named field may occur twice, and an array may not
be longer than the record. -/
def record? (names : List String) : Json → Option (List (Option Json))
  | object fields =>
    if names.any fun name => decide (1 < fields.countP fun f => f.1 == name) then none
    else some (names.map fun name => (object fields).field? name)
  | array items =>
    if items.length ≤ names.length then
      some ((List.range names.length).map fun i => items[i]?)
    else none
  | _ => none

/-- A field's value, or the default if the field is missing. -/
def orDefault {α : Type} (default : α) (read? : Json → Option α) : Option Json → Option α
  | none => some default
  | some j => read? j

/-- A whole number of 64 bits without sign. -/
def nat? : Json → Option Nat
  | integer n => if 0 ≤ n then some n.toNat else none
  | _ => none

def ofInt64 (n : Int) : Float :=
  if n < 0 then -(UInt64.ofNat n.natAbs).toFloat else (UInt64.ofNat n.natAbs).toFloat

def float? : Json → Option Float
  | integer n => some (ofInt64 n)
  | real x => some x
  | _ => none

/-- A number in single precision: whole numbers are rounded once. -/
def single? : Json → Option Float32
  | integer n =>
    let size := (UInt64.ofNat n.natAbs).toFloat32
    some (if n < 0 then -size else size)
  | real x => some x.toFloat32
  | _ => none

def string? : Json → Option String
  | string text => some text
  | _ => none

/-- An array whose items can all be read. -/
def list? {α : Type} (read? : Json → Option α) : Json → Option (List α)
  | array items => items.mapM read?
  | _ => none

end CodeSearch.Json
