/-!
Whole numbers of 64 bits, with and without a sign. Sums and products are checked: the program ends
where one does not fit into a word, so here it is none.
-/

set_option autoImplicit false

namespace CodeSearch.Word

/-- Words without a sign are the numbers below this. -/
def size : Nat := Nat.pow 2 64

/-- Words with a sign are the numbers from minus this up to this, which is left out. -/
def half : Nat := Nat.pow 2 63

def plus? (a b : Nat) : Option Nat := if a + b < size then some (a + b) else none

def times? (a b : Nat) : Option Nat := if a * b < size then some (a * b) else none

/-- The number of the same bits with a sign. -/
def signed (n : Nat) : Int64 := Int64.ofNat n

/-- A number as a word with a sign. -/
def ofInt? (n : Int) : Option Int64 :=
  if -half ≤ n ∧ n < half then some (Int64.ofInt n) else none

end CodeSearch.Word
