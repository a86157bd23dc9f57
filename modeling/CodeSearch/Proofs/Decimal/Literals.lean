import CodeSearch.Decimal.Printer
import CodeSearch.Decimal.Reader
import CodeSearch.Proofs.Decimal.Shortest

/-!
# Texts of numbers as literals

A literal has one text. Behind such a text, if nothing follows that could go on with a number, the
reader stops and has the parts of the literal. The shortest text of a double is of this form.
-/

set_option autoImplicit false

namespace CodeSearch.Decimal

/-- Nothing that could belong to a number comes next. -/
def Stops (rest : List Char) : Prop :=
  ∀ c ∈ rest.head?, c.isDigit = false ∧ c ≠ '.' ∧ c ≠ 'e' ∧ c ≠ 'E'

theorem stops_nil : Stops [] := by simp [Stops]

theorem stops_cons {c : Char} {rest : List Char} (hdigit : c.isDigit = false) (hpoint : c ≠ '.')
    (he : c ≠ 'e') (hE : c ≠ 'E') : Stops (c :: rest) := by
  simp [Stops, *]

namespace Literal

def fractionText : Option (List Char) → List Char
  | none => []
  | some digits => '.' :: digits

def exponentText : Option Int → List Char
  | none => []
  | some e => 'e' :: (if e < 0 then '-' else '+') :: digitsOf e.natAbs

def body (l : Literal) : List Char :=
  l.whole ++ (fractionText l.fraction ++ exponentText l.exponent)

def text (l : Literal) : List Char := if l.negative then '-' :: l.body else l.body

/-- There are digits wherever there is room for them, and no zero in front. -/
structure Proper (l : Literal) : Prop where
  digits : ∀ c ∈ l.whole, c.isDigit = true
  nonempty : l.whole ≠ []
  leading : l.whole.head? = some '0' → l.whole = ['0']
  fraction : ∀ f ∈ l.fraction, f ≠ [] ∧ ∀ c ∈ f, c.isDigit = true

end Literal

section Digits

theorem isDigit_of_mem_digitsOf {n : Nat} {c : Char} (h : c ∈ digitsOf n) : c.isDigit = true :=
  Nat.isDigit_of_mem_toDigits (by decide) (by decide) h

theorem digitsOf_ne_nil (n : Nat) : digitsOf n ≠ [] := Nat.toDigits_ne_nil

theorem natOfDigits_digitsOf (n : Nat) : natOfDigits (digitsOf n) = n := by
  have hread := Nat.ofDigitChars_ten_toDigits (n := n)
  have hstep : (fun m c => m * 10 + digitValue c) =
      fun m (c : Char) => 10 * m + (c.toNat - '0'.toNat) := by
    funext m c
    rw [Nat.mul_comm]
    rfl
  rw [natOfDigits, hstep]
  exact hread

/-- Only zero begins with a zero. -/
theorem head?_digitsOf {n : Nat} (h : n ≠ 0) : (digitsOf n).head? ≠ some '0' := by
  induction n using Nat.strongRecOn with
  | ind n ih =>
    rw [digitsOf]
    by_cases hsmall : n < 10
    · rw [Nat.toDigits_of_lt_base hsmall, List.head?_cons, Ne, Option.some_inj]
      exact fun heq => h ((Nat.digitChar_eq_zero).mp heq)
    · have hlarge : 10 ≤ n := Nat.le_of_not_lt hsmall
      rw [Nat.toDigits_of_base_le (by decide) hlarge,
        List.head?_append_of_ne_nil _ Nat.toDigits_ne_nil]
      exact ih (n / 10) (by omega) (by omega)

theorem spanDigits_append {digits rest : List Char} (hdigits : ∀ c ∈ digits, c.isDigit = true)
    (hrest : ∀ c ∈ rest.head?, c.isDigit = false) :
    spanDigits (digits ++ rest) = (digits, rest) := by
  have hstop : rest.takeWhile Char.isDigit = [] ∧ rest.dropWhile Char.isDigit = rest := by
    cases rest with
    | nil => simp
    | cons c rest => simp [hrest c rfl]
  rw [spanDigits, List.takeWhile_append_of_pos hdigits, List.dropWhile_append_of_pos hdigits,
    hstop.1, hstop.2, List.append_nil]

end Digits

namespace Literal

section Reading
variable {rest : List Char}

theorem readFraction_text {fraction : Option (List Char)}
    (hfraction : ∀ f ∈ fraction, f ≠ [] ∧ ∀ c ∈ f, c.isDigit = true)
    (hrest : ∀ c ∈ rest.head?, c.isDigit = false ∧ c ≠ '.') :
    readFraction (fractionText fraction ++ rest) = (fraction, rest) := by
  cases fraction with
  | none =>
    cases rest with
    | nil => rfl
    | cons c rest =>
      obtain ⟨-, hpoint⟩ := hrest c rfl
      rw [fractionText, List.nil_append, readFraction]
      exact fun _ heq => hpoint (List.cons.inj heq).1
  | some digits =>
    obtain ⟨-, hdigits⟩ := hfraction digits rfl
    rw [fractionText, List.cons_append, readFraction,
      spanDigits_append hdigits fun c hc => (hrest c hc).1]

theorem readPower?_text {exponent : Option Int} (hrest : Stops rest) :
    readPower? (exponentText exponent ++ rest) = some (exponent, rest) := by
  cases exponent with
  | none =>
    cases rest with
    | nil => rfl
    | cons c rest =>
      obtain ⟨-, -, he, hE⟩ := hrest c rfl
      rw [exponentText, List.nil_append, readPower?]
      · exact fun _ heq => he (List.cons.inj heq).1
      · exact fun _ heq => hE (List.cons.inj heq).1
  | some e =>
    have hspan := spanDigits_append (fun c hc => isDigit_of_mem_digitsOf (n := e.natAbs) hc)
      fun c hc => (hrest c hc).1
    have hempty : (digitsOf e.natAbs).isEmpty = false := by simpa using digitsOf_ne_nil e.natAbs
    rw [exponentText, List.cons_append, List.cons_append]
    by_cases hsign : e < 0
    · have hvalue : -(e.natAbs : Int) = e := by omega
      simp [hsign, readPower?, readExponent?, hspan, hempty, natOfDigits_digitsOf, hvalue,
        -Nat.cast_natAbs]
    · have hvalue : (e.natAbs : Int) = e := by omega
      simp [hsign, readPower?, readExponent?, hspan, hempty, natOfDigits_digitsOf, hvalue,
        -Nat.cast_natAbs]

/-- The parts of a proper literal are read off its text. -/
theorem readParts?_body {l : Literal} (h : l.Proper) (hrest : Stops rest) :
    readParts? l.negative (l.body ++ rest) = some (l, rest) := by
  have hpower : ∀ c ∈ (exponentText l.exponent ++ rest).head?, c.isDigit = false ∧ c ≠ '.' := by
    cases l.exponent with
    | none => exact fun c hc => ⟨(hrest c hc).1, (hrest c hc).2.1⟩
    | some e =>
      rintro c ⟨⟩
      decide
  have hfraction : ∀ c ∈ (fractionText l.fraction ++ (exponentText l.exponent ++ rest)).head?,
      c.isDigit = false := by
    cases l.fraction with
    | none => exact fun c hc => (hpower c hc).1
    | some f =>
      rintro c ⟨⟩
      decide
  rw [body, List.append_assoc, List.append_assoc, readParts?,
    spanDigits_append h.digits hfraction]
  simp only [readFraction_text h.fraction hpower, readPower?_text hrest]
  rfl

end Reading

/-! ### The literal of a double -/

section Shortest
variable {digits : List Char} {negative : Bool}

/-- A literal whose whole part begins with another digit than zero. -/
theorem proper_of_leading (hdigits : ∀ c ∈ digits, c.isDigit = true) (hnonempty : digits ≠ [])
    (hleading : digits.head? ≠ some '0') {fraction : Option (List Char)}
    (hfraction : ∀ f ∈ fraction, f ≠ [] ∧ ∀ c ∈ f, c.isDigit = true) (exponent : Option Int) :
    Proper ⟨negative, digits, fraction, exponent⟩ :=
  ⟨hdigits, hnonempty, fun hzero => absurd hzero hleading, hfraction⟩

/-- Digits with a point among them. -/
theorem proper_withPoint (negative : Bool) (hdigits : ∀ c ∈ digits, c.isDigit = true)
    (hleading : digits.head? ≠ some '0') {place : Nat} (hpos : 0 < place)
    (hlt : place < digits.length) (exponent : Option Int) :
    Proper ⟨negative, digits.take place, some (digits.drop place), exponent⟩ := by
  apply proper_of_leading
  · exact fun c hc => hdigits c (List.mem_of_mem_take hc)
  · exact List.ne_nil_of_length_pos (by rw [List.length_take]; omega)
  · rwa [List.head?_take, if_neg (Nat.ne_of_gt hpos)]
  · rintro f ⟨⟩
    refine ⟨List.ne_nil_of_length_pos (by rw [List.length_drop]; omega), ?_⟩
    exact fun c hc => hdigits c (List.mem_of_mem_drop hc)

theorem isDigit_of_mem_zeros {n : Nat} {c : Char} (h : c ∈ List.replicate n '0') :
    c.isDigit = true := by
  rw [List.eq_of_mem_replicate h]
  rfl

variable {s : Scaled}

theorem exists_plainDigits (h : s.digits ≠ 0) (negative : Bool) :
    ∃ l : Literal, l.Proper ∧ l.negative = negative ∧ l.body = plainDigits s := by
  have hdigits : ∀ c ∈ digitsOf s.digits, c.isDigit = true := fun _ => isDigit_of_mem_digitsOf
  have hleading := head?_digitsOf h
  have hnonempty := digitsOf_ne_nil s.digits
  have hzeros : ∀ n, ∀ c ∈ List.replicate n '0', c.isDigit = true := fun _ _ => isDigit_of_mem_zeros
  unfold plainDigits
  simp only
  split
  · refine ⟨⟨negative, digitsOf s.digits ++ List.replicate s.exponent.toNat '0', some ['0'], none⟩,
      ?_, rfl, by simp [body, fractionText, exponentText]⟩
    apply proper_of_leading
    · exact List.forall_mem_append.mpr ⟨hdigits, hzeros _⟩
    · simp [hnonempty]
    · rwa [List.head?_append_of_ne_nil _ hnonempty]
    · simp
  · split
    · generalize hplace : (((digitsOf s.digits).length : Int) + s.exponent).toNat = place
      have hlt : place < (digitsOf s.digits).length := by omega
      exact ⟨_, proper_withPoint negative hdigits hleading (by omega) hlt none, rfl,
        by simp [body, fractionText, exponentText, withPoint]⟩
    · refine ⟨⟨negative, ['0'], some (List.replicate (-(((digitsOf s.digits).length : Int) +
        s.exponent)).toNat '0' ++ digitsOf s.digits), none⟩, ⟨by simp, by simp, by simp, ?_⟩, rfl,
        by simp [body, fractionText, exponentText]⟩
      rintro f ⟨⟩
      exact ⟨by simp [hnonempty], List.forall_mem_append.mpr ⟨hzeros _, hdigits⟩⟩

theorem exists_scaledText (h : s.digits ≠ 0) (negative : Bool) :
    ∃ l : Literal, l.Proper ∧ l.negative = negative ∧ l.body = scaledText s := by
  have hdigits : ∀ c ∈ digitsOf s.digits, c.isDigit = true := fun _ => isDigit_of_mem_digitsOf
  have hleading := head?_digitsOf h
  have hnonempty := digitsOf_ne_nil s.digits
  have hlength := List.length_pos_iff.mpr hnonempty
  unfold scaledText
  simp only
  split
  · exact exists_plainDigits h negative
  · generalize ((digitsOf s.digits).length : Int) + s.exponent - 1 = power
    split
    · exact ⟨⟨negative, digitsOf s.digits, none, some power⟩,
        proper_of_leading hdigits hnonempty hleading (by simp) _, rfl, rfl⟩
    · exact ⟨_, proper_withPoint negative hdigits hleading Nat.one_pos (by omega) (some power), rfl,
        by simp [body, fractionText, exponentText, withPoint]⟩

/-- The shortest text of a double is that of a literal. -/
theorem exists_shortestText (x : Float) :
    ∃ l : Literal, l.Proper ∧ l.text = (shortestText x).toList := by
  unfold shortestText
  simp only [Nat.pow_eq, String.toList_ofList]
  by_cases hbits : x.toBits.toNat % 2 ^ 63 = 0
  · refine ⟨⟨isNegative x, ['0'], some ['0'], none⟩, ⟨by simp, by simp, by simp, by simp⟩, ?_⟩
    rw [if_pos hbits]
    rfl
  · have hdigits := Binary.shortest_ne_zero (Binary.inRange_ofBits hbits)
    obtain ⟨l, hproper, hsign, hbody⟩ := exists_scaledText hdigits (isNegative x)
    exact ⟨l, hproper, by rw [if_neg hbits, text, hsign, hbody]⟩

end Shortest

def ofInt (n : Int) : Literal := ⟨decide (n < 0), digitsOf n.natAbs, none, none⟩

theorem proper_ofInt (n : Int) : (ofInt n).Proper := by
  refine ⟨fun _ => isDigit_of_mem_digitsOf, digitsOf_ne_nil _, ?_, by simp [ofInt]⟩
  intro hzero
  by_cases hn : n.natAbs = 0
  · rw [ofInt, hn]
    rfl
  · exact absurd hzero (head?_digitsOf hn)

theorem text_ofInt (n : Int) : (ofInt n).text = (toString n).toList := by
  rw [text, body, ofInt, Int.toString_eq_repr]
  cases n with
  | ofNat n => simp [fractionText, exponentText, Int.repr, digitsOf]
  | negSucc n => simp [fractionText, exponentText, Int.repr, digitsOf, Int.negSucc_lt_zero]

end Literal

end CodeSearch.Decimal
