import CodeSearch.Proofs.Text.Characters

/-!
# Lower case in parts

What becomes of a character in lower case is a matter of the character alone, apart from the two
small forms of sigma. White space parts a text: what becomes of the text on one side of it does not
depend on what is on the other.
-/

set_option autoImplicit false

namespace CodeSearch.Text

/-- What becomes of a character between others; those before it stand newest first. -/
def lowerBetween (before : List Char) (c : Char) (after : List Char) : List Char :=
  if c == 'Σ' then [if nextIsCased before && !nextIsCased after then 'ς' else 'σ'] else lowerChar c

section Parts

theorem lowerFrom_cons (before out : List Char) (c : Char) (cs : List Char) :
    lowerFrom before out (c :: cs) =
      lowerFrom (c :: before) ((lowerBetween before c cs).reverse ++ out) cs := by
  rw [lowerFrom, lowerBetween]
  split
  · rfl
  · rfl

theorem lowerFrom_eq (before out cs : List Char) :
    lowerFrom before out cs = out.reverse ++ lowerFrom before [] cs := by
  induction cs generalizing before out with
  | nil => exact (List.append_nil _).symm
  | cons c cs ih =>
    rw [lowerFrom_cons, ih, lowerFrom_cons, ih _ (_ ++ []), List.reverse_append,
      List.reverse_reverse, List.append_nil, List.reverse_reverse, List.append_assoc]

theorem lowerFrom_nil_cons (before : List Char) (c : Char) (cs : List Char) :
    lowerFrom before [] (c :: cs) =
      lowerBetween before c cs ++ lowerFrom (c :: before) [] cs := by
  rw [lowerFrom_cons, List.append_nil, lowerFrom_eq, List.reverse_reverse]

/-- A reading that does not tell the small forms of sigma apart sees each character alone. -/
theorem map_lowerCase {β : Type} {f : Char → β}
    (hsigma : ∀ small, small = 'ς' ∨ small = 'σ' → [f small] = (lowerChar 'Σ').map f)
    (cs : List Char) : (lowerCase cs).map f = cs.flatMap fun c => (lowerChar c).map f := by
  have hone : ∀ before c after, (lowerBetween before c after).map f = (lowerChar c).map f := by
    intro before c after
    rw [lowerBetween]
    split
    · rename_i hc
      obtain rfl := beq_iff_eq.mp hc
      apply hsigma
      split
      · exact Or.inl rfl
      · exact Or.inr rfl
    · rfl
  have hfrom : ∀ before, (lowerFrom before [] cs).map f =
      cs.flatMap fun c => (lowerChar c).map f := by
    induction cs with
    | nil => exact fun _ => rfl
    | cons c cs ih =>
      intro before
      rw [lowerFrom_nil_cons, List.map_append, hone, ih, List.flatMap_cons]
  exact hfrom []

end Parts

section Boundaries
variable {w : Char}

theorem casedSet_clearOfWhite : ∀ row ∈ casedSet.rows.toList, clearOf whiteRanges row = true := by
  apply Table.forall_ofRanges
  repeat' first
    | exact List.forall_mem_nil _
    | refine List.forall_mem_cons.mpr ⟨by rw [String.toList_ofList]; decide +kernel, ?_⟩

theorem caseIgnorableSet_clearOfWhite :
    ∀ row ∈ caseIgnorableSet.rows.toList, clearOf whiteRanges row = true := by
  apply Table.forall_ofRanges
  repeat' first
    | exact List.forall_mem_nil _
    | refine List.forall_mem_cons.mpr ⟨by rw [String.toList_ofList]; decide +kernel, ?_⟩

theorem lowerTable_clearOfWhite :
    ∀ row ∈ lowerTable.rows.toList, clearOf whiteRanges row = true := by
  apply Table.forall_ofRanges
  repeat' first
    | exact List.forall_mem_nil _
    | refine List.forall_mem_cons.mpr ⟨by rw [String.toList_ofList]; decide +kernel, ?_⟩

theorem caseRows_clearOfWhite : ∀ row ∈ caseRows, clearOf whiteRanges row = true := by
  intro row hrow
  rcases List.mem_append.mp hrow with hbasic | htable
  · have hall : basicRows.all (clearOf whiteRanges) = true := by decide
    exact List.all_eq_true.mp hall row hbasic
  · exact lowerTable_clearOfWhite row htable

theorem atRest_of_isWhite (hw : isWhite w = true) : AtRest w := by
  apply atRest_of_rests
  intro row hrow
  have hclear := not_speaks_of_clearOf (caseRows_clearOfWhite row hrow) (exists_mem_whiteRanges hw)
  rw [rests_iff]
  exact fun hfirst hlast => absurd ⟨hfirst, hlast⟩ hclear

theorem lowerBetween_of_atRest {c : Char} (hc : AtRest c) (before after : List Char) :
    lowerBetween before c after = [c] := by
  rw [lowerBetween, if_neg (by rw [beq_iff_eq]; exact hc.1), hc.2]

/-- The search for a cased neighbour ends at white space as it does at the end of the text. -/
theorem nextIsCased_append (hw : isWhite w = true) (cs rest : List Char) :
    nextIsCased (cs ++ w :: rest) = nextIsCased cs := by
  induction cs with
  | nil =>
    have hends := exists_mem_whiteRanges hw
    rw [List.nil_append, nextIsCased, nextIsCased,
      Table.contains_eq_false caseIgnorableSet_clearOfWhite hends, if_neg Bool.false_ne_true,
      Table.contains_eq_false casedSet_clearOfWhite hends]
  | cons c cs ih => rw [List.cons_append, nextIsCased, nextIsCased, ih]

theorem lowerBetween_append_left (hw : isWhite w = true) (before rest : List Char) (c : Char)
    (after : List Char) :
    lowerBetween (before ++ w :: rest) c after = lowerBetween before c after := by
  rw [lowerBetween, lowerBetween, nextIsCased_append hw]

theorem lowerBetween_append_right (hw : isWhite w = true) (before : List Char) (c : Char)
    (after rest : List Char) :
    lowerBetween before c (after ++ w :: rest) = lowerBetween before c after := by
  rw [lowerBetween, lowerBetween, nextIsCased_append hw]

theorem lowerFrom_behind (hw : isWhite w = true) (before rest cs : List Char) :
    lowerFrom (before ++ w :: rest) [] cs = lowerFrom before [] cs := by
  induction cs generalizing before with
  | nil => rfl
  | cons c cs ih =>
    rw [lowerFrom_nil_cons, lowerFrom_nil_cons, lowerBetween_append_left hw, ← List.cons_append, ih]

theorem lowerFrom_append (hw : isWhite w = true) (before cs rest : List Char) :
    lowerFrom before [] (cs ++ w :: rest) =
      lowerFrom before [] cs ++ w :: lowerFrom [] [] rest := by
  induction cs generalizing before with
  | nil =>
    rw [List.nil_append, lowerFrom_nil_cons, lowerBetween_of_atRest (atRest_of_isWhite hw)]
    exact congrArg (w :: ·) (lowerFrom_behind hw [] before rest)
  | cons c cs ih =>
    rw [List.cons_append, lowerFrom_nil_cons, lowerFrom_nil_cons, lowerBetween_append_right hw, ih,
      List.append_assoc]

theorem lowerCase_append (hw : isWhite w = true) (cs rest : List Char) :
    lowerCase (cs ++ w :: rest) = lowerCase cs ++ w :: lowerCase rest :=
  lowerFrom_append hw [] cs rest

end Boundaries

end CodeSearch.Text
