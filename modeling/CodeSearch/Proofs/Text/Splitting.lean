import CodeSearch.Proofs.Text.Lines

/-!
# Cutting and what leaves ink

A text that is cut at a separator is whole again when its pieces are joined with that separator. So
cutting at white space and joining by white space leave the ink of a text as it is, the characters
that are not white space, in their order.
-/

set_option autoImplicit false

namespace CodeSearch.Text

section Joining

theorem joinWith_concat_concat (sep : List Char) (front : List (List Char)) (a b : List Char) :
    joinWith sep (front ++ [a, b]) = joinWith sep (front ++ [a ++ sep ++ b]) := by
  induction front with
  | nil => simp [joinWith, List.intercalate_cons_cons]
  | cons first rest ih =>
    have hne : ∀ tail : List (List Char), tail ≠ [] →
        joinWith sep (first :: (rest ++ tail)) = first ++ sep ++ joinWith sep (rest ++ tail) := by
      intro tail htail
      apply List.intercalate_cons_of_ne_nil
      simp [htail]
    rw [List.cons_append, List.cons_append, hne _ (by simp), hne _ (by simp), ih]

/-- What is still to be passed of an occurrence belongs to the separator behind the last piece. -/
theorem joinWith_splitFrom {sep : List Char} (hne : sep ≠ []) (done : List (List Char))
    (piece : List Char) (skip : Nat) (cs : List Char) :
    joinWith sep (splitFrom sep done piece skip cs) =
      joinWith sep (done.reverse ++ [piece.reverse ++ cs.drop skip]) := by
  fun_induction splitFrom sep done piece skip cs with
  | case1 done piece skip => simp
  | case2 done piece skip c cs ih => simpa using ih
  | case3 done piece c cs hfound ih =>
    obtain ⟨rest, hrest⟩ := List.isPrefixOf_iff_prefix.mp hfound
    have hdrop : cs.drop (sep.length - 1) = rest := by
      cases sep with
      | nil => exact absurd rfl hne
      | cons s sep =>
        obtain ⟨_, rfl⟩ := List.cons.inj hrest
        simp
    rw [ih, hdrop, ← hrest]
    simp only [List.reverse_cons, List.reverse_nil, List.nil_append, List.append_assoc,
      List.singleton_append, List.drop_zero, joinWith_concat_concat]
  | case4 done piece c cs hnone ih => simpa using ih

theorem joinWith_splitOn {sep : List Char} (hne : sep ≠ []) (cs : List Char) :
    joinWith sep (splitOn sep cs) = cs := by
  rw [splitOn, if_neg (by simpa using hne), joinWith_splitFrom hne]
  simp [joinWith]

theorem joinWith_nil (pieces : List (List Char)) : joinWith [] pieces = pieces.flatten := by
  induction pieces with
  | nil => rfl
  | cons first rest ih =>
    cases rest with
    | nil => simp [joinWith]
    | cons second rest => simpa [joinWith, List.intercalate_cons_cons] using ih

theorem joinWith_splitOn_nil (cs : List Char) : joinWith [] (splitOn [] cs) = cs := by
  have hchars : (cs.map fun c => [c]).flatten = cs := by
    rw [← List.flatMap_def, List.flatMap_singleton']
  rw [joinWith_nil, splitOn, if_pos List.isEmpty_nil]
  simpa using hchars

theorem splitFrom_ne_nil (sep : List Char) (done : List (List Char)) (piece : List Char)
    (skip : Nat) (cs : List Char) : splitFrom sep done piece skip cs ≠ [] := by
  fun_induction splitFrom sep done piece skip cs with
  | case1 done piece skip => simp
  | case2 done piece skip c cs ih => exact ih
  | case3 done piece c cs hfound ih => exact ih
  | case4 done piece c cs hnone ih => exact ih

theorem splitOn_ne_nil (sep cs : List Char) : splitOn sep cs ≠ [] := by
  rw [splitOn]
  split
  · simp
  · exact splitFrom_ne_nil sep [] [] 0 cs

end Joining

section Ink

def ink (cs : List Char) : List Char := cs.filter fun c => !isWhite c

theorem ink_append (xs ys : List Char) : ink (xs ++ ys) = ink xs ++ ink ys := List.filter_append ..

theorem ink_flatten (pieces : List (List Char)) : ink pieces.flatten = pieces.flatMap ink :=
  List.filter_flatten ..

theorem ink_eq_nil_iff (cs : List Char) : ink cs = [] ↔ isBlank cs = true := by
  simp [ink, isBlank]

theorem ink_joinWith {sep : List Char} (hsep : isBlank sep = true) (pieces : List (List Char)) :
    ink (joinWith sep pieces) = pieces.flatMap ink := by
  induction pieces with
  | nil => rfl
  | cons first rest ih =>
    cases rest with
    | nil => simp [joinWith]
    | cons second rest =>
      simp only [joinWith, List.intercalate_cons_cons] at ih ⊢
      rw [ink_append, ink_append, (ink_eq_nil_iff sep).mpr hsep, ih]
      simp

theorem ink_dropWhile (cs : List Char) : ink (cs.dropWhile isWhite) = ink cs := by
  induction cs with
  | nil => rfl
  | cons c cs ih =>
    rw [List.dropWhile_cons]
    split
    · rename_i hwhite
      rw [ih]
      simp [ink, hwhite]
    · rfl

theorem ink_trim (cs : List Char) : ink (trim cs) = ink cs := by
  have hreverse : ∀ ds : List Char, ink ds.reverse = (ink ds).reverse :=
    fun ds => List.filter_reverse ..
  rw [trim, trimWhere, hreverse, ink_dropWhile, hreverse, List.reverse_reverse, ink_dropWhile]

theorem length_trim_le (cs : List Char) : (trim cs).length ≤ cs.length := by
  have hback := (List.dropWhile_suffix isWhite (l := (cs.dropWhile isWhite).reverse)).length_le
  have hfront := (List.dropWhile_suffix isWhite (l := cs)).length_le
  simp only [trim, trimWhere, List.length_reverse] at hback ⊢
  omega

end Ink

end CodeSearch.Text
