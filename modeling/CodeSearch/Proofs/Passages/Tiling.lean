import CodeSearch.Proofs.Passages.Coverage

/-!
# Pieces tile their text

Between two neighbouring pieces stood the separator at which the text was cut there, or nothing
where it was cut at the limit. With that put back the pieces are the whole text again, whatever
separators are given: the empty one, longer ones, and the same one twice.
-/

set_option autoImplicit false

namespace CodeSearch.Passages
open Text

/-- The pieces make up the text, in order. Between neighbours stands a separator, or nothing if the
piece before is as long as a piece can be. -/
inductive Tiles (maxSize : Nat) (seps : List (List Char)) :
    List (List Char) → List Char → Prop where
  | last (piece : List Char) : Tiles maxSize seps [piece] piece
  | cons {piece glue text : List Char} {rest : List (List Char)}
      (hglue : glue ∈ seps ∨ glue = [] ∧ piece.length = max 1 maxSize)
      (hrest : Tiles maxSize seps rest text) :
      Tiles maxSize seps (piece :: rest) (piece ++ (glue ++ text))

section Tiles
variable {maxSize : Nat} {seps seps' : List (List Char)} {ps qs : List (List Char)}
  {text text' sep : List Char}

theorem Tiles.mono (h : Tiles maxSize seps ps text) (hsub : seps ⊆ seps') :
    Tiles maxSize seps' ps text := by
  induction h with
  | last piece => exact .last piece
  | cons hglue _ ih => exact .cons (hglue.imp_left fun hmem => hsub hmem) ih

theorem Tiles.append (h : Tiles maxSize seps ps text) (hsep : sep ∈ seps)
    (h' : Tiles maxSize seps qs text') :
    Tiles maxSize seps (ps ++ qs) (text ++ (sep ++ text')) := by
  induction h with
  | last piece => exact .cons (Or.inl hsep) h'
  | cons hglue _ ih =>
    simp only [List.cons_append, List.append_assoc]
    exact .cons hglue ih

/-- Tiles of parts that stand with a separator between them. -/
theorem tiles_joinWith {f : List Char → List (List Char)} {parts : List (List Char)}
    (hne : parts ≠ []) (hsep : sep ∈ seps)
    (hparts : ∀ part ∈ parts, Tiles maxSize seps (f part) part) :
    Tiles maxSize seps (parts.flatMap f) (joinWith sep parts) := by
  induction parts with
  | nil => exact absurd rfl hne
  | cons part rest ih =>
    obtain ⟨hpart, hrest⟩ := List.forall_mem_cons.mp hparts
    rw [List.flatMap_cons]
    by_cases hend : rest = []
    · subst hend
      simpa [joinWith] using hpart
    · rw [joinWith, List.intercalate_cons_of_ne_nil hend, List.append_assoc]
      exact hpart.append hsep (ih hend hrest)

/-- Cut at the limit, all pieces but the last have full length. -/
theorem tiles_groupsOf (hne : text ≠ []) : Tiles maxSize seps (groupsOf maxSize text) text := by
  fun_induction groupsOf maxSize text with
  | case1 => exact absurd rfl hne
  | case2 c cs ih =>
    by_cases hend : cs.drop (maxSize - 1) = []
    · have hall : cs.take (maxSize - 1) = cs :=
        List.take_of_length_le (List.drop_eq_nil_iff.mp hend)
      rw [hend, hall, groupsOf]
      exact .last (c :: cs)
    · have hlong : maxSize - 1 < cs.length := by
        simpa [List.drop_eq_nil_iff] using hend
      have hfull : (c :: cs.take (maxSize - 1)).length = max 1 maxSize := by
        rw [List.length_cons, List.length_take]
        omega
      have htiles := Tiles.cons (Or.inr ⟨rfl, hfull⟩) (ih hend)
      rwa [List.nil_append, List.cons_append, List.take_append_drop] at htiles

end Tiles

theorem tiles_pieces (maxSize : Nat) (seps : List (List Char)) (text : List Char) :
    Tiles maxSize seps (pieces maxSize seps text) text := by
  induction seps generalizing text with
  | nil =>
    rw [pieces]
    split
    · exact .last text
    · rename_i hlong
      apply tiles_groupsOf
      intro hnil
      exact hlong (by simp [hnil])
  | cons sep narrower ih =>
    have hpart : ∀ part : List Char,
        Tiles maxSize (sep :: narrower) (pieces maxSize narrower part) part :=
      fun part => (ih part).mono (List.subset_cons_self sep narrower)
    rw [pieces]
    split
    · exact .last text
    · split
      · exact hpart text
      · have htiles := tiles_joinWith (splitOn_ne_nil sep text)
          (List.mem_cons_self (l := narrower)) fun part _ => hpart part
        have hjoin : joinWith sep (splitOn sep text) = text := by
          by_cases hempty : sep = []
          · rw [hempty, joinWith_splitOn_nil]
          · exact joinWith_splitOn hempty text
        rwa [hjoin] at htiles

/-- A text is cut into pieces within the limit that tile it, for all separators in any order. -/
theorem pieces_within_limit_and_tile (maxSize : Nat) (seps : List (List Char)) (text : List Char) :
    (∀ piece ∈ pieces maxSize seps text, piece.length ≤ max 1 maxSize) ∧
      Tiles maxSize seps (pieces maxSize seps text) text :=
  ⟨fun _ hpiece => length_le_of_mem_pieces hpiece, tiles_pieces maxSize seps text⟩

end CodeSearch.Passages
