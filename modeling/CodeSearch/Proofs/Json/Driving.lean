import CodeSearch.Proofs.Json.Scalars

/-!
# Texts that drive the reader

A text drives the machine from one state to another if its tokens do, whatever follows it. Pieces of
a text that follow each other drive the machine one after the other; so what a whole text is read as
can be said from what its pieces do.
-/

set_option autoImplicit false

namespace CodeSearch.Json

open Decimal (Literal Stops)

namespace Machine

/-- With this text in front, and something behind it that may `follow`, the machine comes from `m`
to `m'` and what is behind the text is left. -/
def Drives (follow : List Char → Prop) (text : List Char) (m m' : Machine) : Prop :=
  ∀ rest, follow rest → ∀ fuel out, (text ++ rest).length ≤ fuel →
    ∃ (left : Nat) (tokens : List Token), rest.length ≤ left ∧
      tokensFrom fuel out (text ++ rest) = tokensFrom left (tokens.reverse ++ out) rest ∧
      tokens.foldlM step? m = some m'

variable {follow follow' : List Char → Prop} {text text' : List Char} {m m' m'' : Machine}

theorem drives_nil : Drives follow [] m m :=
  fun _ _ fuel _ hfuel => ⟨fuel, [], hfuel, rfl, rfl⟩

theorem Drives.append (h : Drives follow text m m') (h' : Drives follow' text' m' m'')
    (hfollow : ∀ rest, follow' rest → follow (text' ++ rest)) :
    Drives follow' (text ++ text') m m'' := by
  intro rest hrest fuel out hfuel
  rw [List.append_assoc] at hfuel ⊢
  obtain ⟨left, tokens, hleft, htokens, hrun⟩ := h _ (hfollow rest hrest) fuel out hfuel
  obtain ⟨left', tokens', hleft', htokens', hrun'⟩ :=
    h' rest hrest left (tokens.reverse ++ out) hleft
  refine ⟨left', tokens ++ tokens', hleft', ?_, ?_⟩
  · rw [htokens, htokens', List.reverse_append, List.append_assoc]
  · rw [List.foldlM_append, hrun]
    exact hrun'

theorem drives_blanks (h : ∀ c ∈ text, isBlankChar c = true) : Drives follow text m m := by
  induction text with
  | nil => exact drives_nil
  | cons c text ih =>
    obtain ⟨hc, htext⟩ := List.forall_mem_cons.mp h
    intro rest hrest fuel out hfuel
    obtain ⟨fuel, rfl⟩ : ∃ n, fuel = n + 1 := ⟨fuel - 1, by simp at hfuel; omega⟩
    rw [List.cons_append, tokensFrom, if_pos hc]
    exact ih htext rest hrest fuel out (by simpa using hfuel)

/-- A text that is read as one token. -/
theorem drives_token {c : Char} {t : Token} (hblank : isBlankChar c = false)
    (hread : ∀ rest, follow rest → ∀ fuel, (c :: text ++ rest).length ≤ fuel →
      readToken? fuel c (text ++ rest) = some (t, rest))
    (hstep : m.step? t = some m') : Drives follow (c :: text) m m' := by
  intro rest hrest fuel out hfuel
  obtain ⟨fuel, rfl⟩ : ∃ n, fuel = n + 1 := ⟨fuel - 1, by simp at hfuel; omega⟩
  refine ⟨fuel, [t], by simp at hfuel; omega, ?_, ?_⟩
  · rw [List.cons_append, tokensFrom, if_neg (by simp [hblank]), hread rest hrest _ hfuel]
    rfl
  · simp [hstep]

/-- A whole text that drives the machine to its end. -/
theorem parse?_of_drives {text : String} {m : Machine} (h : Drives Stops text.toList {} m)
    (hend : m.awaiting = .nothing) : parse? text = some m.result := by
  obtain ⟨left, tokens, -, htokens, hrun⟩ :=
    h [] Decimal.stops_nil text.toList.length [] (by simp)
  rw [List.append_nil, List.append_nil] at htokens
  rw [parse?, htokens, tokensFrom, Option.bind_some, List.reverse_reverse, ofTokens?, hrun]
  simp [hend]

section Tokens

theorem drives_string {s : String} (hstep : m.step? (.scalar (.string s)) = some m') :
    Drives follow (quoted s).toList m m' := by
  rw [quoted, String.toList_ofList, List.cons_append]
  refine drives_token rfl ?_ hstep
  intro rest _ fuel hfuel
  have hlength := length_le_flatMap_escapeChar s.toList
  have hroom : s.toList.length < fuel := by
    simp only [List.length_append, List.length_cons] at hfuel
    omega
  have hread := readString?_flatMap_escapeChar [] rest hroom
  rw [List.reverse_nil, List.nil_append, String.ofList_toList] at hread
  have htoken : ∀ cs, readToken? fuel '"' cs =
      (readString? fuel {} cs).map fun read => (.scalar read.1, read.2) := fun _ => rfl
  rw [List.append_assoc, List.singleton_append, htoken, hread]
  rfl

/-- A number is a token as long as nothing follows that could belong to it. -/
theorem drives_literal {l : Literal} (h : l.Proper)
    (hstep : m.step? (.scalar (numberValue l)) = some m') : Drives Stops l.text m m' := by
  obtain ⟨c, cs, htext, hc⟩ : ∃ c cs, l.text = c :: cs ∧ (c.isDigit = true ∨ c = '-') := by
    cases hwhole : l.whole with
    | nil => exact absurd hwhole h.nonempty
    | cons c cs =>
      rw [Literal.text, Literal.body, hwhole]
      split
      · exact ⟨_, _, rfl, Or.inr rfl⟩
      · exact ⟨_, _, rfl, Or.inl (h.digits c (by simp [hwhole]))⟩
  have hother : ∀ d : Char, d.isDigit = false → d ≠ '-' → c ≠ d := by
    rintro d hdigit hsign rfl
    rcases hc with hc | hc
    · rw [hc] at hdigit
      cases hdigit
    · exact hsign hc
  rw [htext]
  refine drives_token ?_ ?_ hstep
  · simp [isBlankChar, hother]
  · intro rest hrest fuel _
    have hread := readNumber?_text h hrest
    rw [htext, List.cons_append] at hread
    simp [readToken?, hother, hread]

end Tokens

end Machine

end CodeSearch.Json
