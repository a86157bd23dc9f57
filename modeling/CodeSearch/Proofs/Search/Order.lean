import CodeSearch.Store.Similarity
import Mathlib.Algebra.Order.Ring.Rat
import Mathlib.Data.Set.Card

/-!
# The order of candidates

What the arithmetic of scores has to promise, and of which scores: doubles keep to an order only
among numbers. In that order what cannot be told apart is tied, and it is enough for distances to
order the candidates of a search. Taking distances from one turns the order around. Rounding may tie
similarities whose distances differ. Candidates at equal distances are in the order of their ids.
-/

set_option autoImplicit false

namespace CodeSearch

namespace Score
variable {α : Type} [Score α] {P Q : α → Prop}

/-- Among the scores with `P`, `lt` is a strict order, and each stands behind the lower or before
the higher of any two. -/
structure OrderedOn (P : α → Prop) : Prop where
  lt_asymm : ∀ {a b}, P a → P b → Score.lt a b = true → Score.lt b a = false
  lt_or_lt : ∀ {a b c}, P a → P b → P c → Score.lt a c = true →
    Score.lt a b = true ∨ Score.lt b c = true

/-- Among the scores with `P`, differences to one, sorting and the larger of two go by the order. -/
structure LawfulOn (P : α → Prop) : Prop extends OrderedOn P where
  one_sub : ∀ {a}, P a → P (Score.one - a)
  lt_of_sub_lt_sub : ∀ {a b}, P a → P b →
    Score.lt (Score.one - b) (Score.one - a) = true → Score.lt a b = true
  sortLe_total : ∀ {a b}, P a → P b → (Score.sortLe a b || Score.sortLe b a) = true
  sortLe_trans : ∀ {a b c}, P a → P b → P c →
    Score.sortLe a b = true → Score.sortLe b c = true → Score.sortLe a c = true
  not_lt_of_sortLe : ∀ {a b}, P a → P b → Score.sortLe b a = true → Score.lt a b = false
  lt_of_larger_lt : ∀ {a b c}, P a → P b → P c → Score.lt (Score.larger a b) c = true →
    Score.lt a c = true ∧ Score.lt b c = true

theorem lawfulOn_rat : LawfulOn fun _ : Rat => True where
  lt_asymm _ _ h := by
    simp only [Score.lt, decide_eq_true_eq, decide_eq_false_iff_not, not_lt] at h ⊢
    exact h.le
  lt_or_lt {a b c} _ _ _ h := by
    have hac : a < c := of_decide_eq_true h
    exact (LT.lt.lt_or_gt hac b).symm.imp decide_eq_true decide_eq_true
  one_sub _ := trivial
  lt_of_sub_lt_sub _ _ h := by
    simp only [Score.lt, decide_eq_true_eq] at h ⊢
    exact (sub_lt_sub_iff_left (Score.one : Rat)).mp h
  sortLe_total {a b} _ _ := by
    simp only [Score.sortLe, Bool.or_eq_true, decide_eq_true_eq]
    exact le_total a b
  sortLe_trans _ _ _ hab hbc := by
    simp only [Score.sortLe, decide_eq_true_eq] at hab hbc ⊢
    exact hab.trans hbc
  not_lt_of_sortLe _ _ h := by
    simp only [Score.sortLe, Score.lt, decide_eq_true_eq, decide_eq_false_iff_not, not_lt] at h ⊢
    exact h
  lt_of_larger_lt {a b c} _ _ _ := by
    simp only [Score.lt, Score.larger, decide_eq_true_eq]
    split
    · rename_i hab
      exact fun hbc => ⟨hab.trans hbc, hbc⟩
    · rename_i hab
      exact fun hac => ⟨hac, (not_lt.mp hab).trans_lt hac⟩

end Score

namespace Candidate
variable {α : Type} [Score α]

/-- Nearer, or as near with a smaller id. -/
def Before (a b : Candidate α) : Prop :=
  Score.lt a.distance b.distance = true ∨
    Score.lt b.distance a.distance = false ∧ a.chunk.id < b.chunk.id

theorem before_of_precedes {a b : Candidate α} (h : a.precedes b = true)
    (hne : a.chunk.id ≠ b.chunk.id) : a.Before b := by
  simp only [precedes, Bool.or_eq_true, Bool.and_eq_true, Bool.not_eq_true',
    decide_eq_true_eq] at h
  apply h.imp_right
  rintro ⟨htied, hid⟩
  exact ⟨htied, lt_of_le_of_ne hid hne⟩

theorem precedes_total (a b : Candidate α) : (a.precedes b || b.precedes a) = true := by
  simp only [precedes, Bool.or_eq_true, Bool.and_eq_true, Bool.not_eq_true', decide_eq_true_eq]
  cases hab : Score.lt a.distance b.distance with
  | true => exact Or.inl (Or.inl rfl)
  | false =>
    cases hba : Score.lt b.distance a.distance with
    | true => exact Or.inr (Or.inl rfl)
    | false =>
      rcases le_total a.chunk.id b.chunk.id with hid | hid
      · exact Or.inl (Or.inr ⟨rfl, hid⟩)
      · exact Or.inr (Or.inr ⟨rfl, hid⟩)

section Ordered
variable {P : α → Prop} {a b c : Candidate α}

theorem Before.not_nearer (hP : Score.OrderedOn P) (ha : P a.distance) (hb : P b.distance)
    (h : a.Before b) : Score.lt b.distance a.distance = false := by
  rcases h with hlt | ⟨htied, _⟩
  · exact hP.lt_asymm ha hb hlt
  · exact htied

/-- What is not nearer in distance is not further in similarity. -/
theorem Before.similarity (hP : Score.LawfulOn P) (ha : P a.distance) (hb : P b.distance)
    (h : a.Before b) : Score.lt a.similarity b.similarity = false := by
  apply eq_false_of_ne_true
  intro hlt
  have hnearer := hP.lt_of_sub_lt_sub hb ha hlt
  exact absurd hnearer (ne_true_of_eq_false (h.not_nearer hP.toOrderedOn ha hb))

theorem precedes_trans (hP : Score.OrderedOn P) (ha : P a.distance) (hb : P b.distance)
    (hc : P c.distance) (hab : a.precedes b = true) (hbc : b.precedes c = true) :
    a.precedes c = true := by
  simp only [precedes, Bool.or_eq_true, Bool.and_eq_true, Bool.not_eq_true',
    decide_eq_true_eq] at hab hbc ⊢
  rcases hab with hab | ⟨hba, hid⟩
  · -- `c` is not nearer than `b`, so what is nearer than `b` is nearer than `c`.
    rcases hP.lt_or_lt ha hc hb hab with hac | hcb
    · exact Or.inl hac
    · rcases hbc with hbc | ⟨hcb', _⟩
      · exact absurd hcb (ne_true_of_eq_false (hP.lt_asymm hb hc hbc))
      · exact absurd hcb (ne_true_of_eq_false hcb')
  · rcases hbc with hbc | ⟨hcb, hid'⟩
    · rcases hP.lt_or_lt hb ha hc hbc with hba' | hac
      · exact absurd hba' (ne_true_of_eq_false hba)
      · exact Or.inl hac
    · refine Or.inr ⟨?_, hid.trans hid'⟩
      apply eq_false_of_ne_true
      intro hca
      rcases hP.lt_or_lt hc hb ha hca with hcb' | hba'
      · exact absurd hcb' (ne_true_of_eq_false hcb)
      · exact absurd hba' (ne_true_of_eq_false hba)

end Ordered

end Candidate

section Leading
variable {α : Type} [Score α]

/-- The first `k` of the candidates with `P`, by distance and id; all of them if they are fewer. -/
structure Leading (P : Candidate α → Prop) (k : Nat) (best : List (Candidate α)) : Prop where
  holds : ∀ c ∈ best, P c
  inOrder : best.Pairwise Candidate.Before
  length_eq : best.length = min k (Set.ncard {c | P c})
  ahead : ∀ c, P c → c ∉ best → ∀ b ∈ best, b.Before c

theorem leading_take {P : Candidate α → Prop} {all : List (Candidate α)}
    (hmem : ∀ c, c ∈ all ↔ P c) (horder : all.Pairwise Candidate.Before) (hnodup : all.Nodup)
    (k : Nat) : Leading P k (all.take k) := by
  classical
  have hset : {c | P c} = ↑all.toFinset := by
    ext c
    simp [hmem]
  refine ⟨?_, horder.sublist (List.take_sublist k all), ?_, ?_⟩
  · intro c hc
    exact (hmem c).mp (List.mem_of_mem_take hc)
  · rw [hset, Set.ncard_coe_finset, List.toFinset_card_of_nodup hnodup, List.length_take]
  · intro c hc hout b hb
    have hsplit : (all.take k ++ all.drop k).Pairwise Candidate.Before := by
      rwa [List.take_append_drop]
    have hc' : c ∈ all.take k ++ all.drop k := by
      rw [List.take_append_drop]
      exact (hmem c).mpr hc
    exact (List.pairwise_append.mp hsplit).2.2 b hb c ((List.mem_append.mp hc').resolve_left hout)

end Leading

end CodeSearch
