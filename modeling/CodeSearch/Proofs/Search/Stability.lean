import CodeSearch.Proofs.Search.Diversity
import CodeSearch.Proofs.Search.Doubles
import CodeSearch.Proofs.Sorting

/-!
# Stability

Hits are sorted stably and in a total order, so some of them can as well be picked out before as
after. The penalty for a hit counts the hits of its own file. What is kept of a file and in what
order is then a matter of its own hits.
-/

set_option autoImplicit false

namespace CodeSearch

/-- Scores that are sorted in a total order, what is no number included. -/
class TotalScore (α : Type) [Score α] : Prop where
  sortLe_total (a b : α) : (Score.sortLe a b || Score.sortLe b a) = true
  sortLe_trans (a b c : α) :
    Score.sortLe a b = true → Score.sortLe b c = true → Score.sortLe a c = true
  not_le_of_lt (a b : α) : Score.lt a b = true → Score.le b a = false

section Doubles
open Float.Model

theorem double_not_le_of_lt (x y : Float) (h : Score.lt x y = true) : Score.le y x = false := by
  have hlt : x.toModel.unpack.compare y.toModel.unpack = some .lt :=
    beq_iff_eq.mp (of_decide_eq_true (of_decide_eq_true h))
  have hgt : y.toModel.unpack.compare x.toModel.unpack = some .gt := by
    rw [unpacked_compare_swap, hlt]
    rfl
  have hnot : y.toModel.unpack.le x.toModel.unpack = false := by
    rw [UnpackedFloat.le, hgt]
    rfl
  apply decide_eq_false
  intro hle
  have hyes : y.toModel.unpack.le x.toModel.unpack = true := of_decide_eq_true hle
  exact absurd hyes (ne_true_of_eq_false hnot)

instance : TotalScore Float where
  sortLe_total x y := by
    simp only [Score.sortLe, Bool.or_eq_true, decide_eq_true_eq]
    exact le_total _ _
  sortLe_trans x y z hxy hyz := by
    simp only [Score.sortLe, decide_eq_true_eq] at hxy hyz ⊢
    exact hxy.trans hyz
  not_le_of_lt := double_not_le_of_lt

end Doubles

instance : TotalScore Rat where
  sortLe_total x y := by
    simp only [Score.sortLe, Bool.or_eq_true, decide_eq_true_eq]
    exact le_total x y
  sortLe_trans x y z hxy hyz := by
    simp only [Score.sortLe, decide_eq_true_eq] at hxy hyz ⊢
    exact hxy.trans hyz
  not_le_of_lt x y h := by
    simp only [Score.lt, Score.le, decide_eq_true_eq, decide_eq_false_iff_not] at h ⊢
    exact not_le_of_gt h

namespace Hit
variable {α : Type} [Score α]

/-- Whether a hit may stand before another in the order of similarity, best first. -/
def atLeast (a b : Hit α) : Bool := Score.sortLe b.similarity a.similarity

theorem atLeast_total [TotalScore α] (a b : Hit α) : (a.atLeast b || b.atLeast a) = true :=
  TotalScore.sortLe_total b.similarity a.similarity

theorem atLeast_trans [TotalScore α] (a b c : Hit α) (hab : a.atLeast b = true)
    (hbc : b.atLeast c = true) : a.atLeast c = true :=
  TotalScore.sortLe_trans c.similarity b.similarity a.similarity hbc hab

end Hit

namespace Ranking
variable {α : Type} [Score α] (factor : α)

section Files
variable (file : String) (hits : List (Hit α))

/-- What other files have kept does not count. -/
theorem keeps_filter (kept : List (Hit α)) (hit : Hit α) :
    keeps factor (kept.filter (Hit.isOf hit.chunk.filePath)) hit = keeps factor kept hit := by
  rw [keeps, keeps, List.countP_filter]
  simp only [Bool.and_self]

theorem filter_keep :
    (keep factor hits).filter (Hit.isOf file) = keep factor (hits.filter (Hit.isOf file)) := by
  refine keep_induct factor (P := fun hits kept =>
    kept.filter (Hit.isOf file) = keep factor (hits.filter (Hit.isOf file))) ?_ ?_ ?_ hits
  · rfl
  · intro hits hit ih hkeeps
    rw [List.filter_append, List.filter_append, ih]
    cases hof : Hit.isOf file hit with
    | true =>
      -- What is kept of the file is what it keeps alone, and no more than that is counted.
      obtain rfl := Hit.isOf_iff.mp hof
      rw [List.filter_cons_of_pos hof, List.filter_nil, keep_concat_of_keeps]
      rw [← ih, keeps_filter, hkeeps]
    | false =>
      rw [List.filter_cons_of_neg (ne_true_of_eq_false hof), List.filter_nil, List.append_nil,
        List.append_nil]
  · intro hits hit ih hdrops
    rw [List.filter_append, ih]
    cases hof : Hit.isOf file hit with
    | true =>
      obtain rfl := Hit.isOf_iff.mp hof
      rw [List.filter_cons_of_pos hof, List.filter_nil, keep_concat_of_not_keeps]
      rw [← ih, keeps_filter, hdrops]
    | false =>
      rw [List.filter_cons_of_neg (ne_true_of_eq_false hof), List.filter_nil, List.append_nil]

end Files

section Sorted
variable [TotalScore α]

theorem stablySorted_bySimilarity (hits : List (Hit α)) :
    StablySorted Hit.atLeast hits (bySimilarity hits) :=
  stablySorted_mergeSort Hit.atLeast_trans Hit.atLeast_total hits

theorem filter_bySimilarity (p : Hit α → Bool) (hits : List (Hit α)) :
    (bySimilarity hits).filter p = bySimilarity (hits.filter p) :=
  ((stablySorted_bySimilarity hits).filter p).unique Hit.atLeast_total
    (stablySorted_bySimilarity (hits.filter p))

theorem filter_diversify (file : String) (hits : List (Hit α)) :
    (diversify factor hits).filter (Hit.isOf file) =
      diversify factor (hits.filter (Hit.isOf file)) := by
  cases hfactor : Score.le Score.one factor with
  | true => rw [diversify, diversify, if_pos hfactor, if_pos hfactor]
  | false =>
    rw [diversify_eq hfactor, diversify_eq hfactor, filter_bySimilarity, filter_keep]

/-- A factor below one keeps some of the hits in order and sorts them stably; whatever the factor
is, what becomes of the hits of a file is a matter of these hits alone. -/
theorem diversify_stable_and_by_file (hits : List (Hit α)) :
    (Score.lt factor Score.one = true → (keep factor hits).Sublist hits ∧
      StablySorted Hit.atLeast (keep factor hits) (diversify factor hits)) ∧
    ∀ file, (diversify factor hits).filter (Hit.isOf file) =
        diversify factor (hits.filter (Hit.isOf file)) ∧
      ∀ others : List (Hit α), others.filter (Hit.isOf file) = hits.filter (Hit.isOf file) →
        (diversify factor others).filter (Hit.isOf file) =
          (diversify factor hits).filter (Hit.isOf file) := by
  constructor
  · intro hbelow
    have hfactor := TotalScore.not_le_of_lt factor Score.one hbelow
    refine ⟨keep_sublist factor hits, ?_⟩
    rw [diversify_eq hfactor]
    exact stablySorted_bySimilarity (keep factor hits)
  · intro file
    refine ⟨filter_diversify factor file hits, ?_⟩
    intro others hsame
    rw [filter_diversify, filter_diversify, hsame]

/-- Hits of two files, two of them at one similarity, and one that is no number. -/
def mixed : List (Hit Float) :=
  [⟨⟨1, 1, "fish", "/d/b.md", 1, 1, "text", "md", "h1", 4⟩, 0.5⟩,
    ⟨⟨2, 1, "bird", "/d/a.md", 1, 1, "text", "md", "h2", 4⟩, 0.5⟩,
    ⟨⟨3, 1, "frog", "/d/b.md", 2, 2, "text", "md", "h3", 4⟩, 0.9⟩,
    ⟨⟨4, 1, "newt", "/d/b.md", 3, 3, "text", "md", "h4", 4⟩, 0.0 / 0.0⟩]

theorem mixed_stable_and_by_file : Score.lt (0.5 : Float) Score.one = true ∧
    (keep 0.5 mixed).map (fun hit => hit.chunk.id) = [1, 2, 3] ∧
    StablySorted Hit.atLeast (keep 0.5 mixed) (diversify 0.5 mixed) ∧
    mixed.tail.filter (Hit.isOf "/d/a.md") = mixed.filter (Hit.isOf "/d/a.md") ∧
    (diversify 0.5 mixed.tail).filter (Hit.isOf "/d/a.md") =
      (diversify 0.5 mixed).filter (Hit.isOf "/d/a.md") := by
  obtain ⟨hsorted, hfile⟩ := diversify_stable_and_by_file (0.5 : Float) mixed
  have hbelow : Score.lt (0.5 : Float) Score.one = true := by decide +kernel
  have hkept : (keep 0.5 mixed).map (fun hit => hit.chunk.id) = [1, 2, 3] := by decide +kernel
  have hsame : mixed.tail.filter (Hit.isOf "/d/a.md") = mixed.filter (Hit.isOf "/d/a.md") := by rfl
  exact ⟨hbelow, hkept, (hsorted hbelow).2, hsame, (hfile "/d/a.md").2 mixed.tail hsame⟩

end Sorted

end Ranking

end CodeSearch
