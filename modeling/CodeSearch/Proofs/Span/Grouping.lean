import CodeSearch.Span
import Mathlib.Data.List.Induction

/-!
# Merging consecutive spans

Both passes over spans, the bundling of nodes and the joining of small excerpts, cut a list into
consecutive groups and merge each group; a group of two or more is only made where its merge fits.
`Grouped` states this once. No span is lost in a merge, and order between spans is kept.
-/

set_option autoImplicit false

namespace CodeSearch.Span

/-- Merges a span with those that follow it, from left to right. -/
def mergeAll (s : Span) (run : List Span) : Span := run.foldl merge s

@[simp] theorem mergeAll_nil (s : Span) : s.mergeAll [] = s := rfl

@[simp] theorem mergeAll_concat (s : Span) (run : List Span) (t : Span) :
    s.mergeAll (run ++ [t]) = (s.mergeAll run).merge t := by simp [mergeAll]

theorem mergeAll_covers (s : Span) (run : List Span) :
    ∀ t ∈ s :: run, (s.mergeAll run).first ≤ t.first ∧ t.last ≤ (s.mergeAll run).last := by
  induction run using List.reverseRecOn with
  | nil => simp
  | append_singleton run u ih =>
    rw [mergeAll_concat, ← List.cons_append]
    intro t ht
    simp only [merge]
    rcases List.mem_append.mp ht with ht | ht
    · have := ih t ht
      omega
    · have heq : t = u := List.mem_singleton.mp ht
      subst heq
      omega

/-- A merge takes this number from one of its spans. -/
def Picked (key : Span → Nat) : Prop :=
  ∀ s run, ∃ t ∈ s :: run, key (s.mergeAll run) = key t

theorem picked_of_merge {key : Span → Nat}
    (h : ∀ s t : Span, key (s.merge t) = key s ∨ key (s.merge t) = key t) : Picked key := by
  intro s run
  induction run using List.reverseRecOn with
  | nil => simp
  | append_singleton run u ih =>
    obtain ⟨t, ht, heq⟩ := ih
    rw [mergeAll_concat, ← List.cons_append]
    rcases h (s.mergeAll run) u with hs | hu
    · exact ⟨t, List.mem_append_left _ ht, hs.trans heq⟩
    · exact ⟨u, by simp, hu⟩

theorem picked_first : Picked first :=
  picked_of_merge fun s t => by simp only [merge]; omega

theorem picked_last : Picked last :=
  picked_of_merge fun s t => by simp only [merge]; omega

/-- The second list merges consecutive groups of the first; a merge of two or more `fits`. -/
inductive Grouped (fits : Span → Prop) : List Span → List Span → Prop where
  | nil : Grouped fits [] []
  | cons {s : Span} {run rest merged : List Span} (hfits : run = [] ∨ fits (s.mergeAll run))
      (hrest : Grouped fits rest merged) :
      Grouped fits (s :: (run ++ rest)) (s.mergeAll run :: merged)

namespace Grouped
variable {fits : Span → Prop} {xs ys xs' ys' : List Span}

theorem append (h : Grouped fits xs ys) (h' : Grouped fits xs' ys') :
    Grouped fits (xs ++ xs') (ys ++ ys') := by
  induction h with
  | nil => exact h'
  | cons hfits _ ih =>
    simp only [List.cons_append, List.append_assoc]
    exact .cons hfits ih

theorem single {s : Span} {run : List Span} (hfits : run = [] ∨ fits (s.mergeAll run)) :
    Grouped fits (s :: run) [s.mergeAll run] := by
  simpa using Grouped.cons hfits .nil

theorem eq_nil_iff (h : Grouped fits xs ys) : ys = [] ↔ xs = [] := by
  cases h <;> simp

/-- A span of the result that does not fit was never merged. -/
theorem mem_or_fits (h : Grouped fits xs ys) {y : Span} (hy : y ∈ ys) : y ∈ xs ∨ fits y := by
  induction h with
  | nil => simp at hy
  | cons hfits _ ih =>
    rcases List.mem_cons.mp hy with rfl | hy
    · rcases hfits with rfl | hfits
      · exact Or.inl List.mem_cons_self
      · exact Or.inr hfits
    · rcases ih hy with hmem | hfit
      · exact Or.inl (List.mem_cons_of_mem _ (List.mem_append_right _ hmem))
      · exact Or.inr hfit

theorem exists_key (h : Grouped fits xs ys) {key : Span → Nat} (hkey : Picked key) {y : Span}
    (hy : y ∈ ys) : ∃ x ∈ xs, key y = key x := by
  induction h with
  | nil => simp at hy
  | @cons s run rest merged _ _ ih =>
    rw [← List.cons_append]
    rcases List.mem_cons.mp hy with rfl | hy
    · obtain ⟨x, hx, heq⟩ := hkey s run
      exact ⟨x, List.mem_append_left _ hx, heq⟩
    · obtain ⟨x, hx, heq⟩ := ih hy
      exact ⟨x, List.mem_append_right _ hx, heq⟩

theorem covered (h : Grouped fits xs ys) {x : Span} (hx : x ∈ xs) :
    ∃ y ∈ ys, y.first ≤ x.first ∧ x.last ≤ y.last := by
  induction h with
  | nil => simp at hx
  | @cons s run rest merged _ _ ih =>
    rw [← List.cons_append] at hx
    rcases List.mem_append.mp hx with hx | hx
    · exact ⟨_, List.mem_cons_self, mergeAll_covers s run x hx⟩
    · obtain ⟨y, hy, hin⟩ := ih hx
      exact ⟨y, List.mem_cons_of_mem _ hy, hin⟩

theorem covers (h : Grouped fits xs ys) {y : Span} (hy : y ∈ ys) :
    ∃ x ∈ xs, y.first ≤ x.first ∧ x.last ≤ y.last := by
  induction h with
  | nil => simp at hy
  | @cons s run rest merged _ _ ih =>
    rcases List.mem_cons.mp hy with rfl | hy
    · exact ⟨s, List.mem_cons_self, mergeAll_covers s run s List.mem_cons_self⟩
    · obtain ⟨x, hx, hin⟩ := ih hy
      exact ⟨x, List.mem_cons_of_mem _ (List.mem_append_right _ hx), hin⟩

theorem first_le_last (h : Grouped fits xs ys) (hxs : ∀ x ∈ xs, x.first ≤ x.last) :
    ∀ y ∈ ys, y.first ≤ y.last := by
  intro y hy
  obtain ⟨x, hx, hfirst, hlast⟩ := h.covers hy
  exact Nat.le_trans hfirst (Nat.le_trans (hxs x hx) hlast)

/-- An order between neighbouring rows of spans outlasts merging. -/
theorem pairwise (h : Grouped fits xs ys) {key key' : Span → Nat} (hkey : Picked key)
    (hkey' : Picked key') {r : Nat → Nat → Prop}
    (hxs : xs.Pairwise fun a b => r (key a) (key' b)) :
    ys.Pairwise fun a b => r (key a) (key' b) := by
  induction h with
  | nil => exact .nil
  | @cons s run rest merged _ hrest ih =>
    rw [← List.cons_append, List.pairwise_append] at hxs
    refine List.pairwise_cons.mpr ⟨?_, ih hxs.2.1⟩
    intro y hy
    obtain ⟨a, ha, heq⟩ := hkey s run
    obtain ⟨b, hb, heq'⟩ := hrest.exists_key hkey' hy
    rw [heq, heq']
    exact hxs.2.2 a ha b hb

end Grouped

end CodeSearch.Span
