import Mathlib.Data.List.Basic
import Mathlib.Data.List.Pairwise

/-!
# Stable sorts

A list is sorted stably if it is put in order and what is tied stays as it was. In a total preorder
a stable sort is determined by the list it is a sort of, and an item stands in it behind the items
before it and behind those tied with it that have come first.
-/

set_option autoImplicit false

namespace CodeSearch
variable {β : Type} {le : β → β → Bool} {items sorted : List β}

/-- Neither has to stand before the other. -/
def tied (le : β → β → Bool) (a b : β) : Bool := le a b && le b a

/-- The second has to stand before the first. -/
def below (le : β → β → Bool) (a b : β) : Bool := le b a && !le a b

/-- A list put in order so that what is tied stays in the order it had. -/
structure StablySorted (le : β → β → Bool) (items sorted : List β) : Prop where
  perm : sorted.Perm items
  inOrder : sorted.Pairwise fun a b => le a b = true
  stable : ∀ a, sorted.filter (tied le a) = items.filter (tied le a)

theorem tied_iff {a b : β} : tied le a b = true ↔ le a b = true ∧ le b a = true :=
  Bool.and_eq_true_iff

section Preorder
variable (htrans : ∀ a b c, le a b = true → le b c = true → le a c = true)
  (htotal : ∀ a b, (le a b || le b a) = true)
include htotal

theorem tied_self (a : β) : tied le a a = true := by
  have h := htotal a a
  rw [Bool.or_self] at h
  exact tied_iff.mpr ⟨h, h⟩

theorem mem_of_filter_eq {l₁ l₂ : List β} {a : β} (hmem : a ∈ l₁)
    (h : l₁.filter (tied le a) = l₂.filter (tied le a)) : a ∈ l₂ := by
  have hfilter : a ∈ l₁.filter (tied le a) := List.mem_filter.mpr ⟨hmem, tied_self htotal a⟩
  rw [h] at hfilter
  exact List.mem_of_mem_filter hfilter

theorem le_of_mem_cons {a b : β} {rest : List β}
    (h : (a :: rest).Pairwise fun a b => le a b = true) (hmem : b ∈ a :: rest) :
    le a b = true := by
  rcases List.mem_cons.mp hmem with rfl | hmem
  · exact (tied_iff.mp (tied_self htotal b)).1
  · exact (List.pairwise_cons.mp h).1 b hmem

/-- Lists in order are equal if what is tied stands in the same order in both. -/
theorem eq_of_inOrder {l₁ l₂ : List β} (h₁ : l₁.Pairwise fun a b => le a b = true)
    (h₂ : l₂.Pairwise fun a b => le a b = true)
    (hfilter : ∀ a, l₁.filter (tied le a) = l₂.filter (tied le a)) : l₁ = l₂ := by
  induction l₁ generalizing l₂ with
  | nil =>
    cases l₂ with
    | nil => rfl
    | cons b rest =>
      have hmem := mem_of_filter_eq htotal List.mem_cons_self (hfilter b).symm
      exact absurd hmem List.not_mem_nil
  | cons a rest₁ ih =>
    have ha : a ∈ l₂ := mem_of_filter_eq htotal List.mem_cons_self (hfilter a)
    cases l₂ with
    | nil => exact absurd ha List.not_mem_nil
    | cons b rest₂ =>
      -- The first of each is tied with the first of the other, so they are the same.
      have hb : b ∈ a :: rest₁ := mem_of_filter_eq htotal List.mem_cons_self (hfilter b).symm
      have htied : tied le a b = true :=
        tied_iff.mpr ⟨le_of_mem_cons htotal h₁ hb, le_of_mem_cons htotal h₂ ha⟩
      have hhead := hfilter a
      rw [List.filter_cons_of_pos (tied_self htotal a), List.filter_cons_of_pos htied] at hhead
      obtain ⟨rfl, -⟩ := List.cons.inj hhead
      congr 1
      apply ih h₁.tail h₂.tail
      intro c
      have hc := hfilter c
      rw [List.filter_cons, List.filter_cons] at hc
      split at hc
      · exact (List.cons.inj hc).2
      · exact hc

theorem StablySorted.unique {sorted' : List β} (h : StablySorted le items sorted)
    (h' : StablySorted le items sorted') : sorted = sorted' :=
  eq_of_inOrder htotal h.inOrder h'.inOrder fun a => (h.stable a).trans (h'.stable a).symm

include htrans

theorem stablySorted_mergeSort (items : List β) : StablySorted le items (items.mergeSort le) := by
  have hperm := List.mergeSort_perm items le
  refine ⟨hperm, List.pairwise_mergeSort htrans htotal items, ?_⟩
  intro a
  have hpairwise : (items.filter (tied le a)).Pairwise fun b c => le b c = true := by
    apply List.pairwise_of_forall_mem_list
    intro b hb c hc
    have hba := (tied_iff.mp (List.mem_filter.mp hb).2).2
    have hac := (tied_iff.mp (List.mem_filter.mp hc).2).1
    exact htrans b a c hba hac
  have hsublist : (items.filter (tied le a)).Sublist (items.mergeSort le) :=
    List.sublist_mergeSort htrans htotal hpairwise List.filter_sublist
  have hfilter := hsublist.filter (tied le a)
  simp only [List.filter_filter, Bool.and_self] at hfilter
  exact (hfilter.eq_of_length (hperm.filter _).length_eq.symm).symm

end Preorder

/-- The laws of the order are asked of the items alone. -/
theorem pairwise_mergeSort_of_mem {P : β → Prop} (hitems : ∀ a ∈ items, P a)
    (htrans : ∀ a b c, P a → P b → P c → le a b = true → le b c = true → le a c = true)
    (htotal : ∀ a b, P a → P b → (le a b || le b a) = true) :
    (items.mergeSort le).Pairwise fun a b => le a b = true := by
  have hown : (items.attachWith P hitems).map Subtype.val = items :=
    List.attachWith_map_subtype_val hitems
  have hsorted : ((items.attachWith P hitems).mergeSort fun a b => le a.1 b.1).Pairwise
      fun a b => le a.1 b.1 = true :=
    List.pairwise_mergeSort (fun a b c => htrans a.1 b.1 c.1 a.2 b.2 c.2)
      (fun a b => htotal a.1 b.1 a.2 b.2) _
  have hmap := List.map_mergeSort (r := fun a b : {a // P a} => le a.1 b.1) (s := le)
    (f := Subtype.val) (l := items.attachWith P hitems) fun _ _ _ _ => rfl
  rw [hown] at hmap
  rw [← hmap]
  exact List.pairwise_map.mpr hsorted

/-- Where nothing is tied with anything else, the order in which items come does not matter. -/
theorem StablySorted.eq_of_perm {items' sorted' : List β} (h : StablySorted le items sorted)
    (h' : StablySorted le items' sorted') (hperm : items'.Perm items)
    (hdistinct : ∀ a ∈ items, ∀ b ∈ items, le a b = true → le b a = true → a = b) :
    sorted' = sorted := by
  have hsorted : sorted'.Perm sorted := h'.perm.trans (hperm.trans h.perm.symm)
  refine List.Perm.eq_of_pairwise ?_ h'.inOrder h.inOrder hsorted
  intro a b ha hb hab hba
  have ha' : a ∈ items := hperm.mem_iff.mp (h'.perm.mem_iff.mp ha)
  exact hdistinct a ha' b (h.perm.mem_iff.mp hb) hab hba

section Places

/-- In a list in order, a property that holds of all before one of which it holds holds of a first
part and of no other item. -/
theorem eq_filter_append_filter {p : β → Bool}
    (hclosed : ∀ a b, le a b = true → p b = true → p a = true)
    (h : sorted.Pairwise fun a b => le a b = true) :
    sorted = sorted.filter p ++ sorted.filter fun a => !p a := by
  induction sorted with
  | nil => rfl
  | cons a rest ih =>
    obtain ⟨ha, hrest⟩ := List.pairwise_cons.mp h
    cases hpa : p a with
    | true =>
      rw [List.filter_cons_of_pos hpa, List.filter_cons, hpa, Bool.not_true,
        if_neg Bool.false_ne_true, List.cons_append, ← ih hrest]
    | false =>
      have hnone : ∀ b ∈ a :: rest, p b = false := by
        intro b hb
        rcases List.mem_cons.mp hb with rfl | hb
        · exact hpa
        · refine eq_false_of_ne_true fun hpb => ?_
          rw [hclosed a b (ha b hb) hpb] at hpa
          cases hpa
      have hfirst : (a :: rest).filter p = [] :=
        List.filter_eq_nil_iff.mpr fun b hb => ne_true_of_eq_false (hnone b hb)
      have hsecond : (a :: rest).filter (fun b => !p b) = a :: rest :=
        List.filter_eq_self.mpr fun b hb => by rw [hnone b hb, Bool.not_false]
      rw [hfirst, hsecond, List.nil_append]

variable (htrans : ∀ a b c, le a b = true → le b c = true → le a c = true)
include htrans

/-- First come the items that have to stand before one, then those tied with it. -/
theorem exists_eq_append_of_inOrder (h : sorted.Pairwise fun a b => le a b = true) (a : β) :
    ∃ rest, sorted = sorted.filter (below le a) ++ (sorted.filter (tied le a) ++ rest) := by
  have hbelow : ∀ b c, le b c = true → below le a c = true → below le a b = true := by
    intro b c hbc hca
    rw [below, Bool.and_eq_true, Bool.not_eq_true'] at hca ⊢
    refine ⟨htrans b c a hbc hca.1, eq_false_of_ne_true fun hab => ?_⟩
    rw [htrans a b c hab hbc] at hca
    cases hca.2
  have hfirst := eq_filter_append_filter hbelow h
  have hothers : (sorted.filter fun b => !below le a b).Pairwise fun b c => le b c = true :=
    h.sublist List.filter_sublist
  have hsecond := eq_filter_append_filter (p := fun b => le b a)
    (fun b c hbc hca => htrans b c a hbc hca) hothers
  have htied : (sorted.filter fun b => !below le a b).filter (fun b => le b a) =
      sorted.filter (tied le a) := by
    rw [List.filter_filter]
    apply List.filter_congr
    intro b _
    rw [below, tied]
    cases le b a <;> cases le a b <;> rfl
  rw [htied] at hsecond
  refine ⟨(sorted.filter fun b => !below le a b).filter fun b => !le b a, ?_⟩
  rw [← hsecond]
  exact hfirst

theorem StablySorted.getElem?_of_append (htotal : ∀ a b, (le a b || le b a) = true)
    (h : StablySorted le items sorted) {front back : List β} {a : β}
    (hitems : items = front ++ a :: back) :
    sorted[items.countP (below le a) + front.countP (tied le a)]? = some a := by
  obtain ⟨rest, hsplit⟩ := exists_eq_append_of_inOrder htrans h.inOrder a
  have htied : sorted.filter (tied le a) =
      front.filter (tied le a) ++ a :: back.filter (tied le a) := by
    rw [h.stable, hitems, List.filter_append, List.filter_cons_of_pos (tied_self htotal a)]
  rw [htied, List.append_assoc] at hsplit
  rw [← h.perm.countP_eq, List.countP_eq_length_filter, List.countP_eq_length_filter]
  generalize sorted.filter (below le a) = first at hsplit
  rw [hsplit, List.getElem?_append_right (Nat.le_add_right _ _), Nat.add_sub_cancel_left,
    List.getElem?_append_right (Nat.le_refl _), Nat.sub_self]
  rfl

end Places

theorem StablySorted.filter (h : StablySorted le items sorted) (p : β → Bool) :
    StablySorted le (items.filter p) (sorted.filter p) := by
  refine ⟨h.perm.filter p, h.inOrder.filter p, ?_⟩
  intro a
  rw [List.filter_comm, h.stable a, List.filter_comm]

end CodeSearch
