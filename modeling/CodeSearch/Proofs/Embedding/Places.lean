import CodeSearch.Embedding.Endpoint
import CodeSearch.Proofs.Sorting
import Mathlib.Data.List.Nodup

/-!
# Answers in the order of their places

The vectors of an answer are put in the order of the places that its entries name, stably, whatever
order the entries come in. An entry that names no place counts as one of place zero. The answer is
refused if it has another number of entries than asked for or an entry of another width.
-/

set_option autoImplicit false

namespace CodeSearch

namespace ResponseEntry

def notBehind (a b : ResponseEntry) : Bool := decide (a.index ≤ b.index)

theorem notBehind_iff {a b : ResponseEntry} : a.notBehind b = true ↔ a.index ≤ b.index :=
  decide_eq_true_iff

theorem notBehind_trans (a b c : ResponseEntry) (hab : a.notBehind b = true)
    (hbc : b.notBehind c = true) : a.notBehind c = true := by
  rw [notBehind_iff] at hab hbc ⊢
  exact Nat.le_trans hab hbc

theorem notBehind_total (a b : ResponseEntry) : (a.notBehind b || b.notBehind a) = true := by
  rw [Bool.or_eq_true, notBehind_iff, notBehind_iff]
  exact Nat.le_total a.index b.index

theorem tied_eq (a : ResponseEntry) : tied notBehind a = fun b => b.index == a.index := by
  funext b
  rw [Bool.eq_iff_iff, tied_iff, notBehind_iff, notBehind_iff, beq_iff_eq]
  omega

theorem below_eq (a : ResponseEntry) :
    below notBehind a = fun b => decide (b.index < a.index) := by
  funext b
  rw [Bool.eq_iff_iff, below, Bool.and_eq_true, Bool.not_eq_true', notBehind_iff,
    ← Bool.not_eq_true, notBehind_iff, decide_eq_true_iff]
  omega

end ResponseEntry

namespace Endpoint
open ResponseEntry
variable {expected dimensions : Nat} {entries sorted : List ResponseEntry} {vectors : List Vec}

/-- The entries in the order in which their vectors are given out. -/
def inPlaces (entries : List ResponseEntry) : List ResponseEntry := entries.mergeSort notBehind

theorem stablySorted_inPlaces (entries : List ResponseEntry) :
    StablySorted notBehind entries (inPlaces entries) :=
  stablySorted_mergeSort notBehind_trans notBehind_total entries

section Widths

theorem checkWidths_ok_iff :
    checkWidths dimensions entries = .ok vectors ↔
      (∀ e ∈ entries, e.embedding.length = dimensions) ∧
        vectors = entries.map ResponseEntry.embedding := by
  induction entries generalizing vectors with
  | nil =>
    rw [checkWidths, Except.ok.injEq]
    exact ⟨fun h => ⟨List.forall_mem_nil _, h.symm⟩, fun h => h.2.symm⟩
  | cons e rest ih =>
    rw [checkWidths, List.forall_mem_cons]
    split
    · rename_i hwidth
      cases hrest : checkWidths dimensions rest with
      | ok others =>
        obtain ⟨hwidths, rfl⟩ := ih.mp hrest
        rw [Except.ok.injEq]
        exact ⟨fun h => ⟨⟨hwidth, hwidths⟩, h.symm⟩, fun h => h.2.symm⟩
      | error f =>
        constructor
        · exact fun h => nomatch h
        · rintro ⟨⟨-, hwidths⟩, -⟩
          rw [ih.mpr ⟨hwidths, rfl⟩] at hrest
          cases hrest
    · rename_i hwidth
      constructor
      · exact fun h => nomatch h
      · rintro ⟨⟨hsame, -⟩, -⟩
        exact absurd hsame hwidth

theorem vectorsOf_ok_iff :
    vectorsOf expected dimensions entries = .ok vectors ↔
      entries.length = expected ∧ (∀ e ∈ entries, e.embedding.length = dimensions) ∧
        vectors = (inPlaces entries).map ResponseEntry.embedding := by
  have hmem : ∀ e, e ∈ inPlaces entries ↔ e ∈ entries :=
    fun e => (stablySorted_inPlaces entries).perm.mem_iff
  unfold vectorsOf
  split
  · rename_i hcount
    change checkWidths dimensions (inPlaces entries) = .ok vectors ↔ _
    rw [checkWidths_ok_iff]
    simp only [hmem, hcount, true_and]
  · rename_i hcount
    constructor
    · exact fun h => nomatch h
    · exact fun h => absurd h.1 hcount

end Widths

section Orders

theorem inPlaces_of_perm {others : List ResponseEntry} (hperm : others.Perm entries)
    (hdistinct : (entries.map ResponseEntry.index).Nodup) : inPlaces others = inPlaces entries := by
  apply (stablySorted_inPlaces entries).eq_of_perm (stablySorted_inPlaces others) hperm
  intro a ha b hb hab hba
  rw [notBehind_iff] at hab hba
  exact List.inj_on_of_nodup_map hdistinct ha hb (Nat.le_antisymm hab hba)

theorem getElem?_inPlaces {front back : List ResponseEntry} {e : ResponseEntry}
    (h : entries = front ++ e :: back) :
    (inPlaces entries)[entries.countP (fun d => decide (d.index < e.index)) +
      front.countP (fun d => d.index == e.index)]? = some e := by
  have hplace :=
    (stablySorted_inPlaces entries).getElem?_of_append notBehind_trans notBehind_total h
  rwa [below_eq, tied_eq] at hplace

theorem countP_index_of_nodup (hdistinct : (entries.map ResponseEntry.index).Nodup)
    {front back : List ResponseEntry} {e : ResponseEntry} (h : entries = front ++ e :: back) :
    front.countP (fun d => d.index == e.index) = 0 := by
  rw [h, List.map_append, List.map_cons, List.nodup_append] at hdistinct
  apply List.countP_eq_zero.mpr
  intro d hd hsame
  have hne := hdistinct.2.2 d.index (List.mem_map_of_mem hd) e.index List.mem_cons_self
  exact hne (beq_iff_eq.mp hsame)

end Orders

theorem index_of_unplaced {fields : List (String × Json)} {e : ResponseEntry}
    (h : entry? (.object fields) = some e) (hnone : ∀ f ∈ fields, f.1 ≠ "index") : e.index = 0 := by
  have hfield : (Json.object fields).field? "index" = none := by
    have hfind : fields.find? (fun f => f.1 == "index") = none := by
      apply List.find?_eq_none.mpr
      intro f hf hname
      exact hnone f hf (beq_iff_eq.mp hname)
    rw [Json.field?, hfind, Option.map_none]
  unfold entry? at h
  obtain ⟨values, hvalues, h⟩ := Option.bind_eq_some_iff.mp h
  rw [Json.record?] at hvalues
  split at hvalues
  · cases hvalues
  · obtain rfl := Option.some.inj hvalues
    simp only [List.map_cons, List.map_nil, hfield, Json.orDefault] at h
    obtain ⟨place, hplace, h⟩ := Option.bind_eq_some_iff.mp h
    obtain rfl := Option.some.inj hplace
    obtain ⟨embedding, -, h⟩ := Option.bind_eq_some_iff.mp h
    rw [← Option.some.inj h]

/-- The vectors of an answer are given out in the order of the places of its entries, each entry
once. If no two places are the same then the order of the entries does not matter. -/
theorem vectors_in_places (expected dimensions : Nat) (entries : List ResponseEntry) :
    ((∃ vectors, vectorsOf expected dimensions entries = .ok vectors) ↔
      entries.length = expected ∧ ∀ e ∈ entries, e.embedding.length = dimensions) ∧
    (∀ vectors, vectorsOf expected dimensions entries = .ok vectors →
      (∃ sorted, StablySorted notBehind entries sorted ∧
        vectors = sorted.map ResponseEntry.embedding) ∧
      (∀ front e back, entries = front ++ e :: back →
        vectors[entries.countP (fun d => decide (d.index < e.index)) +
          front.countP (fun d => d.index == e.index)]? = some e.embedding) ∧
      ((entries.map ResponseEntry.index).Nodup → ∀ e ∈ entries,
        vectors[entries.countP fun d => decide (d.index < e.index)]? = some e.embedding)) ∧
    ((entries.map ResponseEntry.index).Nodup → ∀ others, others.Perm entries →
      vectorsOf expected dimensions others = vectorsOf expected dimensions entries) ∧
    (∀ fields e, entry? (.object fields) = some e → (∀ f ∈ fields, f.1 ≠ "index") →
      e.index = 0) := by
  refine ⟨?_, ?_, ?_, fun fields e => index_of_unplaced⟩
  · simp only [vectorsOf_ok_iff, exists_and_left, exists_eq, and_true]
  · intro vectors hvectors
    obtain ⟨-, -, rfl⟩ := vectorsOf_ok_iff.mp hvectors
    have hplace : ∀ front e back, entries = front ++ e :: back →
        ((inPlaces entries).map ResponseEntry.embedding)[
          entries.countP (fun d => decide (d.index < e.index)) +
            front.countP (fun d => d.index == e.index)]? = some e.embedding := by
      intro front e back hentries
      rw [List.getElem?_map, getElem?_inPlaces hentries, Option.map_some]
    refine ⟨⟨inPlaces entries, stablySorted_inPlaces entries, rfl⟩, hplace, ?_⟩
    intro hdistinct e he
    obtain ⟨front, back, hentries⟩ := List.append_of_mem he
    have hfront := hplace front e back hentries
    rwa [countP_index_of_nodup hdistinct hentries, Nat.add_zero] at hfront
  · intro hdistinct others hperm
    have hsame := inPlaces_of_perm hperm hdistinct
    unfold inPlaces at hsame
    unfold vectorsOf
    rw [hperm.length_eq]
    change (if _ then checkWidths dimensions (others.mergeSort notBehind) else _) =
      if _ then checkWidths dimensions (entries.mergeSort notBehind) else _
    rw [hsame]

section Swapped

def late : ResponseEntry := ⟨7, [0, 1]⟩

def early : ResponseEntry := ⟨3, [1, 0]⟩

/-- An entry as the service writes it if it names no place. -/
def unplaced : List (String × Json) := [("embedding", .array [.integer 5])]

theorem swapped_put_back :
    ([late, early].map ResponseEntry.index).Nodup ∧ [early, late].Perm [late, early] ∧
    (∃ vectors, vectorsOf 2 2 [late, early] = .ok vectors ∧
      vectors[0]? = some early.embedding ∧ vectors[1]? = some late.embedding) ∧
    vectorsOf 2 2 [early, late] = vectorsOf 2 2 [late, early] ∧
    (∀ f ∈ unplaced, f.1 ≠ "index") ∧
    ∃ e, entry? (.object unplaced) = some e ∧ e.embedding.length = 1 ∧ e.index = 0 := by
  obtain ⟨hok, hvectors, hreordered, hunplaced⟩ := vectors_in_places 2 2 [late, early]
  have hdistinct : ([late, early].map ResponseEntry.index).Nodup := by decide
  have hperm : [early, late].Perm [late, early] := List.Perm.swap late early []
  have hwidths : ∀ e ∈ [late, early], e.embedding.length = 2 :=
    List.forall_mem_cons.mpr ⟨rfl, List.forall_mem_singleton.mpr rfl⟩
  have hnone : ∀ f ∈ unplaced, f.1 ≠ "index" := List.forall_mem_singleton.mpr (by decide)
  refine ⟨hdistinct, hperm, ?_, hreordered hdistinct _ hperm, hnone, ?_⟩
  · obtain ⟨vectors, h⟩ := hok.mpr ⟨rfl, hwidths⟩
    obtain ⟨-, hfront, hplace⟩ := hvectors vectors h
    exact ⟨vectors, h, hplace hdistinct early (by simp), hfront [] late [early] rfl⟩
  · have hread : entry? (.object unplaced) = some ⟨0, [(UInt64.ofNat 5).toFloat32]⟩ := rfl
    exact ⟨_, hread, rfl, hunplaced unplaced _ hread hnone⟩

end Swapped

end Endpoint

end CodeSearch
