import CodeSearch.Span
import Mathlib.Data.List.Basic

/-!
# Merging in any grouping

However spans in a row are put into brackets, merging them gives one span: it begins with the least
of the first rows, ends with the greatest of the last rows, and has the kind of the last span that
is no delimiter, or of the first one if all are delimiters.
-/

set_option autoImplicit false

namespace CodeSearch.Span

/-- The kind of the last span that is no delimiter, or of the first one if all are. -/
def kindOf? (spans : List Span) : Option String :=
  ((spans.filter fun s => !isDelimiter s.kind).getLast?.or spans.head?).map kind

/-- What the merge of the spans in a list has to be. -/
structure MergeOf (spans : List Span) (s : Span) : Prop where
  first : (spans.map Span.first).min? = some s.first
  last : (spans.map Span.last).max? = some s.last
  kind : kindOf? spans = some s.kind

section Kinds
variable {xs ys : List Span} {k l : String}

/-- The kind of a list is a delimiter only if all its spans are. -/
theorem isDelimiter_kindOf?_iff (h : kindOf? xs = some k) :
    isDelimiter k = true ↔ ∀ s ∈ xs, isDelimiter s.kind = true := by
  unfold kindOf? at h
  cases hlast : (xs.filter fun s => !isDelimiter s.kind).getLast? with
  | some s =>
    have hmem := List.mem_filter.mp (List.mem_of_getLast? hlast)
    rw [hlast, Option.some_or, Option.map_some, Option.some_inj] at h
    have hkind : isDelimiter k = false := by simpa [h] using hmem.2
    constructor
    · intro hdelimiter
      rw [hkind] at hdelimiter
      cases hdelimiter
    · intro hall
      rw [← h, hall s hmem.1]
  | none =>
    have hall : ∀ s ∈ xs, isDelimiter s.kind = true := by
      simpa [List.filter_eq_nil_iff] using List.getLast?_eq_none_iff.mp hlast
    rw [hlast, Option.none_or, Option.map_eq_some_iff] at h
    obtain ⟨s, hs, rfl⟩ := h
    exact iff_of_true (hall s (List.mem_of_head? hs)) hall

/-- The list behind decides unless it has nothing but delimiters. -/
theorem kindOf?_append (hx : kindOf? xs = some k) (hy : kindOf? ys = some l) :
    kindOf? (xs ++ ys) = some (if isDelimiter l then k else l) := by
  have hdelimiters := isDelimiter_kindOf?_iff hy
  unfold kindOf? at hx hy ⊢
  rw [List.filter_append, List.getLast?_append]
  cases hlast : (ys.filter fun s => !isDelimiter s.kind).getLast? with
  | some s =>
    have hmem := List.mem_filter.mp (List.mem_of_getLast? hlast)
    rw [hlast, Option.some_or, Option.map_some, Option.some_inj] at hy
    have hkind : isDelimiter l = false := by simpa [hy] using hmem.2
    simp [hkind, hy]
  | none =>
    have hall : ∀ s ∈ ys, isDelimiter s.kind = true := by
      simpa [List.filter_eq_nil_iff] using List.getLast?_eq_none_iff.mp hlast
    have hhead : xs ≠ [] := by
      rintro rfl
      cases hx
    rw [if_pos (hdelimiters.mpr hall), Option.none_or, List.head?_append_of_ne_nil xs hhead, hx]

end Kinds

namespace MergeOf
variable {xs ys : List Span} {s t : Span}

theorem single (s : Span) : MergeOf [s] s where
  first := rfl
  last := rfl
  kind := by cases h : isDelimiter s.kind <;> simp [kindOf?, h]

theorem merge (hs : MergeOf xs s) (ht : MergeOf ys t) : MergeOf (xs ++ ys) (s.merge t) where
  first := by
    obtain ⟨hsmem, hsle⟩ := List.min?_eq_some_iff.mp hs.first
    obtain ⟨htmem, htle⟩ := List.min?_eq_some_iff.mp ht.first
    rw [List.map_append, List.min?_eq_some_iff]
    constructor
    · rcases Nat.le_total s.first t.first with hle | hle
      · exact List.mem_append_left _ (by rwa [Span.merge, Nat.min_eq_left hle])
      · exact List.mem_append_right _ (by rwa [Span.merge, Nat.min_eq_right hle])
    · intro row hrow
      rcases List.mem_append.mp hrow with hrow | hrow
      · exact Nat.le_trans (Nat.min_le_left _ _) (hsle row hrow)
      · exact Nat.le_trans (Nat.min_le_right _ _) (htle row hrow)
  last := by
    obtain ⟨hsmem, hsle⟩ := List.max?_eq_some_iff.mp hs.last
    obtain ⟨htmem, htle⟩ := List.max?_eq_some_iff.mp ht.last
    rw [List.map_append, List.max?_eq_some_iff]
    constructor
    · rcases Nat.le_total s.last t.last with hle | hle
      · exact List.mem_append_right _ (by rwa [Span.merge, Nat.max_eq_right hle])
      · exact List.mem_append_left _ (by rwa [Span.merge, Nat.max_eq_left hle])
    · intro row hrow
      rcases List.mem_append.mp hrow with hrow | hrow
      · exact Nat.le_trans (hsle row hrow) (Nat.le_max_left _ _)
      · exact Nat.le_trans (htle row hrow) (Nat.le_max_right _ _)
  kind := kindOf?_append hs.kind ht.kind

theorem unique (hs : MergeOf xs s) (ht : MergeOf xs t) : s = t := by
  have hfirst := Option.some.inj (hs.first.symm.trans ht.first)
  have hlast := Option.some.inj (hs.last.symm.trans ht.last)
  have hkind := Option.some.inj (hs.kind.symm.trans ht.kind)
  cases s
  cases t
  simp_all

/-- A merge has a delimiter for its kind only if all that was merged has. -/
theorem isDelimiter_iff (h : MergeOf xs s) :
    isDelimiter s.kind = true ↔ ∀ u ∈ xs, isDelimiter u.kind = true :=
  isDelimiter_kindOf?_iff h.kind

end MergeOf

/-- Spans in a row with brackets around what is merged first. -/
inductive Bracketing where
  | single (s : Span)
  | pair (left right : Bracketing)

namespace Bracketing

def spans : Bracketing → List Span
  | single s => [s]
  | pair left right => left.spans ++ right.spans

def merged : Bracketing → Span
  | single s => s
  | pair left right => left.merged.merge right.merged

theorem mergeOf_merged (b : Bracketing) : MergeOf b.spans b.merged := by
  induction b with
  | single s => exact .single s
  | pair left right hleft hright => exact hleft.merge hright

example :
    (pair (single ⟨0, 0, "\x7b"⟩) (pair (single ⟨1, 3, "body"⟩) (single ⟨4, 4, "\x7d"⟩))).merged =
      ⟨0, 4, "body"⟩ := by decide

theorem merged_eq_of_spans_eq {a b : Bracketing} (h : a.spans = b.spans) : a.merged = b.merged :=
  a.mergeOf_merged.unique (h ▸ b.mergeOf_merged)

end Bracketing

end CodeSearch.Span
