import CodeSearch.Chunking.Outline
import CodeSearch.Proofs.Span.Grouping
import CodeSearch.Proofs.Span.IndexedLength

/-!
# The parts that bundling works on

A node over the size limit is replaced by its children as long as it has any. What remains are the
parts of a tree: nodes that are small enough or have no children, in the order of the source.
Bundling merges consecutive groups of parts, and each merge has been measured.
-/

set_option autoImplicit false

namespace CodeSearch

@[simp] theorem Source.ofText_text (text : List Char) : (Source.ofText text).text = text := rfl

namespace ParseTree

mutual

/-- All nodes of a tree, each before its children. -/
def nodes : ParseTree → List ParseTree
  | t@(.node _ _ _ _ _ children) => t :: nodesAll children

def nodesAll : List ParseTree → List ParseTree
  | [] => []
  | t :: rest => nodes t ++ nodesAll rest

end

def leaves (t : ParseTree) : List ParseTree := t.nodes.filter fun n => n.children.isEmpty

mutual

/-- What the children of a node are cut into. -/
def parts (source : List Char) (maxSize : Nat) : ParseTree → List ParseTree
  | .node _ _ _ _ _ children => partsAll source maxSize children

def partsAll (source : List Char) (maxSize : Nat) : List ParseTree → List ParseTree
  | [] => []
  | child :: rest =>
    (if (child.text source).length ≤ maxSize ∨ child.children = [] then [child]
      else parts source maxSize child) ++ partsAll source maxSize rest

end

variable {source : List Char} {maxSize : Nat}

theorem nodes_eq (t : ParseTree) : t.nodes = t :: nodesAll t.children := by
  cases t
  simp [nodes, children]

theorem parts_eq (t : ParseTree) : t.parts source maxSize = partsAll source maxSize t.children := by
  cases t
  simp [parts, children]

theorem self_mem_nodes (t : ParseTree) : t ∈ t.nodes := by simp [nodes_eq]

theorem mem_nodesAll {n : ParseTree} {ts : List ParseTree} :
    n ∈ nodesAll ts ↔ ∃ t ∈ ts, n ∈ t.nodes := by
  induction ts with
  | nil => simp [nodesAll]
  | cons t ts ih => simp [nodesAll, ih]

theorem mem_nodes {n t : ParseTree} : n ∈ t.nodes ↔ n = t ∨ ∃ c ∈ t.children, n ∈ c.nodes := by
  rw [nodes_eq, List.mem_cons, mem_nodesAll]

theorem span_first_le_last (t : ParseTree) : t.span.first ≤ t.span.last :=
  Nat.le_max_right _ _

/-- Induction over a tree with the claim for each child at hand. -/
theorem induct {motive : ParseTree → Prop}
    (step : ∀ t : ParseTree, (∀ c ∈ t.children, motive c) → motive t) : ∀ t, motive t
  | .node _ _ _ _ _ cs => step _ fun c (_ : c ∈ cs) => induct step c

theorem nodes_subset {n t : ParseTree} (h : n ∈ t.nodes) : n.nodes ⊆ t.nodes := by
  induction t using induct with
  | step t ih =>
    rcases mem_nodes.mp h with rfl | ⟨c, hc, hn⟩
    · exact fun _ hm => hm
    · exact fun m hm => mem_nodes.mpr (Or.inr ⟨c, hc, ih c hc hn hm⟩)

theorem mem_partsAll {u : ParseTree} {ts : List ParseTree} :
    u ∈ partsAll source maxSize ts ↔ ∃ c ∈ ts,
      if (c.text source).length ≤ maxSize ∨ c.children = [] then u = c
      else u ∈ c.parts source maxSize := by
  induction ts with
  | nil => simp [partsAll]
  | cons c ts ih =>
    rw [partsAll, List.mem_append, ih]
    split <;> rename_i hpart <;> simp [hpart]

theorem small_or_leaf_of_mem_parts {u t : ParseTree} (h : u ∈ t.parts source maxSize) :
    (u.text source).length ≤ maxSize ∨ u.children = [] := by
  induction t using induct with
  | step t ih =>
    rw [parts_eq, mem_partsAll] at h
    obtain ⟨c, hc, hu⟩ := h
    split at hu
    · rename_i hsmall
      exact hu ▸ hsmall
    · exact ih c hc hu

theorem partsAll_sublist {ts : List ParseTree}
    (h : ∀ c ∈ ts, (c.parts source maxSize).Sublist (nodesAll c.children)) :
    (partsAll source maxSize ts).Sublist (nodesAll ts) := by
  induction ts with
  | nil => simp [partsAll, nodesAll]
  | cons c ts ih =>
    rw [partsAll, nodesAll, nodes_eq]
    apply List.Sublist.append _ (ih fun c' hc' => h c' (List.mem_cons_of_mem c hc'))
    split
    · exact List.singleton_sublist.mpr List.mem_cons_self
    · exact (h c List.mem_cons_self).cons c

theorem parts_sublist_nodesAll (t : ParseTree) :
    (t.parts source maxSize).Sublist (nodesAll t.children) := by
  induction t using induct with
  | step t ih =>
    rw [parts_eq]
    exact partsAll_sublist ih

theorem parts_sublist_nodes (t : ParseTree) : (t.parts source maxSize).Sublist t.nodes := by
  rw [nodes_eq]
  exact (parts_sublist_nodesAll t).cons t

theorem exists_part_of_mem_leaves {t leaf : ParseTree} (h : leaf ∈ t.leaves)
    (hne : t.children ≠ []) : ∃ u ∈ t.parts source maxSize, leaf ∈ u.nodes := by
  induction t using induct with
  | step t ih =>
    have ⟨hmem, hleaf⟩ := List.mem_filter.mp h
    rcases mem_nodes.mp hmem with rfl | ⟨c, hc, hn⟩
    · exact absurd (List.isEmpty_iff.mp hleaf) hne
    · rw [parts_eq]
      by_cases hpart : (c.text source).length ≤ maxSize ∨ c.children = []
      · exact ⟨c, mem_partsAll.mpr ⟨c, hc, by rw [if_pos hpart]⟩, hn⟩
      · have ⟨u, hu, hin⟩ := ih c hc (List.mem_filter.mpr ⟨hn, hleaf⟩)
          (fun hnil => hpart (Or.inr hnil))
        exact ⟨u, mem_partsAll.mpr ⟨c, hc, by rwa [if_neg hpart]⟩, hin⟩

theorem parts_eq_nil_iff (t : ParseTree) : t.parts source maxSize = [] ↔ t.children = [] := by
  induction t using induct with
  | step t ih =>
    rw [parts_eq]
    constructor
    · intro hnil
      apply List.eq_nil_iff_forall_not_mem.mpr
      intro c hc
      by_cases hpart : (c.text source).length ≤ maxSize ∨ c.children = []
      · have hmem : c ∈ partsAll source maxSize t.children :=
          mem_partsAll.mpr ⟨c, hc, by rw [if_pos hpart]⟩
        simp [hnil] at hmem
      · obtain ⟨u, hu⟩ := List.exists_mem_of_ne_nil _
          (mt (ih c hc).mp fun hleaf => hpart (Or.inr hleaf))
        have hmem : u ∈ partsAll source maxSize t.children :=
          mem_partsAll.mpr ⟨c, hc, by rwa [if_neg hpart]⟩
        simp [hnil] at hmem
    · intro hleaf
      rw [hleaf, partsAll]

end ParseTree

namespace Outline

/-- Whether what a text has on the rows of a span, trimmed, is within a limit. -/
def Fits (text : List Char) (maxSize : Nat) (s : Span) : Prop :=
  (s.extract (Source.ofText text).lines).text.length ≤ maxSize

/-- The length that is compared with the limit is that of the extracted text. -/
theorem extractedLength_le_iff (text : List Char) (maxSize : Nat) {s : Span}
    (h : s.first ≤ s.last) :
    (Source.ofText text).index.extractedLength s ≤ maxSize ↔ Fits text maxSize s := by
  rw [Fits, ← LineIndex.extractedLength_eq _ h]
  rfl

section Bundle
variable {text : List Char} {maxSize : Nat}

/-- A child over the limit stands for itself only if it has no children. -/
theorem nested_grouped {child : ParseTree} (hlarge : maxSize < (child.text text).length)
    (h : Span.Grouped (Fits text maxSize)
      ((child.parts text maxSize).map ParseTree.span) (bundle (.ofText text) maxSize child)) :
    Span.Grouped (Fits text maxSize)
      ((if (child.text text).length ≤ maxSize ∨ child.children = [] then [child]
        else child.parts text maxSize).map ParseTree.span)
      (if (bundle (.ofText text) maxSize child).isEmpty then [child.span]
        else bundle (.ofText text) maxSize child) := by
  have hnil : bundle (.ofText text) maxSize child = [] ↔ child.children = [] := by
    rw [h.eq_nil_iff, List.map_eq_nil_iff, ParseTree.parts_eq_nil_iff]
  by_cases hleaf : child.children = []
  · rw [if_pos (Or.inr hleaf), hnil.mpr hleaf]
    exact .single (Or.inl rfl)
  · rw [if_neg (by simpa [hleaf] using hlarge), if_neg (by simpa [hnil] using hleaf)]
    exact h

theorem bundleAll_grouped {ts : List ParseTree}
    (hts : ∀ c ∈ ts, Span.Grouped (Fits text maxSize)
      ((c.parts text maxSize).map ParseTree.span) (bundle (.ofText text) maxSize c)) :
    Span.Grouped (Fits text maxSize)
        ((ParseTree.partsAll text maxSize ts).map ParseTree.span)
        (bundleAll (.ofText text) maxSize none ts) ∧
      ∀ s run, s.first ≤ s.last →
        (run = [] ∨ Fits text maxSize (s.mergeAll run)) →
        Span.Grouped (Fits text maxSize)
          (s :: (run ++ (ParseTree.partsAll text maxSize ts).map ParseTree.span))
          (bundleAll (.ofText text) maxSize (some (s.mergeAll run)) ts) := by
  -- The span at hand is the merge of `s` and `run`; the two parts of the claim need each other.
  induction ts with
  | nil =>
    refine ⟨by simpa [ParseTree.partsAll, bundleAll] using Span.Grouped.nil, ?_⟩
    intro s run _ hfits
    simpa [ParseTree.partsAll, bundleAll] using Span.Grouped.single hfits
  | cons child rest ih =>
    obtain ⟨hnone, hsome⟩ := ih fun c hc => hts c (List.mem_cons_of_mem child hc)
    rw [ParseTree.partsAll, List.map_append]
    by_cases hlarge : maxSize < (child.text text).length
    · have hnested := (nested_grouped hlarge (hts child List.mem_cons_self)).append hnone
      constructor
      · rw [bundleAll, Source.ofText_text, if_pos hlarge]
        exact hnested
      · intro s run _ hfits
        rw [bundleAll, Source.ofText_text, if_pos hlarge]
        exact .cons hfits hnested
    · rw [if_pos (Or.inl (Nat.le_of_not_lt hlarge))]
      have hchild := hsome child.span [] child.span_first_le_last (Or.inl rfl)
      constructor
      · rw [bundleAll, Source.ofText_text, if_neg hlarge]
        exact hchild
      · intro s run hs hfits
        have hcovers := Span.mergeAll_covers s (run ++ [child.span]) s List.mem_cons_self
        have hmeasure := extractedLength_le_iff text maxSize
          (s := s.mergeAll (run ++ [child.span])) (by omega)
        rw [Span.mergeAll_concat] at hmeasure
        rw [bundleAll, Source.ofText_text, if_neg hlarge]
        simp only
        split
        · exact .cons hfits hchild
        · rename_i hmerged
          have hjoined := hsome s (run ++ [child.span]) hs
            (Or.inr (by rw [Span.mergeAll_concat]; exact hmeasure.mp (Nat.le_of_not_lt hmerged)))
          simpa using hjoined

/-- Bundling merges consecutive groups of the parts of a node. -/
theorem bundle_grouped (text : List Char) (maxSize : Nat) (t : ParseTree) :
    Span.Grouped (Fits text maxSize)
      ((t.parts text maxSize).map ParseTree.span) (bundle (.ofText text) maxSize t) := by
  induction t using ParseTree.induct with
  | step t ih =>
    cases t with
    | node _ _ _ _ _ children =>
      rw [ParseTree.parts, bundle]
      exact (bundleAll_grouped ih).1

theorem bundle_eq_nil_iff (text : List Char) (maxSize : Nat) (t : ParseTree) :
    bundle (.ofText text) maxSize t = [] ↔ t.children = [] := by
  rw [(bundle_grouped text maxSize t).eq_nil_iff, List.map_eq_nil_iff, ParseTree.parts_eq_nil_iff]

end Bundle

end Outline

end CodeSearch
