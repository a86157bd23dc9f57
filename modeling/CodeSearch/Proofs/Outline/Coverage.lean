import CodeSearch.Proofs.Outline.Excerpts

/-!
# Coverage

In a tree whose rows are in the order of the source, no row of a leaf is lost on the way to the
excerpts unless it is blank. Cutting back only takes rows that are covered already, since spans come
in the order of their first rows; trimming only takes blank ones. As excerpts do not overlap, each
row with ink is in exactly one.
-/

set_option autoImplicit false

namespace CodeSearch

namespace ParseTree

/-- Rows in the order of the source: nodes start no earlier than those before them and stay within
their parents. -/
structure InOrder (t : ParseTree) : Prop where
  starts : t.nodes.Pairwise fun a b => a.firstRow ≤ b.firstRow
  nested : ∀ n ∈ t.nodes, ∀ c ∈ n.children,
    n.span.first ≤ c.span.first ∧ c.span.last ≤ n.span.last

theorem span_within {t n : ParseTree}
    (nested : ∀ n ∈ t.nodes, ∀ c ∈ n.children,
      n.span.first ≤ c.span.first ∧ c.span.last ≤ n.span.last)
    (h : n ∈ t.nodes) : t.span.first ≤ n.span.first ∧ n.span.last ≤ t.span.last := by
  induction t using induct with
  | step t ih =>
    rcases mem_nodes.mp h with rfl | ⟨c, hc, hn⟩
    · exact ⟨Nat.le_refl _, Nat.le_refl _⟩
    · have hsub : c.nodes ⊆ t.nodes :=
        nodes_subset (mem_nodes.mpr (Or.inr ⟨c, hc, c.self_mem_nodes⟩))
      have hchild := nested t t.self_mem_nodes c hc
      have hbelow := ih c hc (fun m hm => nested m (hsub hm)) hn
      omega

variable {source : List Char} {maxSize : Nat} {root : ParseTree}

theorem exists_rootPart_of_mem_leaves {leaf : ParseTree} (h : leaf ∈ root.leaves)
    (hne : root.children ≠ [] ∨ Text.isBlank (root.text source) = false) :
    ∃ u ∈ root.rootParts source maxSize, leaf ∈ u.nodes := by
  unfold rootParts
  split
  · exact ⟨root, List.mem_singleton_self root, (List.mem_filter.mp h).1⟩
  · rename_i hleaf
    apply exists_part_of_mem_leaves h
    intro hnil
    rcases hne with hne | hink
    · exact hne hnil
    · exact hleaf ⟨hnil, hink⟩

end ParseTree

namespace Outline

/-- Cutting back loses no row, as long as spans come in the order of their first rows. -/
theorem clampFrom_covers {covered : Option Nat} {spans : List Span} {s : Span} {row : Nat}
    (h : spans.Pairwise fun a b => a.first ≤ b.first) (hs : s ∈ spans) (hfirst : s.first ≤ row)
    (hlast : row ≤ s.last) :
    (∃ r, covered = some r ∧ row ≤ r) ∨
      ∃ c ∈ clampFrom covered spans, c.first ≤ row ∧ row ≤ c.last := by
  induction spans generalizing covered with
  | nil => simp at hs
  | cons x rest ih =>
    obtain ⟨hx, hrest⟩ := List.pairwise_cons.mp h
    -- A later span that starts no later than the row lies behind the first row of `x`.
    have hlater : s ∈ rest → x.first ≤ row := fun hs => Nat.le_trans (hx s hs) hfirst
    cases covered with
    | none =>
      right
      rw [clampFrom]
      rcases List.mem_cons.mp hs with rfl | hs
      · exact ⟨s, List.mem_cons_self, hfirst, hlast⟩
      · rcases @ih (some x.last) hrest hs with ⟨r, hr, hle⟩ | ⟨c, hc, hin⟩
        · obtain rfl := Option.some.inj hr
          exact ⟨x, List.mem_cons_self, hlater hs, hle⟩
        · exact ⟨c, List.mem_cons_of_mem x hc, hin⟩
    | some covered =>
      by_cases hcovered : row ≤ covered
      · exact Or.inl ⟨covered, rfl, hcovered⟩
      right
      rw [clampFrom]
      split
      · rename_i hdrop
        rcases List.mem_cons.mp hs with rfl | hs
        · omega
        · rcases @ih (some covered) hrest hs with ⟨r, hr, hle⟩ | hc
          · obtain rfl := Option.some.inj hr
            omega
          · exact hc
      · rcases List.mem_cons.mp hs with rfl | hs
        · exact ⟨_, List.mem_cons_self, by simp only; omega, hlast⟩
        · have hxrow := hlater hs
          rcases @ih (some x.last) hrest hs with ⟨r, hr, hle⟩ | ⟨c, hc, hin⟩
          · obtain rfl := Option.some.inj hr
            exact ⟨_, List.mem_cons_self, by simp only; omega, hle⟩
          · exact ⟨c, List.mem_cons_of_mem _ hc, hin⟩

theorem countP_eq_one_of_pairwise {α : Type} {p : α → Bool} {xs : List α}
    (h : xs.Pairwise fun a b => ¬(p a = true ∧ p b = true)) (hex : ∃ x ∈ xs, p x = true) :
    xs.countP p = 1 := by
  induction xs with
  | nil => simp at hex
  | cons x xs ih =>
    obtain ⟨hx, hxs⟩ := List.pairwise_cons.mp h
    by_cases hpx : p x = true
    · have hzero : xs.countP p = 0 :=
        List.countP_eq_zero.mpr fun y hy hpy => hx y hy ⟨hpx, hpy⟩
      simp [hpx, hzero]
    · obtain ⟨y, hy, hpy⟩ := hex
      rcases List.mem_cons.mp hy with rfl | hy
      · exact absurd hpy hpx
      · rw [List.countP_cons_of_neg hpx]
        exact ih hxs ⟨y, hy, hpy⟩

section Coverage
variable (text : List Char) (limits : ChunkLimits) (root : ParseTree)

theorem exists_excerpt_of_mem_clamp {c : Span} {row : Nat}
    (hc : c ∈ clamp (rawSpans (.ofText text) limits root)) (hfirst : c.first ≤ row)
    (hlast : row ≤ c.last) (hsize : row < (Source.ofText text).lines.size)
    (hink : blankRow (Source.ofText text).lines row = false) :
    ∃ e ∈ excerpts (.ofText text) limits root, e.span.first ≤ row ∧ row ≤ e.span.last := by
  obtain ⟨merged, hgrouped, heq⟩ := excerpts_grouped text limits root
  obtain ⟨m, hm, hmfirst, hmlast⟩ := hgrouped.covered hc
  have hrow : m.first ≤ row ∧ row ≤ m.last := by omega
  have htext : Text.isBlank (m.extract (Source.ofText text).lines).text = false := by
    apply Bool.eq_false_iff.mpr
    intro hblank
    have := (Span.isBlank_extract m).mp hblank row hrow.1 hrow.2 hsize
    simp [hink] at this
  refine ⟨m.extract (Source.ofText text).lines, ?_, ?_⟩
  · rw [heq]
    exact List.mem_filter.mpr ⟨List.mem_map_of_mem hm, by simpa using htext⟩
  · by_contra hcut
    have := Span.blankRow_of_cut (Source.ofText text).lines hrow.1 hrow.2 (by omega)
    simp [hink] at this

theorem exists_excerpt_of_mem_leaves (hroot : root.InOrder)
    (hne : root.children ≠ [] ∨ Text.isBlank (root.text text) = false) {leaf : ParseTree}
    (hleaf : leaf ∈ root.leaves) {row : Nat} (hfirst : leaf.span.first ≤ row)
    (hlast : row ≤ leaf.span.last) (hsize : row < (Source.ofText text).lines.size)
    (hink : blankRow (Source.ofText text).lines row = false) :
    ∃ e ∈ excerpts (.ofText text) limits root, e.span.first ≤ row ∧ row ≤ e.span.last := by
  have hraw := rawSpans_grouped text limits root
  have hsub : (root.rootParts text limits.maxSize).Sublist root.nodes :=
    ParseTree.rootParts_sublist_nodes
  obtain ⟨u, hu, hin⟩ : ∃ u ∈ root.rootParts text limits.maxSize, leaf ∈ u.nodes :=
    ParseTree.exists_rootPart_of_mem_leaves hleaf hne
  have hwithin := ParseTree.span_within
    (fun n hn => hroot.nested n (ParseTree.nodes_subset (hsub.subset hu) hn)) hin
  obtain ⟨s, hs, hsfirst, hslast⟩ := hraw.covered (List.mem_map_of_mem hu)
  have hstarts : (rawSpans (.ofText text) limits root).Pairwise fun a b => a.first ≤ b.first := by
    apply hraw.pairwise Span.picked_first Span.picked_first
    rw [List.pairwise_map]
    exact hroot.starts.sublist hsub
  have hrow : s.first ≤ row ∧ row ≤ s.last := by omega
  rcases @clampFrom_covers none _ _ _ hstarts hs hrow.1 hrow.2 with
    ⟨r, hr, _⟩ | ⟨c, hc, hcfirst, hclast⟩
  · simp at hr
  · exact exists_excerpt_of_mem_clamp text limits root hc hcfirst hclast hsize hink

/-- Each row of a leaf that is not blank is in exactly one excerpt, and an excerpt has the lines of
its rows. -/
theorem excerpts_cover_once (hroot : root.InOrder)
    (hne : root.children ≠ [] ∨ Text.isBlank (root.text text) = false) :
    (∀ leaf ∈ root.leaves, ∀ row line, leaf.span.first ≤ row → row ≤ leaf.span.last →
      ((text.splitOn '\n').map Text.chompReturn)[row]? = some line →
      Text.isBlank line = false →
      (excerpts (.ofText text) limits root).countP
        (fun e => e.span.first ≤ row ∧ row ≤ e.span.last) = 1) ∧
    ∀ e ∈ excerpts (.ofText text) limits root,
      e.text = ['\n'].intercalate ((((text.splitOn '\n').map Text.chompReturn).drop
        e.span.first).take (e.span.last + 1 - e.span.first)) := by
  rw [← Text.splitLines_eq]
  constructor
  · intro leaf hleaf row line hfirst hlast hline hink
    apply countP_eq_one_of_pairwise
    · apply (excerpts_pairwise text limits root).imp
      intro a b hab
      simp only [decide_eq_true_eq]
      omega
    · have hsize : row < (Text.splitLines text).length :=
        (List.getElem?_eq_some_iff.mp hline).1
      obtain ⟨e, he, hin⟩ := exists_excerpt_of_mem_leaves text limits root hroot hne hleaf hfirst
        hlast hsize (by simpa [blankRow, Source.ofText, hline] using hink)
      exact ⟨e, he, by simpa using hin⟩
  · intro e he
    obtain ⟨m, rfl, _⟩ := exists_of_mem_excerpts text limits root he
    exact rowsText_eq _ _

/-- A block over the limit, cut at its own leaves, and two calls, the first on the last row of the
block. -/
def sharedRow : ParseTree :=
  .node "file" 0 14 0 3
    [.node "block" 0 8 0 2 [.node "name" 0 2 0 0 [], .node "name" 6 8 2 2 []],
      .node "call" 9 11 2 2 [], .node "call" 12 14 3 3 []]

theorem sharedRow_covered_once :
    sharedRow.InOrder ∧ (excerpts (.ofText "ab\n  \ncd ef\ngh".toList) ⟨5, 3⟩ sharedRow).countP
      (fun e => e.span.first ≤ 2 ∧ 2 ≤ e.span.last) = 1 := by
  have horder : sharedRow.InOrder := ⟨by decide, by decide⟩
  have hcall : .node "call" 9 11 2 2 [] ∈ sharedRow.leaves :=
    List.mem_of_getElem? (i := 2) rfl
  refine ⟨horder, ?_⟩
  exact (excerpts_cover_once _ _ _ horder (Or.inl (List.cons_ne_nil _ _))).1 _ hcall 2
    "cd ef".toList (by decide) (by decide) (by decide) (by decide)

end Coverage

end Outline

end CodeSearch
