import CodeSearch.Chunking.Outline
import CodeSearch.Proofs.Span.Bracketing

/-!
# What is merged into an excerpt

Bundling and joining again, with every span remembering the nodes that were merged into it. Without
the nodes this is what the chunker does. A bundled span is the merge of its nodes, however they are
grouped, and joining bundles keeps the rule for the kind: an excerpt has a delimiter for its kind
only if it was made of nothing but delimiters.
-/

set_option autoImplicit false

namespace CodeSearch.Outline

/-- A span with the nodes merged into it. -/
structure Composite where
  span : Span
  nodes : List ParseTree

namespace Composite

def ofNode (n : ParseTree) : Composite := ⟨n.span, [n]⟩

def merge (c d : Composite) : Composite := ⟨c.span.merge d.span, c.nodes ++ d.nodes⟩

@[simp] theorem ofNode_span (n : ParseTree) : (ofNode n).span = n.span := rfl

@[simp] theorem merge_span (c d : Composite) : (c.merge d).span = c.span.merge d.span := rfl

/-- The span is the merge of its nodes. -/
def Sound (c : Composite) : Prop := Span.MergeOf (c.nodes.map ParseTree.span) c.span

theorem sound_ofNode (n : ParseTree) : (ofNode n).Sound := .single n.span

theorem Sound.merge {c d : Composite} (hc : c.Sound) (hd : d.Sound) : (c.merge d).Sound := by
  rw [Sound, Composite.merge, List.map_append]
  exact Span.MergeOf.merge hc hd

end Composite

mutual

/-- Bundles of the children of a node. -/
def compose (source : Source) (maxSize : Nat) : ParseTree → List Composite
  | .node _ _ _ _ _ children => composeAll source maxSize none children

/-- Bundles of a list of siblings; `current` is the one that the next may join. -/
def composeAll (source : Source) (maxSize : Nat) (current : Option Composite) :
    List ParseTree → List Composite
  | [] => current.toList
  | child :: rest =>
    if maxSize < (child.text source.text).length then
      let nested := compose source maxSize child
      current.toList ++ (if nested.isEmpty then [.ofNode child] else nested) ++
        composeAll source maxSize none rest
    else match current with
      | none => composeAll source maxSize (some (.ofNode child)) rest
      | some c =>
        let merged := c.merge (.ofNode child)
        if maxSize < source.index.extractedLength merged.span then
          c :: composeAll source maxSize (some (.ofNode child)) rest
        else composeAll source maxSize (some merged) rest

end

section Bundles
variable {source : Source} {maxSize : Nat}

theorem map_span_composeAll {children : List ParseTree}
    (h : ∀ c ∈ children, (compose source maxSize c).map Composite.span = bundle source maxSize c)
    (current : Option Composite) :
    (composeAll source maxSize current children).map Composite.span =
      bundleAll source maxSize (current.map Composite.span) children := by
  induction children generalizing current with
  | nil => cases current <;> simp [composeAll, bundleAll]
  | cons child rest ih =>
    obtain ⟨hchild, hrest⟩ := List.forall_mem_cons.mp h
    rw [composeAll.eq_def, bundleAll.eq_def]
    simp only
    split
    · have hempty :
          (compose source maxSize child).isEmpty = (bundle source maxSize child).isEmpty := by
        rw [← hchild, List.isEmpty_map]
      simp only [List.map_append, ih hrest, hempty, Option.map_none]
      cases current <;> split <;> simp [hchild]
    · cases current with
      | none => exact ih hrest _
      | some c =>
        simp only [Option.map_some]
        by_cases hlarge : maxSize < source.index.extractedLength (c.span.merge child.span)
        · rw [if_pos (by exact hlarge), if_pos hlarge]
          simp [ih hrest]
        · rw [if_neg (by exact hlarge), if_neg hlarge]
          simp [ih hrest]

/-- Without the nodes, bundles are the bundled spans. -/
theorem map_span_compose (source : Source) (maxSize : Nat) :
    ∀ t : ParseTree, (compose source maxSize t).map Composite.span = bundle source maxSize t
  | .node _ _ _ _ _ children => by
    rw [compose, bundle]
    exact map_span_composeAll (fun c (_ : c ∈ children) => map_span_compose source maxSize c) none

theorem sound_of_mem_composeAll {children : List ParseTree}
    (h : ∀ t ∈ children, ∀ c ∈ compose source maxSize t, c.Sound) {current : Option Composite}
    (hcurrent : ∀ c ∈ current, c.Sound) :
    ∀ c ∈ composeAll source maxSize current children, c.Sound := by
  induction children generalizing current with
  | nil => simpa [composeAll] using hcurrent
  | cons child rest ih =>
    obtain ⟨hchild, hrest⟩ := List.forall_mem_cons.mp h
    have hnode : ∀ c ∈ some (Composite.ofNode child), c.Sound := by
      rintro _ ⟨⟩
      exact Composite.sound_ofNode child
    rw [composeAll.eq_def]
    simp only
    split
    · simp only [List.forall_mem_append]
      refine ⟨⟨by simpa using hcurrent, ?_⟩, ih hrest (by simp)⟩
      split
      · simpa using Composite.sound_ofNode child
      · exact hchild
    · cases current with
      | none => exact ih hrest hnode
      | some c =>
        have hc : c.Sound := hcurrent c rfl
        simp only
        split
        · exact List.forall_mem_cons.mpr ⟨hc, ih hrest hnode⟩
        · apply ih hrest
          rintro _ ⟨⟩
          exact hc.merge (Composite.sound_ofNode child)

theorem sound_of_mem_compose (source : Source) (maxSize : Nat) :
    ∀ t : ParseTree, ∀ c ∈ compose source maxSize t, c.Sound
  | .node _ _ _ _ _ children => by
    rw [compose]
    exact sound_of_mem_composeAll
      (fun t (_ : t ∈ children) => sound_of_mem_compose source maxSize t) (by simp)

end Bundles

/-! ## Joining -/

/-- Cuts bundles back as their spans are. -/
def clampComposites (covered : Option Nat) : List Composite → List Composite
  | [] => []
  | c :: rest =>
    match covered with
    | none => c :: clampComposites (some c.span.last) rest
    | some row =>
      if c.span.last ≤ row then clampComposites covered rest
      else { c with span.first := max c.span.first (row + 1) } ::
        clampComposites (some c.span.last) rest

/-- An excerpt with the nodes merged into it. -/
structure Made where
  excerpt : Excerpt
  nodes : List ParseTree

/-- Joins excerpts, and what was merged into them. -/
def joinFrom (source : Source) (limits : ChunkLimits) (current : Made) :
    List Composite → List Made
  | [] => (keep current.excerpt).map fun e => ⟨e, current.nodes⟩
  | next :: rest =>
    let merged := current.excerpt.span.merge next.span
    if Text.inkCount current.excerpt.text < limits.minInk ∧
        source.index.extractedLength merged ≤ limits.maxSize then
      joinFrom source limits ⟨merged.extract source.lines, current.nodes ++ next.nodes⟩ rest
    else
      ((keep current.excerpt).map fun e => ⟨e, current.nodes⟩) ++
        joinFrom source limits ⟨next.span.extract source.lines, next.nodes⟩ rest

def join (source : Source) (limits : ChunkLimits) : List Composite → List Made
  | [] => []
  | c :: rest => joinFrom source limits ⟨c.span.extract source.lines, c.nodes⟩ rest

/-- Bundles before they are cut back; a root without children stands for itself unless it is
blank. -/
def rawComposites (source : Source) (limits : ChunkLimits) (root : ParseTree) : List Composite :=
  let bundles := compose source limits.maxSize root
  if bundles.isEmpty && !Text.isBlank (root.text source.text) then [.ofNode root] else bundles

/-- The excerpts of a tree, each with the nodes merged into it. -/
def made (source : Source) (limits : ChunkLimits) (root : ParseTree) : List Made :=
  join source limits (clampComposites none (rawComposites source limits root))

section Joining
variable {source : Source} {limits : ChunkLimits}

theorem map_span_clampComposites (covered : Option Nat) (cs : List Composite) :
    (clampComposites covered cs).map Composite.span =
      clampFrom covered (cs.map Composite.span) := by
  induction cs generalizing covered with
  | nil => rfl
  | cons c rest ih =>
    cases covered with
    | none => simp [clampComposites, clampFrom, ih]
    | some row =>
      simp only [clampComposites, clampFrom, List.map_cons]
      split <;> simp [ih]

theorem map_excerpt_keep (current : Made) :
    ((keep current.excerpt).map fun e => (⟨e, current.nodes⟩ : Made)).map Made.excerpt =
      keep current.excerpt := by
  rw [List.map_map]
  exact List.map_id _

theorem map_excerpt_joinFrom (current : Made) (cs : List Composite) :
    (joinFrom source limits current cs).map Made.excerpt =
      coalesceFrom source limits current.excerpt (cs.map Composite.span) := by
  induction cs generalizing current with
  | nil => exact map_excerpt_keep current
  | cons c rest ih =>
    simp only [joinFrom, coalesceFrom, List.map_cons]
    split
    · exact ih _
    · rw [List.map_append, map_excerpt_keep, ih]

theorem map_span_rawComposites (source : Source) (limits : ChunkLimits) (root : ParseTree) :
    (rawComposites source limits root).map Composite.span = rawSpans source limits root := by
  have hspans := map_span_compose source limits.maxSize root
  unfold rawComposites rawSpans
  simp only [← hspans, List.isEmpty_map]
  split <;> simp

/-- Without the nodes, these are the excerpts of the tree. -/
theorem map_excerpt_made (source : Source) (limits : ChunkLimits) (root : ParseTree) :
    (made source limits root).map Made.excerpt = excerpts source limits root := by
  unfold made excerpts clamp
  rw [← map_span_rawComposites, ← map_span_clampComposites]
  cases clampComposites none (rawComposites source limits root) with
  | nil => rfl
  | cons c rest => exact map_excerpt_joinFrom _ rest

end Joining

/-! ## The kind of an excerpt -/

/-- A span has the kind that its nodes are merged to; its rows may have been cut back. -/
def Tagged (s : Span) (nodes : List ParseTree) : Prop :=
  Span.kindOf? (nodes.map ParseTree.span) = some s.kind

section Tags
variable {source : Source} {limits : ChunkLimits}

theorem Tagged.merge {s t : Span} {nodes others : List ParseTree} (hs : Tagged s nodes)
    (ht : Tagged t others) : Tagged (s.merge t) (nodes ++ others) := by
  rw [Tagged, List.map_append]
  exact Span.kindOf?_append hs ht

theorem tagged_of_mem_clampComposites (covered : Option Nat) {cs : List Composite}
    (h : ∀ c ∈ cs, Tagged c.span c.nodes) :
    ∀ c ∈ clampComposites covered cs, Tagged c.span c.nodes := by
  induction cs generalizing covered with
  | nil => exact List.forall_mem_nil _
  | cons d rest ih =>
    obtain ⟨hd, hrest⟩ := List.forall_mem_cons.mp h
    cases covered with
    | none => exact List.forall_mem_cons.mpr ⟨hd, ih _ hrest⟩
    | some row =>
      simp only [clampComposites]
      split
      · exact ih _ hrest
      · exact List.forall_mem_cons.mpr ⟨hd, ih _ hrest⟩

theorem tagged_of_mem_keep {current : Made} (h : Tagged current.excerpt.span current.nodes) :
    ∀ m ∈ (keep current.excerpt).map fun e => (⟨e, current.nodes⟩ : Made),
      Tagged m.excerpt.span m.nodes := by
  unfold keep
  split
  · exact List.forall_mem_nil _
  · simpa using h

theorem tagged_of_mem_joinFrom {current : Made} {cs : List Composite}
    (hcurrent : Tagged current.excerpt.span current.nodes)
    (h : ∀ c ∈ cs, Tagged c.span c.nodes) :
    ∀ m ∈ joinFrom source limits current cs, Tagged m.excerpt.span m.nodes := by
  induction cs generalizing current with
  | nil => exact tagged_of_mem_keep hcurrent
  | cons c rest ih =>
    obtain ⟨hc, hrest⟩ := List.forall_mem_cons.mp h
    simp only [joinFrom]
    -- Trimming an excerpt leaves its kind alone.
    split
    · exact ih (hcurrent.merge hc) hrest
    · exact List.forall_mem_append.mpr ⟨tagged_of_mem_keep hcurrent, ih hc hrest⟩

theorem tagged_of_mem_rawComposites (source : Source) (limits : ChunkLimits) (root : ParseTree) :
    ∀ c ∈ rawComposites source limits root, Tagged c.span c.nodes := by
  unfold rawComposites
  simp only
  split
  · intro c hc
    rw [List.mem_singleton.mp hc]
    exact (Composite.sound_ofNode root).kind
  · exact fun c hc => (sound_of_mem_compose source limits.maxSize root c hc).kind

theorem tagged_of_mem_made {root : ParseTree} :
    ∀ m ∈ made source limits root, Tagged m.excerpt.span m.nodes := by
  have hclamped :=
    tagged_of_mem_clampComposites none (tagged_of_mem_rawComposites source limits root)
  unfold made
  cases hcs : clampComposites none (rawComposites source limits root) with
  | nil => exact List.forall_mem_nil _
  | cons c rest =>
    rw [hcs] at hclamped
    obtain ⟨hc, hrest⟩ := List.forall_mem_cons.mp hclamped
    exact tagged_of_mem_joinFrom hc hrest

end Tags

/-- Merging does not depend on grouping. So a bundle has a delimiter for its kind only if all nodes
merged into it are delimiters, and an excerpt only if all nodes are whose bundles were joined. -/
theorem merged_in_any_grouping :
    (∀ b : Span.Bracketing, Span.MergeOf b.spans b.merged) ∧
    (∀ b b' : Span.Bracketing, b.spans = b'.spans → b.merged = b'.merged) ∧
    (∀ (source : Source) (maxSize : Nat) (t : ParseTree),
      (compose source maxSize t).map Composite.span = bundle source maxSize t ∧
      ∀ c ∈ compose source maxSize t, Span.MergeOf (c.nodes.map ParseTree.span) c.span ∧
        (Span.isDelimiter c.span.kind = true ↔ ∀ n ∈ c.nodes, Span.isDelimiter n.kind = true)) ∧
    ∀ (source : Source) (limits : ChunkLimits) (root : ParseTree),
      (made source limits root).map Made.excerpt = excerpts source limits root ∧
      ∀ m ∈ made source limits root,
        Span.kindOf? (m.nodes.map ParseTree.span) = some m.excerpt.span.kind ∧
        (Span.isDelimiter m.excerpt.span.kind = true ↔
          ∀ n ∈ m.nodes, Span.isDelimiter n.kind = true) := by
  refine ⟨Span.Bracketing.mergeOf_merged, fun b b' => Span.Bracketing.merged_eq_of_spans_eq, ?_, ?_⟩
  · intro source maxSize t
    refine ⟨map_span_compose source maxSize t, ?_⟩
    intro c hc
    have hmerge := sound_of_mem_compose source maxSize t c hc
    refine ⟨hmerge, ?_⟩
    rw [hmerge.isDelimiter_iff, List.forall_mem_map]
    rfl
  · intro source limits root
    refine ⟨map_excerpt_made source limits root, ?_⟩
    intro m hm
    have htag := tagged_of_mem_made m hm
    refine ⟨htag, ?_⟩
    rw [Span.isDelimiter_kindOf?_iff htag, List.forall_mem_map]
    rfl

end CodeSearch.Outline
