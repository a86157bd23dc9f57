import CodeSearch.Proofs.Search.Page
import CodeSearch.Proofs.Words

/-!
# The context of a chunk

Context is looked up in a window of lines that is worked out in words of 64 bits. As long as the far
end of the window fits into a word with a sign, what is found is what the window asks for. Beyond
that the width of the window may turn negative, and then what is found is what that width asks for;
or the width or an end of the window fits into no word, and the search ends there.
-/

set_option autoImplicit false

namespace CodeSearch.Store
variable {s : Store} {chunk c : StoredChunk}

/-- Another chunk of the same file and project. -/
structure Beside (chunk c : StoredChunk) : Prop where
  other : c.id ≠ chunk.id
  file : c.filePath = chunk.filePath
  project : c.projectId = chunk.projectId

/-- The second chunk starts at most `reach` lines before or behind the first. -/
def Within (chunk : StoredChunk) (reach : Int) (c : StoredChunk) : Prop :=
  chunk.startLine - reach ≤ c.startLine ∧ c.startLine ≤ chunk.endLine + reach

def RowBefore (a b : StoredChunk) : Prop :=
  a.startLine < b.startLine ∨ a.startLine = b.startLine ∧ a.id < b.id

/-- The rows are the chunks beside a chunk that start within `reach` lines of it, in order. -/
structure IsContext (s : Store) (chunk : StoredChunk) (reach : Int) (rows : List StoredChunk) :
    Prop where
  ordered : rows.Pairwise RowBefore
  mem_iff : ∀ c, c ∈ rows ↔ c ∈ s.chunks ∧ Beside chunk c ∧ Within chunk reach c

section Reach

/-- Ten lines for each line of context, as a word with a sign holds them. -/
def wrappedReach (contextLines : Nat) : Int := ((contextLines * 10 : Nat) : Int).bmod Word.size

theorem toInt_width (contextLines : Nat) :
    (Word.signed (contextLines * 10)).toInt = wrappedReach contextLines := Word.toInt_signed _

theorem wrappedReach_bounds (contextLines : Nat) :
    -Word.half ≤ wrappedReach contextLines ∧ wrappedReach contextLines < Word.half := by
  rw [← toInt_width]
  exact ⟨Word.le_toInt _, Word.toInt_lt _⟩

theorem wrappedReach_of_lt {contextLines : Nat} (h : 10 * contextLines < Word.half) :
    wrappedReach contextLines = 10 * contextLines := by
  rw [← toInt_width, Word.toInt_signed_of_lt (by omega)]
  omega

/-- The ends of the window have to fit into words. They are never too low. -/
structure Fits (chunk : StoredChunk) (contextLines : Nat) : Prop where
  width : 10 * contextLines < Word.size
  first : chunk.startLine - wrappedReach contextLines < Word.half
  last : chunk.endLine + wrappedReach contextLines < Word.half

theorem fits_of_lt {contextLines : Nat} (hstart : chunk.startLine < Word.half)
    (h : chunk.endLine + 10 * contextLines < Word.half) : Fits chunk contextLines := by
  have hreach : wrappedReach contextLines = 10 * contextLines := wrappedReach_of_lt (by omega)
  have hsize : Word.half ≤ Word.size := by decide
  exact ⟨by omega, by omega, by omega⟩

end Reach

section Order

theorem lineLe_iff {a b : StoredChunk} (ha : a.startLine < Word.half)
    (hb : b.startLine < Word.half) :
    lineLe a b = true ↔ a.startLine < b.startLine ∨ a.startLine = b.startLine ∧ a.id ≤ b.id := by
  have hlt : Word.signed a.startLine < Word.signed b.startLine ↔ a.startLine < b.startLine := by
    rw [Int64.lt_iff_toInt_lt, Word.toInt_signed_of_lt ha, Word.toInt_signed_of_lt hb,
      Int.ofNat_lt]
  have heq : Word.signed a.startLine = Word.signed b.startLine ↔ a.startLine = b.startLine := by
    rw [← Int64.toInt_inj, Word.toInt_signed_of_lt ha, Word.toInt_signed_of_lt hb, Int.ofNat_inj]
  simp only [lineLe, Bool.or_eq_true, Bool.and_eq_true, decide_eq_true_eq, beq_iff_eq, hlt, heq]

theorem lineLe_trans (a b c : StoredChunk) (h : lineLe a b = true) (h' : lineLe b c = true) :
    lineLe a c = true := by
  simp only [lineLe, Bool.or_eq_true, Bool.and_eq_true, decide_eq_true_eq, beq_iff_eq,
    Int64.lt_iff_toInt_lt, ← Int64.toInt_inj] at h h' ⊢
  omega

theorem lineLe_total (a b : StoredChunk) : (lineLe a b || lineLe b a) = true := by
  simp only [lineLe, Bool.or_eq_true, Bool.and_eq_true, decide_eq_true_eq, beq_iff_eq,
    Int64.lt_iff_toInt_lt, ← Int64.toInt_inj]
  omega

end Order

section Rows
variable {first last : Int64}

theorem rowsBeside_pairwise (hkeyed : s.Keyed) (hlines : ∀ c ∈ s.chunks, c.startLine < Word.half)
    (chunk : StoredChunk) (first last : Int64) :
    (s.rowsBeside chunk first last).Pairwise RowBefore := by
  obtain ⟨rows, hsub, hrows⟩ : ∃ rows : List StoredChunk, rows.Sublist s.chunks ∧
      s.rowsBeside chunk first last = rows.mergeSort lineLe := ⟨_, List.filter_sublist, rfl⟩
  rw [hrows]
  have hsorted := List.pairwise_mergeSort lineLe_trans lineLe_total rows
  have hids : (rows.mergeSort lineLe).Pairwise fun a b => a.id ≠ b.id := by
    rw [← List.pairwise_map (f := StoredChunk.id)]
    exact (((List.mergeSort_perm rows lineLe).map _).nodup_iff).mpr
      (hkeyed.nodup.sublist (hsub.map _))
  apply (hsorted.and hids).imp_of_mem
  rintro a b ha hb ⟨hle, hne⟩
  have hmem : ∀ {d}, d ∈ rows.mergeSort lineLe → d.startLine < Word.half := by
    intro d hd
    exact hlines d (hsub.subset (List.mem_mergeSort.mp hd))
  rw [lineLe_iff (hmem ha) (hmem hb)] at hle
  unfold RowBefore
  omega

theorem mem_rowsBeside_iff (hlines : ∀ c ∈ s.chunks, c.startLine < Word.half) :
    c ∈ s.rowsBeside chunk first last ↔ c ∈ s.chunks ∧ Beside chunk c ∧
      first.toInt ≤ c.startLine ∧ c.startLine ≤ last.toInt := by
  simp only [rowsBeside, List.mem_mergeSort, List.mem_filter, Bool.and_eq_true, beq_iff_eq,
    bne_iff_ne, decide_eq_true_eq, Int64.le_iff_toInt_le]
  constructor
  · rintro ⟨hstored, ⟨⟨⟨hfile, hproject⟩, hfirst⟩, hlast⟩, hid⟩
    rw [Word.toInt_signed_of_lt (hlines c hstored)] at hfirst hlast
    exact ⟨hstored, ⟨hid, hfile, hproject⟩, hfirst, hlast⟩
  · rintro ⟨hstored, ⟨hid, hfile, hproject⟩, hfirst, hlast⟩
    rw [Word.toInt_signed_of_lt (hlines c hstored)]
    exact ⟨hstored, ⟨⟨⟨hfile, hproject⟩, hfirst⟩, hlast⟩, hid⟩

end Rows

section Context
variable {contextLines : Nat} {rows : List StoredChunk}

/-- There is a context if the ends of the window fit into words, which they are then. -/
theorem context?_eq_some_iff (hstart : chunk.startLine < Word.half)
    (hend : chunk.endLine < Word.half) :
    s.context? chunk contextLines = some rows ↔ Fits chunk contextLines ∧
      ∃ first last : Int64, first.toInt = chunk.startLine - wrappedReach contextLines ∧
        last.toInt = chunk.endLine + wrappedReach contextLines ∧
        rows = s.rowsBeside chunk first last := by
  simp only [context?, Option.bind_eq_bind, Option.bind_eq_some_iff, Option.pure_def,
    Option.some.injEq, Word.times?_eq_some_iff, Word.ofInt?_eq_some_iff,
    Word.toInt_signed_of_lt hstart, Word.toInt_signed_of_lt hend]
  constructor
  · rintro ⟨width, ⟨rfl, hwidth⟩, first, hfirst, last, hlast, rfl⟩
    rw [toInt_width] at hfirst hlast
    refine ⟨⟨by omega, ?_, ?_⟩, first, last, hfirst, hlast, rfl⟩
    · rw [← hfirst]
      exact Word.toInt_lt first
    · rw [← hlast]
      exact Word.toInt_lt last
  · rintro ⟨hfits, first, last, hfirst, hlast, rfl⟩
    rw [← toInt_width] at hfirst hlast
    have hwidth := hfits.width
    exact ⟨_, ⟨rfl, by omega⟩, first, hfirst, last, hlast, rfl⟩

theorem exists_context?_iff (hstart : chunk.startLine < Word.half)
    (hend : chunk.endLine < Word.half) :
    (∃ rows, s.context? chunk contextLines = some rows) ↔ Fits chunk contextLines := by
  constructor
  · rintro ⟨rows, hrows⟩
    exact ((context?_eq_some_iff hstart hend).mp hrows).1
  · intro hfits
    obtain ⟨hlow, hhigh⟩ := wrappedReach_bounds contextLines
    have hfirst : ∃ w : Int64, w.toInt = chunk.startLine - wrappedReach contextLines :=
      ⟨_, Int64.toInt_ofInt_of_le (show -(Word.half : Int) ≤ _ by omega) hfits.first⟩
    have hlast : ∃ w : Int64, w.toInt = chunk.endLine + wrappedReach contextLines :=
      ⟨_, Int64.toInt_ofInt_of_le (show -(Word.half : Int) ≤ _ by omega) hfits.last⟩
    obtain ⟨first, hfirst⟩ := hfirst
    obtain ⟨last, hlast⟩ := hlast
    exact ⟨_, (context?_eq_some_iff hstart hend).mpr ⟨hfits, first, last, hfirst, hlast, rfl⟩⟩

/-- What is found is right for the width as the word holds it. -/
theorem isContext_wrapped (hkeyed : s.Keyed) (hlines : ∀ c ∈ s.chunks, c.startLine < Word.half)
    (hstart : chunk.startLine < Word.half) (hend : chunk.endLine < Word.half)
    (hrows : s.context? chunk contextLines = some rows) :
    s.IsContext chunk (wrappedReach contextLines) rows := by
  obtain ⟨-, first, last, hfirst, hlast, rfl⟩ := (context?_eq_some_iff hstart hend).mp hrows
  refine ⟨rowsBeside_pairwise hkeyed hlines chunk first last, fun c => ?_⟩
  rw [mem_rowsBeside_iff hlines, hfirst, hlast]
  rfl

/-- If the ends of the window fit though the far one should not, then the width is negative, and the
window that was asked for holds every line. -/
theorem Fits.within_all (h : Fits chunk contextLines)
    (hfar : ¬ chunk.endLine + 10 * contextLines < Word.half) (hstart : chunk.startLine < Word.half)
    {c : StoredChunk} (hc : c.startLine < Word.half) : Within chunk (10 * contextLines) c := by
  have hwide : Word.half ≤ 10 * contextLines := by
    by_contra hnarrow
    have hreach := wrappedReach_of_lt (Nat.not_le.mp hnarrow)
    have hlast := h.last
    omega
  unfold Within
  omega

/-- Rows that are right for one width are right for one that takes in everything if theirs does. -/
theorem IsContext.iff_of_within_all {reach wide : Int} (h : s.IsContext chunk reach rows)
    (hall : ∀ c ∈ s.chunks, Within chunk wide c) : s.IsContext chunk wide rows ↔
      ∀ c ∈ s.chunks, Beside chunk c → Within chunk reach c := by
  constructor
  · intro hcontext c hc hbeside
    have hmem := (hcontext.mem_iff c).mpr ⟨hc, hbeside, hall c hc⟩
    exact ((h.mem_iff c).mp hmem).2.2
  · intro hreach
    refine ⟨h.ordered, fun c => ?_⟩
    rw [h.mem_iff]
    constructor
    · rintro ⟨hc, hbeside, -⟩
      exact ⟨hc, hbeside, hall c hc⟩
    · rintro ⟨hc, hbeside, -⟩
      exact ⟨hc, hbeside, hreach c hc hbeside⟩

/-- The context is what ten lines for each line of context ask for as long as the far end of the
window fits into a word. Beyond that all chunks of the file are asked for: the context is right only
if the ends of the wrapped window fit and it happens to hold them all. -/
theorem context_exact_iff (h : s.Reachable) (hlines : ∀ c ∈ s.chunks, c.startLine < Word.half)
    (hstart : chunk.startLine < Word.half) (hend : chunk.endLine < Word.half)
    (contextLines : Nat) :
    ((∃ rows, s.context? chunk contextLines = some rows) ↔ Fits chunk contextLines) ∧
      ((∃ rows, s.context? chunk contextLines = some rows ∧
          s.IsContext chunk (10 * contextLines) rows) ↔
        chunk.endLine + 10 * contextLines < Word.half ∨
          Fits chunk contextLines ∧
            ∀ c ∈ s.chunks, Beside chunk c → Within chunk (wrappedReach contextLines) c) := by
  refine ⟨exists_context?_iff hstart hend, ?_⟩
  have hfound {rows : List StoredChunk} (hrows : s.context? chunk contextLines = some rows) :=
    isContext_wrapped h.consistent.keyed hlines hstart hend hrows
  by_cases hfar : chunk.endLine + 10 * contextLines < Word.half
  · obtain ⟨rows, hrows⟩ := (exists_context?_iff (s := s) hstart hend).mpr (fits_of_lt hstart hfar)
    have hcontext := hfound hrows
    rw [wrappedReach_of_lt (by omega)] at hcontext
    exact iff_of_true ⟨rows, hrows, hcontext⟩ (Or.inl hfar)
  · have hall (hends : Fits chunk contextLines) :
        ∀ c ∈ s.chunks, Within chunk (10 * contextLines) c :=
      fun c hc => hends.within_all hfar hstart (hlines c hc)
    rw [or_iff_right hfar]
    constructor
    · rintro ⟨rows, hrows, hcontext⟩
      have hends := (exists_context?_iff hstart hend).mp ⟨rows, hrows⟩
      exact ⟨hends, ((hfound hrows).iff_of_within_all (hall hends)).mp hcontext⟩
    · rintro ⟨hends, hwrapped⟩
      obtain ⟨rows, hrows⟩ := (exists_context?_iff hstart hend).mpr hends
      exact ⟨rows, hrows, ((hfound hrows).iff_of_within_all (hall hends)).mpr hwrapped⟩

end Context

section Shelf
open Search

def fish : StoredChunk := ⟨1, 1, "fish", "/d/a.md", 1, 1, "text", "md", "h1", 4⟩

def bird : StoredChunk := ⟨2, 1, "bird", "/d/a.md", 2, 2, "text", "md", "h2", 4⟩

theorem beside_fish : Beside fish bird := ⟨by decide, rfl, rfl⟩

theorem startLine_shelf : ∀ c ∈ shelf.chunks, c.startLine < Word.half := by decide

/-- With three lines of context the chunk on the next line is found. -/
theorem bird_in_context_of_fish : ∃ rows, shelf.context? fish 3 = some rows ∧ bird ∈ rows := by
  have hstart : fish.startLine < Word.half := by decide
  have hexact := context_exact_iff reachable_shelf startLine_shelf hstart (by decide) 3
  obtain ⟨rows, hrows, hcontext⟩ := hexact.2.mpr (Or.inl (by decide))
  exact ⟨rows, hrows, (hcontext.mem_iff bird).mpr
    ⟨by decide, beside_fish, by unfold Within; decide⟩⟩

/-- So many lines of context that ten times as many are negative as a word with a sign: both ends of
the window fit, and the chunk on the next line is not found. -/
theorem wide_window_misses_bird :
    shelf.Reachable ∧ fish ∈ shelf.chunks ∧ 922337203685477581 < Word.size ∧
      ∃ rows, shelf.context? fish 922337203685477581 = some rows ∧
        ¬ shelf.IsContext fish (10 * 922337203685477581) rows := by
  have hreach : wrappedReach 922337203685477581 = 2 - Word.half := by decide
  have hends : Fits fish 922337203685477581 :=
    ⟨by decide, by rw [hreach]; decide, by rw [hreach]; decide⟩
  obtain ⟨rows, hrows⟩ :=
    (exists_context?_iff (s := shelf) (by decide) (by decide)).mpr hends
  refine ⟨reachable_shelf, by decide, by decide, rows, hrows, fun hcontext => ?_⟩
  have hmem := (hcontext.mem_iff bird).mpr ⟨by decide, beside_fish, by unfold Within; decide⟩
  have hwrapped := isContext_wrapped reachable_shelf.consistent.keyed startLine_shelf (by decide)
    (by decide) hrows
  obtain ⟨-, -, hwithin⟩ := (hwrapped.mem_iff bird).mp hmem
  rw [Within, hreach] at hwithin
  exact absurd hwithin (by decide)

end Shelf

end CodeSearch.Store
