import CodeSearch.Chunking.Passages
import CodeSearch.Proofs.Text.Splitting

/-!
# What becomes of a text that is cut into passages

Cutting, joining and trimming take away white space and add white space, so the ink of a text is
found again in its chunks, all of it and in order. A piece is no longer than the limit, a limit of
zero counting as one, and a passage is joined from several pieces only if it fits.
-/

set_option autoImplicit false

namespace CodeSearch.Passages
open Text

section Pieces

/-- White space that is not empty: where it stood in a text, it can be put back. -/
def Blanks (seps : List (List Char)) : Prop := ∀ sep ∈ seps, sep ≠ [] ∧ isBlank sep = true

theorem blanks_separators : Blanks separators := by
  simp [Blanks, separators, isBlank, isWhite]

theorem ink_pieces (maxSize : Nat) {seps : List (List Char)} (hseps : Blanks seps)
    (text : List Char) : (pieces maxSize seps text).flatMap ink = ink text := by
  induction seps generalizing text with
  | nil =>
    rw [pieces]
    split
    · simp
    · rw [← ink_flatten, flatten_groupsOf]
  | cons sep narrower ih =>
    obtain ⟨⟨hne, hblank⟩, hnarrower⟩ := List.forall_mem_cons.mp hseps
    rw [pieces]
    split
    · simp
    · split
      · exact ih hnarrower text
      · rw [List.flatMap_assoc, funext (ih hnarrower), ← ink_joinWith hblank,
          joinWith_splitOn hne]

theorem length_le_of_mem_pieces {maxSize : Nat} {seps : List (List Char)} {text piece : List Char}
    (h : piece ∈ pieces maxSize seps text) : piece.length ≤ max 1 maxSize := by
  have hwhole : ∀ {text : List Char}, text.length ≤ maxSize → piece ∈ [text] →
      piece.length ≤ max 1 maxSize := by
    intro text hfits hmem
    rw [List.mem_singleton.mp hmem]
    omega
  induction seps generalizing text with
  | nil =>
    rw [pieces] at h
    split at h
    · rename_i hfits
      exact hwhole hfits h
    · have := length_le_of_mem_groupsOf h
      omega
  | cons sep narrower ih =>
    rw [pieces] at h
    split at h
    · rename_i hfits
      exact hwhole hfits h
    · split at h
      · exact ih h
      · obtain ⟨part, _, hpart⟩ := List.mem_flatMap.mp h
        exact ih hpart

end Pieces

section Joining
variable (limits : ChunkLimits)

theorem ink_joinFrom (done : List (List Char)) (current : List Char) (rest : List (List Char)) :
    (joinFrom limits done current rest).flatMap ink =
      (done.reverse ++ current :: rest).flatMap ink := by
  have hfeed : ink ['\n'] = [] := by decide
  fun_induction joinFrom limits done current rest with
  | case1 done current => simp
  | case2 done current next rest joined hjoins ih =>
    have hjoined : ink joined = ink current ++ ink next := by
      rw [show joined = current ++ (['\n'] ++ next) from rfl, ink_append, ink_append, hfeed,
        List.nil_append]
    rw [ih]
    simp [hjoined]
  | case3 done current next rest joined hstays ih =>
    rw [ih]
    simp

theorem ink_join (ps : List (List Char)) : (join limits ps).flatMap ink = ps.flatMap ink := by
  cases ps with
  | nil => rfl
  | cons first rest => exact ink_joinFrom limits [] first rest

/-- Two pieces are joined only if what comes of it fits. -/
theorem length_le_of_mem_joinFrom {done : List (List Char)} {current : List Char}
    {rest : List (List Char)} {passage : List Char}
    (h : passage ∈ joinFrom limits done current rest) :
    passage.length ≤ limits.maxSize ∨ passage ∈ done ∨ passage ∈ current :: rest := by
  fun_induction joinFrom limits done current rest with
  | case1 done current =>
    simp only [List.reverse_cons, List.mem_append, List.mem_reverse] at h
    exact Or.inr h
  | case2 done current next rest joined hjoins ih =>
    rcases ih h with hfits | hdone | hrest
    · exact Or.inl hfits
    · exact Or.inr (Or.inl hdone)
    · rcases List.mem_cons.mp hrest with rfl | hrest
      · exact Or.inl hjoins.2
      · exact Or.inr (Or.inr (List.mem_cons_of_mem _ (List.mem_cons_of_mem _ hrest)))
  | case3 done current next rest joined hstays ih =>
    rcases ih h with hfits | hdone | hrest
    · exact Or.inl hfits
    · rcases List.mem_cons.mp hdone with rfl | hdone
      · exact Or.inr (Or.inr List.mem_cons_self)
      · exact Or.inr (Or.inl hdone)
    · exact Or.inr (Or.inr (List.mem_cons_of_mem _ hrest))

theorem length_le_of_mem_join {ps : List (List Char)} {passage : List Char}
    (h : passage ∈ join limits ps) : passage.length ≤ limits.maxSize ∨ passage ∈ ps := by
  cases ps with
  | nil => exact absurd h List.not_mem_nil
  | cons first rest =>
    rcases length_le_of_mem_joinFrom limits h with hfits | hnone | hmem
    · exact Or.inl hfits
    · exact absurd hnone List.not_mem_nil
    · exact Or.inr hmem

end Joining

section Placing
variable (filePath : String)

/-- The passages with something to show, placed one behind the other. -/
theorem place_eq (line : Nat) (done : List Chunk) (passages : List (List Char)) :
    place filePath line done passages =
      done.reverse ++ place filePath line [] passages := by
  induction passages generalizing line done with
  | nil => simp [place]
  | cons passage rest ih =>
    rw [place, ih, place, ih _ (_ ++ [])]
    simp

theorem ink_chunk? (line : Nat) (passage : List Char) :
    ((chunk? filePath line passage).toList.flatMap fun c => ink c.content.toList) =
      ink passage := by
  rw [chunk?]
  split
  · rename_i hempty
    rw [← ink_trim, List.isEmpty_iff.mp hempty]
    rfl
  · simp [ink_trim]

theorem ink_place (line : Nat) (passages : List (List Char)) :
    ((place filePath line [] passages).flatMap fun c => ink c.content.toList) =
      passages.flatMap ink := by
  induction passages generalizing line with
  | nil => rfl
  | cons passage rest ih =>
    rw [place, place_eq, List.flatMap_append, ih, List.flatMap_cons]
    congr 1
    rw [← ink_chunk? filePath line passage]
    cases chunk? filePath line passage <;> rfl

theorem mem_place_cons {line : Nat} {passage : List Char} {rest : List (List Char)} {c : Chunk} :
    c ∈ place filePath line [] (passage :: rest) ↔ chunk? filePath line passage = some c ∨
      c ∈ place filePath (line + passage.count '\n' + 1) [] rest := by
  rw [place, place_eq, List.mem_append]
  simp

theorem chunk?_eq_some {line : Nat} {passage : List Char} {c : Chunk}
    (h : chunk? filePath line passage = some c) :
    c.content = String.ofList (trim passage) ∧ c.startLine = line ∧
      c.endLine = line + passage.count '\n' ∧ c.size = passage.length := by
  rw [chunk?] at h
  split at h
  · cases h
  · obtain rfl := Option.some.inj h
    exact ⟨rfl, rfl, rfl, rfl⟩

/-- A chunk has the size of its passage, of which trimming leaves a part. -/
theorem exists_passage_of_mem_place {line : Nat} {passages : List (List Char)} {c : Chunk}
    (h : c ∈ place filePath line [] passages) :
    ∃ passage ∈ passages, c.size = passage.length ∧ c.content = String.ofList (trim passage) := by
  induction passages generalizing line with
  | nil => exact absurd h List.not_mem_nil
  | cons passage rest ih =>
    rcases (mem_place_cons filePath).mp h with hfirst | hrest
    · obtain ⟨hcontent, -, -, hsize⟩ := chunk?_eq_some filePath hfirst
      exact ⟨passage, List.mem_cons_self, hsize, hcontent⟩
    · obtain ⟨passage', hmem, hc⟩ := ih hrest
      exact ⟨passage', List.mem_cons_of_mem passage hmem, hc⟩

end Placing

/-- The chunks of a text hold its ink, all of it and in order, and none is larger than the limit
allows. -/
theorem chunks_lose_nothing (limits : ChunkLimits) (filePath : String) (text : List Char) :
    ink ((chunks limits filePath text).flatMap fun c => c.content.toList) = ink text ∧
      ∀ c ∈ chunks limits filePath text,
        c.size ≤ max 1 limits.maxSize ∧ c.content.length ≤ c.size := by
  have hflatten : ∀ cs : List Chunk, ink (cs.flatMap fun c => c.content.toList) =
      cs.flatMap fun c => ink c.content.toList := by
    intro cs
    rw [List.flatMap_def, ink_flatten, List.flatMap_map]
  rw [hflatten, chunks]
  split
  · rename_i hblank
    exact ⟨((ink_eq_nil_iff text).mpr hblank).symm, List.forall_mem_nil _⟩
  constructor
  · rw [ink_place, ink_join, ink_pieces limits.maxSize blanks_separators]
  · intro c hc
    obtain ⟨passage, hpassage, hsize, hcontent⟩ := exists_passage_of_mem_place filePath hc
    rw [hsize, hcontent, String.length_ofList]
    refine ⟨?_, length_trim_le passage⟩
    rcases length_le_of_mem_join limits hpassage with hfits | hpiece
    · omega
    · exact length_le_of_mem_pieces hpiece

end CodeSearch.Passages
