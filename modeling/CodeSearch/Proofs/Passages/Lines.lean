import CodeSearch.Proofs.Passages.Tiling

/-!
# The lines of a passage

Passages are placed by a running line number, as if each piece began on a line of its own. So a
passage is given the lines on which it stands in the file as long as the file was cut at the ends of
lines only. A cut inside a line moves what follows one line down, and a cut at an empty line moves
it one line up.
-/

set_option autoImplicit false

namespace CodeSearch.Passages
open Text

/-- A piece of a text with what was cut away in front of it. -/
structure Part where
  glue : List Char
  piece : List Char

/-- The stretch of text that parts make up. -/
def stretch (ps : List Part) : List Char := ps.flatMap fun p => p.glue ++ p.piece

/-- The passage that the pieces of some parts are joined to. -/
def passage (ps : List Part) : List Char := joinLines (ps.map Part.piece)

/-- The line on which what follows a text begins. -/
def lineAfter (before : List Char) : Nat := before.count '\n' + 1

/-- How many lines further down what follows some cuts is placed than it stands. -/
def drift : List Part → Int
  | [] => 0
  | p :: cuts => 1 - (p.glue.count '\n' : Int) + drift cuts

def Part.isInner (p : Part) : Bool := p.glue.count '\n' == 0

/-- The pieces of a text with what was cut away between them, which is a separator or nothing. In
front of the first part nothing is cut away. -/
structure Dissected (maxSize : Nat) (text : List Char) (parts : List Part) : Prop where
  pieces_eq : parts.map Part.piece = pieces maxSize separators text
  stretch_eq : stretch parts = text
  head : ∃ first, parts.head? = some ⟨[], first⟩
  glue : ∀ p ∈ parts.tail, p.glue ∈ separators ∨ p.glue = []

theorem exists_parts {maxSize : Nat} {seps ps : List (List Char)} {text : List Char}
    (h : Tiles maxSize seps ps text) : ∃ first more, ps = first :: more.map Part.piece ∧
      text = first ++ stretch more ∧ ∀ p ∈ more, p.glue ∈ seps ∨ p.glue = [] := by
  induction h with
  | last piece => exact ⟨piece, [], rfl, (List.append_nil piece).symm, List.forall_mem_nil _⟩
  | @cons piece glue text rest hglue _ ih =>
    obtain ⟨first, more, rfl, rfl, hmore⟩ := ih
    refine ⟨piece, ⟨glue, first⟩ :: more, rfl, ?_, List.forall_mem_cons.mpr ⟨?_, hmore⟩⟩
    · simp [stretch]
    · exact hglue.imp_right And.left

theorem exists_dissected (maxSize : Nat) (text : List Char) :
    ∃ parts, Dissected maxSize text parts := by
  obtain ⟨first, more, hpieces, htext, hmore⟩ := exists_parts (tiles_pieces maxSize separators text)
  have hstretch : stretch (⟨[], first⟩ :: more) = text := by simpa [stretch] using htext.symm
  exact ⟨⟨[], first⟩ :: more, hpieces.symm, hstretch, ⟨first, rfl⟩, hmore⟩

section Heights

/-- Lines that parts take up where each begins on a line of its own. -/
def height (ps : List Part) : Nat := (ps.map fun p => p.piece.count '\n' + 1).sum

@[simp] theorem height_append (ps qs : List Part) : height (ps ++ qs) = height ps + height qs := by
  simp [height]

@[simp] theorem stretch_append (ps qs : List Part) :
    stretch (ps ++ qs) = stretch ps ++ stretch qs :=
  List.flatMap_append

theorem height_eq (ps : List Part) : (height ps : Int) = (stretch ps).count '\n' + drift ps := by
  induction ps with
  | nil => rfl
  | cons p ps ih =>
    simp only [height, drift, stretch, List.map_cons, List.sum_cons, List.flatMap_cons,
      List.count_append] at ih ⊢
    omega

theorem count_passage {ps : List Part} (hne : ps ≠ []) :
    (passage ps).count '\n' + 1 = height ps := by
  induction ps with
  | nil => exact absurd rfl hne
  | cons p ps ih =>
    cases ps with
    | nil => simp [passage, height, joinLines, joinWith]
    | cons q ps =>
      have hrest := ih (List.cons_ne_nil q ps)
      simp only [passage, height, joinLines, joinWith, List.map_cons, List.sum_cons,
        List.intercalate_cons_cons, List.count_append, List.count_singleton_self] at hrest ⊢
      omega

/-- No cut is counted for the first part. -/
theorem height_eq_tail {ps : List Part} {first : List Char} (hhead : ps.head? = some ⟨[], first⟩) :
    (height ps : Int) = (stretch ps).count '\n' + 1 + drift ps.tail := by
  cases ps with
  | nil => cases hhead
  | cons p ps =>
    obtain rfl := Option.some.inj hhead
    rw [height_eq]
    simp only [drift, List.count_nil, List.tail_cons]
    omega

end Heights

section Drift

theorem drift_eq_zero {cuts : List Part} (h : ∀ p ∈ cuts, p.glue = ['\n']) : drift cuts = 0 := by
  induction cuts with
  | nil => rfl
  | cons p cuts ih =>
    obtain ⟨hp, hcuts⟩ := List.forall_mem_cons.mp h
    have hrest := ih hcuts
    simp only [drift, hp, List.count_singleton_self] at hrest ⊢
    omega

theorem drift_le (cuts : List Part) : drift cuts ≤ cuts.countP Part.isInner := by
  induction cuts with
  | nil => exact Int.le_refl 0
  | cons p cuts ih =>
    simp only [drift, List.countP_cons, Part.isInner, beq_iff_eq] at ih ⊢
    split <;> omega

end Drift

section Groups

theorem joinLines_concat {ls : List (List Char)} (hne : ls ≠ []) (l : List Char) :
    joinLines (ls ++ [l]) = joinLines ls ++ '\n' :: l := by
  induction ls with
  | nil => exact absurd rfl hne
  | cons first rest ih =>
    cases rest with
    | nil => simp [joinLines, joinWith, List.intercalate_cons_cons]
    | cons second rest =>
      have hrest := ih (List.cons_ne_nil second rest)
      simp only [joinLines, joinWith, List.cons_append, List.intercalate_cons_cons] at hrest ⊢
      rw [hrest]
      simp

variable (limits : ChunkLimits)

/-- Joining makes passages of consecutive parts. -/
theorem joinFrom_groups (done : List (List Char)) {run : List Part} (hne : run ≠ [])
    (rest : List Part) : ∃ groups : List (List Part), groups.flatten = run ++ rest ∧
      (∀ g ∈ groups, g ≠ []) ∧
      joinFrom limits done (passage run) (rest.map Part.piece) =
        done.reverse ++ groups.map passage := by
  induction rest generalizing done run with
  | nil => exact ⟨[run], by simp, by simpa using hne, by simp [joinFrom]⟩
  | cons next rest ih =>
    rw [List.map_cons, joinFrom]
    have hjoined : passage run ++ '\n' :: next.piece = passage (run ++ [next]) := by
      rw [passage, passage, List.map_append, List.map_cons, List.map_nil,
        joinLines_concat (by simpa using hne)]
    split
    · have hlonger : run ++ [next] ≠ [] := by simp
      obtain ⟨groups, hflat, hgroups, hjoin⟩ := ih done hlonger
      rw [hjoined]
      exact ⟨groups, by simpa using hflat, hgroups, hjoin⟩
    · obtain ⟨groups, hflat, hgroups, hjoin⟩ :=
        ih (passage run :: done) (List.cons_ne_nil next [])
      refine ⟨run :: groups, by simpa using hflat, List.forall_mem_cons.mpr ⟨hne, hgroups⟩, ?_⟩
      simpa [passage, joinLines, joinWith] using hjoin

theorem join_groups (parts : List Part) : ∃ groups : List (List Part), groups.flatten = parts ∧
    (∀ g ∈ groups, g ≠ []) ∧ join limits (parts.map Part.piece) = groups.map passage := by
  cases parts with
  | nil => exact ⟨[], rfl, List.forall_mem_nil _, rfl⟩
  | cons p rest =>
    obtain ⟨groups, hflat, hgroups, hjoin⟩ :=
      joinFrom_groups limits [] (List.cons_ne_nil p []) rest
    refine ⟨groups, hflat, hgroups, ?_⟩
    simpa [join, passage, joinLines, joinWith] using hjoin

end Groups

section Placing

/-- A chunk is placed behind all that the passages before its own take up. -/
theorem exists_group_of_mem_place (filePath : String) {line : Nat} {groups : List (List Part)}
    (hgroups : ∀ g ∈ groups, g ≠ []) {c : Chunk}
    (hc : c ∈ place filePath line [] (groups.map passage)) :
    ∃ front run back, groups = front ++ run :: back ∧
      c.content = String.ofList (trim (passage run)) ∧
      c.startLine = line + height front.flatten ∧
      c.endLine + 1 = line + height (front.flatten ++ run) := by
  induction groups generalizing line with
  | nil => exact absurd hc List.not_mem_nil
  | cons run rest ih =>
    obtain ⟨hrun, hrest⟩ := List.forall_mem_cons.mp hgroups
    have hheight := count_passage hrun
    rcases (mem_place_cons filePath).mp hc with hfirst | hlater
    · obtain ⟨hcontent, hstart, hend, -⟩ := chunk?_eq_some filePath hfirst
      refine ⟨[], run, rest, rfl, hcontent, hstart, ?_⟩
      rw [hend, List.flatten_nil, List.nil_append]
      omega
    · obtain ⟨front, run', back, rfl, hcontent, hstart, hend⟩ := ih hrest hlater
      refine ⟨run :: front, run', back, rfl, hcontent, ?_, ?_⟩
      · rw [hstart, List.flatten_cons, height_append]
        omega
      · rw [hend, List.flatten_cons, List.append_assoc, height_append run]
        omega

/-- A chunk made of the part `p` and those of `run`, which stand behind those of `before`. -/
structure Placed (before : List Part) (p : Part) (run : List Part) (c : Chunk) : Prop where
  content : c.content = String.ofList (trim (passage (p :: run)))
  startLine : (c.startLine : Int) =
    lineAfter (stretch before ++ p.glue) + drift (before ++ [p]).tail
  endLine : (c.endLine : Int) =
    lineAfter (stretch (before ++ p :: run)) + drift (before ++ p :: run).tail

variable {before run after : List Part} {p : Part} {c : Chunk}

/-- The heights of the parts before a chunk and of those up to its end place it. -/
theorem placed_of_heights (hcontent : c.content = String.ofList (trim (passage (p :: run))))
    (hstart : c.startLine = 1 + height before)
    (hend : c.endLine + 1 = 1 + height (before ++ p :: run)) {first : List Char}
    (hfirst : (before ++ p :: run).head? = some ⟨[], first⟩) : Placed before p run c := by
  have hhead : (before ++ [p]).head? = some ⟨[], first⟩ := by
    rw [← hfirst]
    cases before <;> rfl
  refine ⟨hcontent, ?_, ?_⟩
  · have hheight := height_eq_tail hhead
    simp only [height, stretch, lineAfter, hstart, List.map_append, List.sum_append,
      List.flatMap_append, List.count_append, List.map_cons, List.map_nil, List.sum_cons,
      List.sum_nil, List.flatMap_cons, List.flatMap_nil, List.count_nil] at hheight ⊢
    omega
  · have hheight := height_eq_tail hfirst
    unfold lineAfter
    omega

/-- Behind cuts at the ends of lines only, a chunk has the lines on which its passage stands. -/
theorem Placed.exact (h : Placed before p run c)
    (hcuts : ∀ q ∈ (before ++ p :: run).tail, q.glue = ['\n']) :
    c.startLine = lineAfter (stretch before ++ p.glue) ∧
      c.endLine = lineAfter (stretch (before ++ p :: run)) := by
  have hsub : (before ++ [p]).tail ⊆ (before ++ p :: run).tail := by
    rw [List.append_cons]
    cases before <;> simp
  have hstart := h.startLine
  have hend := h.endLine
  rw [drift_eq_zero fun q hq => hcuts q (hsub hq)] at hstart
  rw [drift_eq_zero hcuts] at hend
  omega

theorem Placed.endLine_le {text : List Char} (h : Placed before p run c)
    (htext : stretch (before ++ p :: run ++ after) = text) :
    c.endLine ≤ (splitLines text).length +
      (before ++ p :: run ++ after).tail.countP Part.isInner := by
  have hend := h.endLine
  have hdrift := drift_le (before ++ p :: run).tail
  have hcuts : (before ++ p :: run).tail.countP Part.isInner ≤
      (before ++ p :: run ++ after).tail.countP Part.isInner := by
    apply List.Sublist.countP_le
    exact (List.sublist_append_left _ after).tail
  rw [length_splitLines, ← htext, stretch_append, List.count_append]
  unfold lineAfter at hend
  omega

/-- The lines of a chunk are those of the file, moved down a line for each cut inside a line and up
a line for each cut at an empty line that was made up to there. -/
theorem chunks_drift (limits : ChunkLimits) (filePath : String) (text : List Char) :
    ∃ parts, Dissected limits.maxSize text parts ∧
      ∀ c ∈ chunks limits filePath text, ∃ before p run after,
        parts = before ++ p :: run ++ after ∧ Placed before p run c ∧
          ((∀ q ∈ (before ++ p :: run).tail, q.glue = ['\n']) →
            c.startLine = lineAfter (stretch before ++ p.glue) ∧
              c.endLine = lineAfter (stretch (before ++ p :: run))) ∧
          c.endLine ≤ (splitLines text).length + parts.tail.countP Part.isInner := by
  obtain ⟨parts, hparts⟩ := exists_dissected limits.maxSize text
  refine ⟨parts, hparts, fun c hc => ?_⟩
  obtain ⟨groups, hflat, hgroups, hjoin⟩ := join_groups limits parts
  rw [chunks, ← hparts.pieces_eq, hjoin] at hc
  split at hc
  · exact absurd hc List.not_mem_nil
  obtain ⟨front, group, back, hsplit, hcontent, hstart, hend⟩ :=
    exists_group_of_mem_place filePath hgroups hc
  obtain ⟨p, run, rfl⟩ : ∃ p run, group = p :: run :=
    List.exists_cons_of_ne_nil (hgroups group (hsplit ▸ by simp))
  have heq : parts = front.flatten ++ p :: run ++ back.flatten := by
    rw [← hflat, hsplit]
    simp
  obtain ⟨first, hfirst⟩ := hparts.head
  have hhead : (front.flatten ++ p :: run).head? = some ⟨[], first⟩ := by
    rw [← hfirst, heq]
    cases front.flatten <;> rfl
  have hplaced := placed_of_heights hcontent hstart hend hhead
  exact ⟨front.flatten, p, run, back.flatten, heq, hplaced, hplaced.exact,
    heq ▸ hplaced.endLine_le (heq ▸ hparts.stretch_eq)⟩

/-- The second word of a text of one line is placed behind its end, and the last line of another
text on the empty line before. -/
theorem word_placed_past_the_end :
    (∃ c ∈ chunks ⟨2, 0⟩ "a.txt" "ab cd".toList,
      c.content = "cd" ∧ (splitLines "ab cd".toList).length < c.endLine) ∧
    ∃ c ∈ chunks ⟨2, 0⟩ "a.txt" "a\n\nb".toList,
      c.content = "b" ∧ c.startLine = 2 ∧ (splitLines "a\n\nb".toList)[1]? = some [] := by
  have hwords : join ⟨2, 0⟩ (pieces 2 separators "ab cd".toList) = [['a', 'b'], ['c', 'd']] := by
    cbv
  have hletters : join ⟨2, 0⟩ (pieces 2 separators "a\n\nb".toList) = [['a'], ['b']] := by cbv
  have hword : trim ['c', 'd'] = ['c', 'd'] := by cbv
  have hletter : trim ['b'] = ['b'] := by cbv
  have hline : splitLines "ab cd".toList = ["ab cd".toList] := by cbv
  have hlines : splitLines "a\n\nb".toList = ["a".toList, [], "b".toList] := by cbv
  have hink : isBlank "ab cd".toList = false ∧ isBlank "a\n\nb".toList = false := by
    constructor <;> cbv
  constructor
  · simp only [chunks, hink.1, hwords, place, chunk?, hword, hline]
    simp
  · simp only [chunks, hink.2, hletters, place, chunk?, hletter, hlines]
    simp

end Placing

end CodeSearch.Passages
