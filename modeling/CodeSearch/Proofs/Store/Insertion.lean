import CodeSearch.Proofs.Store.Novel

/-!
# What an insertion writes

Of the chunks that it is given, an insertion under a registered project writes those whose hash is
not stored and has not come before among them, in their order and with all that they say. Their
hashes are stored from then on, so whichever of them are given again are skipped.
-/

set_option autoImplicit false

namespace CodeSearch

section Fields

def StoredChunk.toChunk (r : StoredChunk) : Chunk where
  content := r.content
  filePath := r.filePath
  startLine := r.startLine
  endLine := r.endLine
  kind := r.kind
  language := r.language
  hash := r.hash
  size := r.size
  projectId := some r.projectId

/-- A number without a sign as it comes back from the database, which holds it with one. -/
def readBack (n : Nat) : Nat := (Word.signed n).toUInt64.toNat

/-- A row as it is read from its columns. -/
def StoredChunk.reread (r : StoredChunk) : StoredChunk :=
  { r with
    startLine := readBack r.startLine
    endLine := readBack r.endLine
    size := readBack r.size }

def Chunk.FitsWords (c : Chunk) : Prop :=
  c.startLine < UInt64.size ∧ c.endLine < UInt64.size ∧ c.size < UInt64.size

theorem readBack_of_lt {n : Nat} (h : n < UInt64.size) : readBack n = n := by
  rw [readBack, Word.signed, Int64.toUInt64_ofNat']
  exact UInt64.toNat_ofNat_of_lt' h

theorem StoredChunk.reread_of_fitsWords {r : StoredChunk} (h : r.toChunk.FitsWords) :
    r.reread = r := by
  have hstart : readBack r.startLine = r.startLine := readBack_of_lt h.1
  have hend : readBack r.endLine = r.endLine := readBack_of_lt h.2.1
  have hsize : readBack r.size = r.size := readBack_of_lt h.2.2
  rw [reread, hstart, hend, hsize]

end Fields

namespace Store
variable {s : Store} {projectId : Int}

section Firsts
variable {known : String → Bool}

/-- The chunks whose hash is not known and is that of no chunk in front of them. -/
def firsts (known : String → Bool) (chunks : List Chunk) : List Chunk :=
  (chunks.zipIdx.filter fun (c, place) =>
    !known c.hash && (chunks.take place).all fun d => d.hash != c.hash).map Prod.fst

theorem firsts_cons (c : Chunk) (rest : List Chunk) :
    firsts known (c :: rest) =
      if known c.hash then firsts known rest
      else c :: firsts (fun hash => known hash || c.hash == hash) rest := by
  -- The places of `rest` are those it has behind `c`, less one.
  have hbehind : firsts known (c :: rest) =
      (if known c.hash then [] else [c]) ++
        firsts (fun hash => known hash || c.hash == hash) rest := by
    rw [firsts, List.zipIdx_cons', List.filter_cons, List.filter_map, firsts]
    simp only [List.take_zero, List.all_nil, Bool.and_true, Function.comp_def, Prod.map,
      List.take_succ_cons, List.all_cons, Bool.not_or, Bool.and_assoc, bne]
    by_cases hknown : known c.hash = true
    · simp [hknown, Function.comp_def]
    · simp [hknown, Function.comp_def]
  rw [hbehind]
  split
  · rename_i hknown
    have hsame : (fun hash => known hash || c.hash == hash) = known :=
      funext (or_beq_of_known (c := row 0 0 c) hknown)
    rw [hsame, List.nil_append]
  · rw [List.singleton_append]

theorem novel_bareRows (chunks : List Chunk) :
    novel known (bareRows chunks) = bareRows (firsts known chunks) := by
  induction chunks generalizing known with
  | nil => rfl
  | cons c rest ih =>
    rw [bareRows, List.map_cons, novel, ← bareRows, firsts_cons, ih, ih]
    change (if known c.hash = true then _ else _) = _
    split
    · rfl
    · rfl

/-- Where no two hashes are the same, nothing is left out but what is known. -/
theorem firsts_of_nodup {chunks : List Chunk} (h : (chunks.map Chunk.hash).Nodup) :
    firsts known chunks = chunks.filter fun c => !known c.hash := by
  induction chunks generalizing known with
  | nil => rfl
  | cons c rest ih =>
    obtain ⟨hc, hrest⟩ := List.nodup_cons.mp h
    rw [firsts_cons, List.filter_cons]
    by_cases hknown : known c.hash = true
    · rw [if_pos hknown, ih hrest, hknown]
      rfl
    · have hother : ∀ d ∈ rest, (c.hash == d.hash) = false := by
        intro d hd
        apply beq_false_of_ne
        intro heq
        exact hc (heq ▸ List.mem_map_of_mem hd)
      rw [if_neg hknown, ih hrest, eq_false_of_ne_true hknown]
      congr 1
      apply List.filter_congr
      intro d hd
      rw [hother d hd, Bool.or_false]

end Firsts

section Insertion

theorem map_toChunk {rows : List StoredChunk} {chunks : List Chunk}
    (hproject : ∀ r ∈ rows, r.projectId = projectId)
    (h : rows.map StoredChunk.withoutIds = bareRows chunks) :
    rows.map StoredChunk.toChunk =
      chunks.map fun c => { c with projectId := some projectId } := by
  have hbare : ∀ r ∈ rows,
      r.toChunk = { r.withoutIds.toChunk with projectId := some projectId } := by
    intro r hr
    rw [← hproject r hr]
    rfl
  calc rows.map StoredChunk.toChunk
      = (rows.map StoredChunk.withoutIds).map
          fun r => { r.toChunk with projectId := some projectId } := by
        rw [List.map_map]
        exact List.map_congr_left hbare
    _ = chunks.map fun c => { c with projectId := some projectId } := by
        rw [h, bareRows, List.map_map]
        rfl

/-- An insertion under a registered project writes the first chunk of each hash that is not stored,
in order and unchanged, and nothing else; whichever of the chunks come again, under whichever
project, change no row. -/
theorem insertChunks_writes_firsts (h : s.hasProject projectId = true) (chunks : List Chunk) :
    ∃ rows s', s.insertChunks projectId chunks = .ok (s', rows) ∧
      s' = { s with
        chunks := s.chunks ++ rows
        lastChunkId := s.lastChunkId + chunks.length } ∧
      rows.map StoredChunk.toChunk =
        (firsts s.hasHash chunks).map (fun c => { c with projectId := some projectId }) ∧
      (rows.Pairwise (fun a b => a.id < b.id) ∧ ∀ r ∈ rows, s.lastChunkId < r.id) ∧
      ((∀ c ∈ chunks, c.FitsWords) → rows.map StoredChunk.reread = rows) ∧
      ∀ again other, again ⊆ chunks → s'.insertChunks other again =
        .ok ({ s' with lastChunkId := s'.lastChunkId + again.length }, []) := by
  obtain ⟨rows, hinsert, hproject, hnovel⟩ := insertChunks_novel h chunks
  have hfields : rows.map StoredChunk.toChunk =
      (firsts s.hasHash chunks).map fun c => { c with projectId := some projectId } := by
    rw [novel_bareRows] at hnovel
    exact map_toChunk hproject hnovel
  obtain ⟨hsorted, hids⟩ := insertChunks_ids hinsert
  refine ⟨rows, _, hinsert, rfl, hfields, ⟨hsorted, fun r hr => (hids r hr).1⟩, ?_, ?_⟩
  · intro hfits
    have hreread : ∀ r ∈ rows, r.reread = id r := by
      intro r hr
      obtain ⟨_, c, hc, rfl⟩ := (insertChunks_ok hinsert).2 r hr
      exact StoredChunk.reread_of_fitsWords (hfits c hc)
    rw [List.map_congr_left hreread, List.map_id]
  · intro again other hagain
    apply insertChunksFrom_of_hasHash
    intro c hc
    exact insertChunks_hasHash hinsert c (hagain hc)

/-- Two projects, the first with a note. -/
def twoRooms : Store where
  dimensions := 1
  projects := [⟨1, "d", "/d", none⟩, ⟨2, "e", "/e", none⟩]
  chunks := [⟨1, 1, "fish", "/d/a.md", 1, 1, "text", "md", "h1", 4⟩]
  lastProjectId := 2
  lastChunkId := 1

def noteAt (line : Nat) (content hash : String) : Chunk :=
  ⟨content, "/e/b.md", line, line, "text", "md", hash, 4, none⟩

/-- One is in the store already, and one comes twice. -/
def fourNotes : List Chunk :=
  [noteAt 1 "bird" "h2", noteAt 2 "fish" "h1", noteAt 3 "bird" "h2", noteAt 4 "fern" "h3"]

theorem two_of_four_written : twoRooms.hasProject 2 = true ∧ (∀ c ∈ fourNotes, c.FitsWords) ∧
    ∃ rows s', twoRooms.insertChunks 2 fourNotes = .ok (s', rows) ∧
      s'.chunks = twoRooms.chunks ++ rows ∧ rows.map StoredChunk.reread = rows ∧
      rows.map StoredChunk.toChunk =
        [{ noteAt 1 "bird" "h2" with projectId := some 2 },
          { noteAt 4 "fern" "h3" with projectId := some 2 }] ∧
      s'.insertChunks 2 fourNotes.reverse =
        .ok ({ s' with lastChunkId := s'.lastChunkId + 4 }, []) := by
  have hproject : twoRooms.hasProject 2 = true := by decide
  have hfits : ∀ c ∈ fourNotes, c.FitsWords := by
    unfold Chunk.FitsWords
    decide
  obtain ⟨rows, s', hinsert, hs', hfields, _, hreread, hagain⟩ :=
    insertChunks_writes_firsts hproject fourNotes
  have hreverse : fourNotes.reverse ⊆ fourNotes := List.reverse_subset.mpr (List.Subset.refl _)
  refine ⟨hproject, hfits, rows, s', hinsert, ?_, hreread hfits, ?_, hagain _ 2 hreverse⟩
  · rw [hs']
  · rw [hfields]
    decide

end Insertion

end Store

end CodeSearch
