import CodeSearch.Proofs.Outline.Excerpts
import CodeSearch.Proofs.Store.Insertion
import CodeSearch.Proofs.Text.Bytes

/-!
# Spans and their hashes

The hash of a span is taken of its file, its lines and its text with zero bytes between them. A path
without a zero character is told from what follows it, and a number has no zero byte in it, so
the bytes say all four; the text comes last and may hold any characters.

The chunks of a file start at different lines. As long as the digest tells their bytes apart, none
of them is taken for another when they are stored.
-/

set_option autoImplicit false

namespace CodeSearch

section Fields

theorem append_zero_inj {xs xs' ys ys' : List UInt8} (hxs : 0 ∉ xs) (hxs' : 0 ∉ xs')
    (h : xs ++ 0 :: ys = xs' ++ 0 :: ys') : xs = xs' ∧ ys = ys' := by
  induction xs generalizing xs' with
  | nil =>
    cases xs' with
    | nil => exact ⟨rfl, (List.cons.inj h).2⟩
    | cons b xs' =>
      have hb : 0 = b := (List.cons.inj h).1
      exact absurd (hb ▸ List.mem_cons_self) hxs'
  | cons a xs ih =>
    cases xs' with
    | nil =>
      have ha : a = 0 := (List.cons.inj h).1
      exact absurd (ha ▸ List.mem_cons_self) hxs
    | cons b xs' =>
      obtain ⟨rfl, hrest⟩ := List.cons.inj h
      obtain ⟨rfl, hys⟩ := ih (List.not_mem_of_not_mem_cons hxs)
        (List.not_mem_of_not_mem_cons hxs') hrest
      exact ⟨rfl, hys⟩

theorem field_inj {cs cs' : List Char} {rest rest' : List UInt8} (hcs : '\x00' ∉ cs)
    (hcs' : '\x00' ∉ cs') (h : Text.utf8 cs ++ 0 :: rest = Text.utf8 cs' ++ 0 :: rest') :
    cs = cs' ∧ rest = rest' := by
  obtain ⟨hbytes, hrest⟩ :=
    append_zero_inj (Text.zero_notMem_utf8 hcs) (Text.zero_notMem_utf8 hcs') h
  exact ⟨Text.utf8_injective hbytes, hrest⟩

theorem zero_notMem_toDigits (n : Nat) : '\x00' ∉ Nat.toDigits 10 n := by
  intro hmem
  have hdigit := Nat.isDigit_of_mem_toDigits (by decide) (by decide) hmem
  exact absurd hdigit (by decide)

theorem number_inj {n n' : Nat} {rest rest' : List UInt8}
    (h : Text.utf8 (Nat.toDigits 10 n) ++ 0 :: rest =
      Text.utf8 (Nat.toDigits 10 n') ++ 0 :: rest') : n = n' ∧ rest = rest' := by
  obtain ⟨hdigits, hrest⟩ := field_inj (zero_notMem_toDigits n) (zero_notMem_toDigits n') h
  have hread := congrArg (Nat.ofDigitChars 10 · 0) hdigits
  simp only [Nat.ofDigitChars_ten_toDigits] at hread
  exact ⟨hread, hrest⟩

variable {path path' : String} {first first' last last' : Nat} {content content' : List Char}

theorem spanKey_inj (hpath : '\x00' ∉ path.toList) (hpath' : '\x00' ∉ path'.toList)
    (h : spanKey path first last content = spanKey path' first' last' content') :
    path = path' ∧ first = first' ∧ last = last' ∧ content = content' := by
  obtain ⟨hpaths, h⟩ := field_inj hpath hpath' h
  obtain ⟨hfirst, h⟩ := number_inj h
  obtain ⟨hlast, h⟩ := number_inj h
  exact ⟨String.toList_inj.mp hpaths, hfirst, hlast, Text.utf8_injective h⟩

/-- Within one file any path will do. -/
theorem first_eq_of_spanKey_eq
    (h : spanKey path first last content = spanKey path first' last' content') : first = first' :=
  (number_inj (List.cons.inj (List.append_cancel_left h)).2).1

end Fields

/-- What the hash of a span is taken of, for a chunk. -/
def Chunk.spanKey (c : Chunk) : List UInt8 :=
  CodeSearch.spanKey c.filePath c.startLine c.endLine c.content.toList

namespace Outline
variable {text : List Char} {limits : ChunkLimits} {filePath : String} {language : Language}
  {root : ParseTree} {cs : List Chunk}

theorem hash_of_mem_chunks (h : chunks? (.ofText text) limits filePath language root = some cs)
    {c : Chunk} (hc : c ∈ cs) : c.hash = Digest.Sha256.hexDigest c.spanKey := by
  obtain rfl := chunks?_eq_some _ _ _ _ _ h
  obtain ⟨e, _, rfl⟩ := List.mem_map.mp hc
  rw [Chunk.spanKey, chunkOf, chunkOn, String.toList_ofList]
  rfl

theorem nodup_spanKeys (h : chunks? (.ofText text) limits filePath language root = some cs) :
    (cs.map Chunk.spanKey).Nodup := by
  have hplaced := placed_chunks text limits filePath language root h
  have hpath : ∀ c ∈ cs, c.filePath = filePath := by
    intro c hc
    obtain rfl := chunks?_eq_some _ _ _ _ _ h
    obtain ⟨e, _, rfl⟩ := List.mem_map.mp hc
    rfl
  rw [List.Nodup, List.pairwise_map]
  apply hplaced.ordered.imp_of_mem
  intro a b ha hb hbehind heq
  rw [Chunk.spanKey, Chunk.spanKey, hpath a ha, hpath b hb] at heq
  have hsame : a.startLine = b.startLine := first_eq_of_spanKey_eq heq
  have hlines := hplaced.lines a ha
  omega

/-- The digest tells the bytes of these chunks apart. -/
def NoCollision (chunks : List Chunk) : Prop :=
  ∀ a ∈ chunks, ∀ b ∈ chunks,
    Digest.Sha256.hexDigest a.spanKey = Digest.Sha256.hexDigest b.spanKey → a.spanKey = b.spanKey

theorem nodup_hashes (h : chunks? (.ofText text) limits filePath language root = some cs)
    (hapart : NoCollision cs) : (cs.map Chunk.hash).Nodup := by
  have hkeys := nodup_spanKeys h
  rw [List.Nodup, List.pairwise_map] at hkeys ⊢
  apply hkeys.imp_of_mem
  intro a b ha hb hne heq
  rw [hash_of_mem_chunks h ha, hash_of_mem_chunks h hb] at heq
  exact hne (hapart a ha b hb heq)

/-- The bytes that a span is hashed by say its file, its lines and its text. All chunks of a file
have bytes of their own; while the digest tells them apart, an insertion under a registered project
writes every one that has a hash which was not stored before. -/
theorem spans_told_apart :
    (∀ (path path' : String) (first first' last last' : Nat) (content content' : List Char),
      '\x00' ∉ path.toList → '\x00' ∉ path'.toList →
      spanKey path first last content = spanKey path' first' last' content' →
      path = path' ∧ first = first' ∧ last = last' ∧ content = content') ∧
    ∀ (text : List Char) (limits : ChunkLimits) (path : String) (language : Language)
      (root : ParseTree) (cs : List Chunk),
      chunks? (.ofText text) limits path language root = some cs →
      (∀ c ∈ cs, c.hash = Digest.Sha256.hexDigest c.spanKey) ∧
      (cs.map Chunk.spanKey).Nodup ∧
      (NoCollision cs → ∀ (s : Store) (projectId : Int), s.hasProject projectId = true →
        ∃ rows s', s.insertChunks projectId cs = .ok (s', rows) ∧
          s'.chunks = s.chunks ++ rows ∧
          rows.map StoredChunk.toChunk = (cs.filter fun c => !s.hasHash c.hash).map
            fun c => { c with projectId := some projectId }) := by
  constructor
  · intro path path' first first' last last' content content' hpath hpath' heq
    exact spanKey_inj hpath hpath' heq
  · intro text limits path language root cs h
    refine ⟨fun c hc => hash_of_mem_chunks h hc, nodup_spanKeys h, ?_⟩
    intro hapart s projectId hproject
    obtain ⟨rows, hinsert, hrows, hnovel⟩ := Store.insertChunks_novel hproject cs
    refine ⟨rows, _, hinsert, rfl, ?_⟩
    rw [Store.novel_bareRows, Store.firsts_of_nodup (nodup_hashes h hapart)] at hnovel
    exact Store.map_toChunk hrows hnovel

/-- Two lines that say the same. -/
def twinLines : ParseTree :=
  .node "file" 0 3 0 1 [.node "line" 0 1 0 0 [], .node "line" 2 3 1 1 []]

def twinChunks : List Chunk :=
  [chunkOn 1 1 "/d/a.rs" .rust ⟨⟨0, 0, "line"⟩, ['x']⟩,
    chunkOn 2 2 "/d/a.rs" .rust ⟨⟨1, 1, "line"⟩, ['x']⟩]

theorem chunks?_twinLines :
    chunks? (.ofText "x\nx".toList) ⟨1, 0⟩ "/d/a.rs" .rust twinLines = some twinChunks := by
  have hexcerpts : excerpts (.ofText "x\nx".toList) ⟨1, 0⟩ twinLines =
      [⟨⟨0, 0, "line"⟩, ['x']⟩, ⟨⟨1, 1, "line"⟩, ['x']⟩] := by decide +kernel
  rw [chunks?, hexcerpts]
  rfl

def oneShelf : Store where
  dimensions := 1
  projects := [⟨1, "d", "/d", none⟩]
  lastProjectId := 1

theorem twin_lines_both_written :
    spanKey "f" 1 14 ['x'] ≠ spanKey "f" 11 4 ['x'] ∧ NoCollision twinChunks ∧
    oneShelf.hasProject 1 = true ∧
    ∃ rows s', oneShelf.insertChunks 1 twinChunks = .ok (s', rows) ∧
      rows.map (fun r => (r.toChunk.startLine, r.toChunk.content)) = [(1, "x"), (2, "x")] := by
  have hapart : NoCollision twinChunks := by
    unfold NoCollision
    decide +kernel
  have hproject : oneShelf.hasProject 1 = true := by decide
  refine ⟨?_, hapart, hproject, ?_⟩
  · intro heq
    have hfields := spans_told_apart.1 "f" "f" 1 11 14 4 ['x'] ['x'] (by decide) (by decide) heq
    exact absurd hfields.2.1 (by decide)
  · obtain ⟨-, -, hwritten⟩ :=
      spans_told_apart.2 "x\nx".toList ⟨1, 0⟩ "/d/a.rs" .rust twinLines _ chunks?_twinLines
    obtain ⟨rows, s', hinsert, -, hrows⟩ := hwritten hapart oneShelf 1 hproject
    have hboth := congrArg (List.map fun c : Chunk => (c.startLine, c.content)) hrows
    rw [List.map_map] at hboth
    exact ⟨rows, s', hinsert, hboth.trans (by decide +kernel)⟩

end Outline

end CodeSearch
