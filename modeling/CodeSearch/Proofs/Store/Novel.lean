import CodeSearch.Proofs.Store.Rows

/-!
# New rows

An insertion under a project writes what is new among its chunks: the chunks whose hash is not
stored yet, each hash once, in order. Rows are compared here without their ids, which depend on all
that was inserted before, also under other projects.
-/

set_option autoImplicit false

namespace CodeSearch

def StoredChunk.withoutIds (c : StoredChunk) : StoredChunk := { c with id := 0, projectId := 0 }

namespace Store

/-- The rows whose hash is not known, and of several with one hash the first. -/
def novel (known : String → Bool) : List StoredChunk → List StoredChunk
  | [] => []
  | c :: rest =>
    if known c.hash then novel known rest
    else c :: novel (fun hash => known hash || c.hash == hash) rest

/-- What the rows of some chunks say, whoever inserts them. -/
def bareRows (chunks : List Chunk) : List StoredChunk := chunks.map (row 0 0)

/-- The chunks of a project in the order of the store, ids apart. -/
def contents (s : Store) (projectId : Int) : List StoredChunk :=
  (s.chunks.filter fun c => c.projectId == projectId).map StoredChunk.withoutIds

section Novel
variable {known more : String → Bool}

theorem or_beq_of_known {c : StoredChunk} (h : known c.hash = true) (hash : String) :
    (known hash || c.hash == hash) = known hash := by
  by_cases heq : c.hash = hash
  · rw [← heq, h, Bool.true_or]
  · rw [beq_eq_false_iff_ne.mpr heq, Bool.or_false]

theorem any_novel (rows : List StoredChunk) (hash : String) :
    (known hash || (novel known rows).any fun c => c.hash == hash) =
      (known hash || rows.any fun c => c.hash == hash) := by
  induction rows generalizing known with
  | nil => rfl
  | cons c rest ih =>
    unfold novel
    split
    · rename_i hknown
      rw [ih, List.any_cons, ← Bool.or_assoc, or_beq_of_known hknown]
    · rw [List.any_cons, List.any_cons, ← Bool.or_assoc, ← Bool.or_assoc]
      exact @ih fun hash => known hash || c.hash == hash

/-- What comes later is new if its hash was not known and has not come before. -/
theorem novel_append (rows rows' : List StoredChunk) :
    novel known (rows ++ rows') = novel known rows ++
      novel (fun hash => known hash || rows.any fun c => c.hash == hash) rows' := by
  induction rows generalizing known with
  | nil => simp [novel]
  | cons c rest ih =>
    rw [List.cons_append, novel, novel]
    split
    · rename_i hknown
      rw [ih]
      congr 2
      funext hash
      rw [List.any_cons, ← Bool.or_assoc, or_beq_of_known hknown]
    · rw [ih, List.cons_append]
      congr 3
      funext hash
      rw [List.any_cons, Bool.or_assoc]

/-- To know more hashes beforehand leaves out the rows that have them, and nothing else. -/
theorem novel_or (rows : List StoredChunk) :
    novel (fun hash => known hash || more hash) rows =
      (novel known rows).filter fun c => !more c.hash := by
  induction rows generalizing known with
  | nil => rfl
  | cons c rest ih =>
    by_cases hknown : known c.hash = true
    · rw [novel, if_pos (by simp [hknown]), ih, novel, if_pos hknown]
    · -- From here on the hash of `c` is known to the right side, and to the left side as well.
      have hsame : (fun hash => (known hash || c.hash == hash) || more hash) =
          fun hash => (known hash || more hash) || c.hash == hash := by
        funext hash
        rw [Bool.or_assoc, Bool.or_assoc, Bool.or_comm (c.hash == hash)]
      rw [novel, novel, if_neg hknown, List.filter_cons, ← ih, hsame]
      by_cases hmore : more c.hash = true
      · rw [if_pos (by simp [hmore]), if_neg (by simp [hmore])]
        congr 1
        funext hash
        rw [Bool.or_assoc, or_beq_of_known hmore]
      · rw [if_neg (by simp [hknown, hmore]), if_pos (by simp [hmore])]

end Novel

section Insertion
variable {s : Store} {projectId : Int}

theorem insertChunksFrom_novel (h : s.hasProject projectId = true) (written : List StoredChunk)
    (chunks : List Chunk) :
    ∃ new, insertChunksFrom projectId s written chunks =
        .ok ({ s with
          chunks := s.chunks ++ new
          lastChunkId := s.lastChunkId + chunks.length }, written.reverse ++ new) ∧
      (∀ c ∈ new, c.projectId = projectId) ∧
      new.map StoredChunk.withoutIds = novel s.hasHash (bareRows chunks) := by
  induction chunks generalizing s written with
  | nil => exact ⟨[], by simp [insertChunksFrom], by simp, rfl⟩
  | cons c rest ih =>
    have hlast : s.lastChunkId + 1 + (rest.length : Int) =
        s.lastChunkId + ((c :: rest).length : Nat) := by
      simp only [List.length_cons]
      omega
    rw [insertChunksFrom, bareRows, List.map_cons, novel, ← bareRows]
    by_cases hhas : s.hasHash c.hash = true
    · have hskip : Store.hasHash { s with lastChunkId := s.lastChunkId + 1 } c.hash = true := hhas
      obtain ⟨new, hinsert, hproject, hnew⟩ := ih (s := { s with lastChunkId := s.lastChunkId + 1 })
        h written
      refine ⟨new, ?_, hproject, ?_⟩
      · rw [if_pos hskip, hinsert, ← hlast]
      · exact hnew.trans (if_pos hhas).symm
    · have hwrite : ¬ Store.hasHash { s with lastChunkId := s.lastChunkId + 1 } c.hash = true :=
        hhas
      have hregistered : Store.hasProject { s with lastChunkId := s.lastChunkId + 1 } projectId =
          true := h
      let r := row (s.lastChunkId + 1) projectId c
      obtain ⟨new, hinsert, hproject, hnew⟩ := ih
        (s := { s with chunks := s.chunks ++ [r], lastChunkId := s.lastChunkId + 1 }) h
        (r :: written)
      refine ⟨r :: new, ?_, List.forall_mem_cons.mpr ⟨rfl, hproject⟩, ?_⟩
      · rw [if_neg hwrite, if_pos hregistered, hinsert, ← hlast]
        simp [r]
      · have hknown : Store.hasHash
            { s with chunks := s.chunks ++ [r], lastChunkId := s.lastChunkId + 1 } =
              fun hash => s.hasHash hash || c.hash == hash := by
          funext hash
          simp [hasHash, r, row]
        rw [List.map_cons, hnew, hknown]
        exact (if_neg hhas).symm

/-- An insertion under a project that is registered succeeds, and says what it has written. -/
theorem insertChunks_novel (h : s.hasProject projectId = true) (chunks : List Chunk) :
    ∃ rows, s.insertChunks projectId chunks =
        .ok ({ s with
          chunks := s.chunks ++ rows
          lastChunkId := s.lastChunkId + chunks.length }, rows) ∧
      (∀ c ∈ rows, c.projectId = projectId) ∧
      rows.map StoredChunk.withoutIds = novel s.hasHash (bareRows chunks) :=
  insertChunksFrom_novel h [] chunks

end Insertion

section Extension
variable {s s' s'' : Store} {projectId : Int} {offered offered' : List Chunk}

/-- `s'` is `s` after these chunks have been offered to it under a project, at once or bit by bit,
whatever embeddings came in between. -/
structure Extends (projectId : Int) (s : Store) (offered : List Chunk) (s' : Store) : Prop where
  dimensions : s'.dimensions = s.dimensions
  projects : s'.projects = s.projects
  rows : ∃ new, s'.chunks = s.chunks ++ new ∧ (∀ c ∈ new, c.projectId = projectId) ∧
    new.map StoredChunk.withoutIds = novel s.hasHash (bareRows offered)

namespace Extends

theorem refl (projectId : Int) (s : Store) : Extends projectId s [] s :=
  ⟨rfl, rfl, [], by simp, by simp, rfl⟩

theorem hasHash (h : Extends projectId s offered s') :
    s'.hasHash = fun hash => s.hasHash hash || (bareRows offered).any fun c => c.hash == hash := by
  obtain ⟨new, hchunks, _, hnew⟩ := h.rows
  funext hash
  have hbare : (new.map StoredChunk.withoutIds).any (fun c => c.hash == hash) =
      new.any fun c => c.hash == hash := List.any_map
  rw [← any_novel, ← hnew, hbare, Store.hasHash, hchunks, List.any_append, ← Store.hasHash]

theorem trans (h : Extends projectId s offered s') (h' : Extends projectId s' offered' s'') :
    Extends projectId s (offered ++ offered') s'' := by
  obtain ⟨new, hchunks, hproject, hnew⟩ := h.rows
  obtain ⟨new', hchunks', hproject', hnew'⟩ := h'.rows
  refine ⟨h'.dimensions.trans h.dimensions, h'.projects.trans h.projects, new ++ new', ?_, ?_, ?_⟩
  · rw [hchunks', hchunks, List.append_assoc]
  · intro c hc
    exact (List.mem_append.mp hc).elim (hproject c) (hproject' c)
  · rw [List.map_append, hnew, hnew', h.hasHash, bareRows, bareRows, bareRows, List.map_append,
      novel_append]

theorem hasProject (h : Extends projectId s offered s') (id : Int) :
    s'.hasProject id = s.hasProject id := by
  rw [Store.hasProject, h.projects, ← Store.hasProject]

theorem hasChunk (h : Extends projectId s offered s') {id : Int} (hhas : s.hasChunk id = true) :
    s'.hasChunk id = true := by
  obtain ⟨_, hchunks, _⟩ := h.rows
  rw [Store.hasChunk] at hhas ⊢
  rw [hchunks, List.any_append, hhas, Bool.true_or]

theorem contents (h : Extends projectId s offered s')
    (hvacant : ∀ c ∈ s.chunks, c.projectId ≠ projectId) :
    s'.contents projectId = novel s.hasHash (bareRows offered) := by
  obtain ⟨new, hchunks, hproject, hnew⟩ := h.rows
  have hold : s.chunks.filter (fun c => c.projectId == projectId) = [] := by
    apply List.filter_eq_nil_iff.mpr
    intro c hc
    simpa using hvacant c hc
  have hall : new.filter (fun c => c.projectId == projectId) = new := by
    apply List.filter_eq_self.mpr
    intro c hc
    simpa using hproject c hc
  rw [Store.contents, hchunks, List.filter_append, hold, hall, List.nil_append, hnew]

end Extends

theorem extends_insertChunks (h : s.hasProject projectId = true) {chunks : List Chunk}
    {rows : List StoredChunk} (hinsert : s.insertChunks projectId chunks = .ok (s', rows)) :
    Extends projectId s chunks s' := by
  obtain ⟨rows', hinsert', hproject, hnew⟩ := insertChunks_novel h chunks
  obtain ⟨rfl, rfl⟩ := Prod.mk.inj (Except.ok.inj (hinsert'.symm.trans hinsert))
  exact ⟨rfl, rfl, rows', rfl, hproject, hnew⟩

end Extension

end Store

end CodeSearch
