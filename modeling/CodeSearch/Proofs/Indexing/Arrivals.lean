import CodeSearch.Proofs.Indexing.Runs
import CodeSearch.Proofs.Store.Novel

/-!
# Runs with a provider that works

If each request is answered as it should be then no file fails and nothing is removed. What a run
adds to the store is then told by the order in which its files come to the store: of all their
chunks, those that are new.
-/

set_option autoImplicit false

namespace CodeSearch

section Providers
variable {width : Nat}

/-- A request is answered with a vector of that width for each text. -/
def Provider.Works (p : Provider) (width : Nat) : Prop :=
  ∀ texts, ∃ vectors, p.answer texts = .vectors vectors ∧ vectors.length = texts.length ∧
    ∀ v ∈ vectors, v.length = width

/-- Each chunk gets a vector of that width. -/
def Embedder.Works (embedder : Embedder) (width : Nat) : Prop :=
  ∀ pending, ∃ vectors, embedder pending = .ok vectors ∧ vectors.length = pending.length ∧
    ∀ v ∈ vectors, v.length = width

theorem EmbeddingClient.collect_of_works {p : Provider} (h : p.Works width)
    (requests : List (List String)) :
    hasCrash (requests.map p.answer) = false ∧
      ∃ vectors, collect (requests.map p.answer) = .ok vectors ∧
        vectors.length = requests.flatten.length ∧ ∀ v ∈ vectors, v.length = width := by
  induction requests with
  | nil => exact ⟨rfl, [], rfl, rfl, by simp⟩
  | cons texts rest ih =>
    obtain ⟨hcrash, more, hmore, hlength, hwidth⟩ := ih
    obtain ⟨vectors, hanswer, hlength', hwidth'⟩ := h texts
    rw [List.map_cons, hanswer]
    refine ⟨?_, vectors ++ more, ?_, ?_, ?_⟩
    · rw [hasCrash] at hcrash ⊢
      rw [List.any_cons, hcrash, Bool.or_false]
    · simp only [collect, hmore]
    · simp [hlength, hlength']
    · intro v hv
      exact (List.mem_append.mp hv).elim (hwidth' v) (hwidth v)

theorem EmbeddingClient.works_embedChunks {c : EmbeddingClient} (h : c.provider.Works width) :
    Embedder.Works c.embedChunks width := by
  intro pending
  unfold embedChunks
  generalize htexts : pending.map (fun k => embeddingText k.filePath k.kind k.content) = texts
  have hlen : texts.length = pending.length := by rw [← htexts, List.length_map]
  rw [embedTexts, ← hlen]
  split
  · rename_i hempty
    rw [List.isEmpty_iff.mp hempty]
    exact ⟨[], rfl, rfl, by simp⟩
  · obtain ⟨hcrash, vectors, hcollect, hlength, hwidth⟩ :=
      collect_of_works h (c.requests texts)
    rw [requests, flatten_groupsOf] at hlength
    refine ⟨vectors, ?_, hlength, hwidth⟩
    simp only [combine, hcrash, Bool.false_eq_true, if_false, hcollect, hlength, if_true]

end Providers

namespace Store
variable {s : Store}

theorem forM_checkDimensions {vectors : List Vec} (h : ∀ v ∈ vectors, v.length = s.dimensions) :
    vectors.forM s.checkDimensions = .ok () := by
  induction vectors with
  | nil => rfl
  | cons v rest ih =>
    obtain ⟨hv, hrest⟩ := List.forall_mem_cons.mp h
    have hcheck : s.checkDimensions v = .ok () := if_pos hv
    change (s.checkDimensions v >>= fun _ => rest.forM s.checkDimensions) = .ok ()
    rw [hcheck]
    exact ih hrest

theorem exists_insertEmbeddingsFrom {pairs : List (Int × Vec)}
    (h : ∀ pair ∈ pairs, s.hasChunk pair.1 = true) (written : Nat) :
    ∃ result, insertEmbeddingsFrom s written pairs = .ok result := by
  induction pairs generalizing s written with
  | nil => exact ⟨_, rfl⟩
  | cons pair rest ih =>
    obtain ⟨id, vector⟩ := pair
    obtain ⟨hid, hrest⟩ := List.forall_mem_cons.mp h
    have hpresent : s.hasChunk id = true := hid
    rw [insertEmbeddingsFrom, if_pos hpresent]
    split
    · exact ih hrest written
    · have hrest' : ∀ pair ∈ rest, Store.hasChunk
          { s with embeddings := s.embeddings ++ [⟨id, vector⟩] } pair.1 = true := hrest
      exact ih hrest' (written + 1)

/-- One vector of the right width for each of some stored chunks is what can be stored. -/
theorem exists_insertEmbeddings {ids : List Int} {vectors : List Vec}
    (hids : ∀ id ∈ ids, s.hasChunk id = true) (hlength : vectors.length = ids.length)
    (hwidth : ∀ v ∈ vectors, v.length = s.dimensions) :
    ∃ result, s.insertEmbeddings ids vectors = .ok result := by
  rw [insertEmbeddings, if_neg (by omega), forM_checkDimensions hwidth]
  apply exists_insertEmbeddingsFrom
  rintro ⟨id, vector⟩ hpair
  exact hids id (List.of_mem_zip hpair).1

end Store

namespace FileTask
variable {s s' : Store} {projectId : Int} {cut : Cut} {offered : List Chunk} {t : FileTask}

/-- The task of a file that was cut so has not failed, unless the worker died, and what it holds can
be stored. -/
def Sound (projectId : Int) (cut : Cut) (s : Store) : FileTask → Prop
  | .cut projectId' chunks => projectId' = projectId ∧ cut = .made chunks
  | .stored _ pending => ∀ c ∈ pending, s.hasChunk c.id = true
  | .embedded _ pending vectors => (∀ c ∈ pending, s.hasChunk c.id = true) ∧
      vectors.length = pending.length ∧ ∀ v ∈ vectors, v.length = s.dimensions
  | .done (.ok _) => True
  | .done (.error e) => ∃ reason, cut = .died reason ∧ e = .worker reason
  | .failing _ _ => False

theorem sound_start (projectId : Int) (cut : Cut) (s : Store) :
    (start projectId cut).Sound projectId cut s := by
  cases cut with
  | made chunks => exact ⟨rfl, rfl⟩
  | died reason => exact ⟨reason, rfl, rfl⟩

/-- Whether the chunks of the file are still to be stored. -/
def isCut : FileTask → Bool
  | .cut _ _ => true
  | .stored _ _ | .embedded _ _ _ | .failing _ _ | .done _ => false

theorem Sound.mono (h : t.Sound projectId cut s) (hext : Store.Extends projectId s offered s') :
    t.Sound projectId cut s' := by
  cases t with
  | cut => exact h
  | stored n pending => exact fun c hc => hext.hasChunk (h c hc)
  | embedded n pending vectors =>
    exact ⟨fun c hc => hext.hasChunk (h.1 c hc), h.2.1, by rw [hext.dimensions]; exact h.2.2⟩
  | failing => exact h
  | done result => cases result <;> exact h

theorem hasChunk_of_unembedded {filePath : String} :
    ∀ c ∈ s.unembedded projectId filePath, s.hasChunk c.id = true := by
  intro c hc
  exact List.any_eq_true.mpr ⟨c, (Store.mem_unembedded.mp hc).1, beq_self_eq_true c.id⟩

/-- A step of a sound task whose request is answered leaves it sound. Only the first step adds rows:
those of its chunks that are new. -/
theorem Sound.step (h : t.Sound projectId cut s) (hregistered : s.hasProject projectId = true)
    {embedder : Embedder} (hworks : Embedder.Works embedder s.dimensions) :
    (t.step embedder s).2.Sound projectId cut (t.step embedder s).1 ∧
      Store.Extends projectId s (if t.isCut then cut.chunks else []) (t.step embedder s).1 := by
  cases t with
  | cut projectId' chunks =>
    obtain ⟨rfl, rfl⟩ := h
    simp only [FileTask.step, insert, isCut, if_true, Cut.chunks]
    cases chunks with
    | nil => exact ⟨trivial, Store.Extends.refl projectId' s⟩
    | cons first rest =>
      obtain ⟨rows, hinsert, _⟩ := Store.insertChunks_novel hregistered (first :: rest)
      have hext := Store.extends_insertChunks hregistered hinsert
      rw [hinsert]
      simp only
      split
      · exact ⟨trivial, hext⟩
      · exact ⟨hasChunk_of_unembedded, hext⟩
  | stored n pending =>
    obtain ⟨vectors, hanswer, hlength, hwidth⟩ := hworks pending
    simp only [FileTask.step, embed, hanswer]
    exact ⟨⟨h, hlength, hwidth⟩, Store.Extends.refl projectId s⟩
  | embedded n pending vectors =>
    obtain ⟨hids, hlength, hwidth⟩ := h
    have hids' : ∀ id ∈ pending.map StoredChunk.id, s.hasChunk id = true := by
      intro id hid
      obtain ⟨c, hc, rfl⟩ := List.mem_map.mp hid
      exact hids c hc
    obtain ⟨⟨s', total⟩, hkeep⟩ := Store.exists_insertEmbeddings hids'
      (hlength.trans (List.length_map _).symm) hwidth
    obtain ⟨_, hs', _⟩ := Store.insertEmbeddings_ok hkeep
    simp only [FileTask.step, keep, hkeep]
    rw [hs']
    -- Embeddings come in, but no rows.
    exact ⟨trivial, rfl, rfl, [], by simp, by simp, rfl⟩
  | failing => exact h.elim
  | done result => exact ⟨h, Store.Extends.refl projectId s⟩

end FileTask

namespace IndexRun
variable {cut : String → Cut} {r : IndexRun}

/-- The chunks of some files, one file after another. -/
def chunksOf (cut : String → Cut) (paths : List String) : List Chunk :=
  paths.flatMap fun path => (cut path).chunks

theorem chunksOf_append (cut : String → Cut) (paths paths' : List String) :
    chunksOf cut (paths ++ paths') = chunksOf cut paths ++ chunksOf cut paths' :=
  List.flatMap_append

/-- The files whose chunks the moves offer to the store, in that order. -/
def arrivals (cut : String → Cut) (r : IndexRun) : List Move → List String
  | [] => []
  | .step place embedder :: moves =>
    ((r.files[place]?.filter fun f => f.task.isCut).map RunFile.path).toList ++
      arrivals cut (r.step place embedder) moves
  | .takeUp :: moves => arrivals cut (r.takeUp cut) moves

/-- Each request in the course of the moves is answered as it should be. -/
def AllWork (width : Nat) (moves : List Move) : Prop :=
  ∀ place embedder, .step place embedder ∈ moves → Embedder.Works embedder width

/-- No file has failed but by its worker, and what the tasks hold can be stored. -/
structure Sound (cut : String → Cut) (r : IndexRun) : Prop where
  registered : r.store.hasProject r.projectId = true
  tasks : ∀ f ∈ r.files, f.task.Sound r.projectId (cut f.path) r.store

theorem Sound.step (h : Sound cut r) {embedder : Embedder}
    (hworks : Embedder.Works embedder r.store.dimensions) (place : Nat) :
    Sound cut (r.step place embedder) ∧ Store.Extends r.projectId r.store
      (chunksOf cut ((r.files[place]?.filter fun f => f.task.isCut).map RunFile.path).toList)
      (r.step place embedder).store := by
  cases hplace : r.files[place]? with
  | none =>
    rw [show r.step place embedder = r by simp only [IndexRun.step, hplace]]
    exact ⟨h, Store.Extends.refl r.projectId r.store⟩
  | some f =>
    have hf := List.mem_of_getElem? hplace
    obtain ⟨hsound, hext⟩ := (h.tasks f hf).step h.registered hworks
    rw [step_eq hplace]
    refine ⟨⟨?_, ?_⟩, ?_⟩
    · exact (hext.hasProject r.projectId).trans h.registered
    · intro g hg
      rcases List.mem_or_eq_of_mem_set hg with hg | rfl
      · exact (h.tasks g hg).mono hext
      · exact hsound
    · cases hcut : f.task.isCut <;> simpa [Option.filter, hcut, chunksOf] using hext

theorem Sound.takeUp (h : Sound cut r) : Sound cut (r.takeUp cut) := by
  unfold IndexRun.takeUp
  split
  · exact h
  · split
    · refine ⟨h.registered, ?_⟩
      intro f hf
      rcases List.mem_append.mp hf with hf | hf
      · exact h.tasks f hf
      · obtain ⟨path, _, rfl⟩ := List.mem_map.mp hf
        exact FileTask.sound_start _ _ _
    · exact h

theorem store_takeUp (cut : String → Cut) (r : IndexRun) :
    (r.takeUp cut).store = r.store := by
  unfold IndexRun.takeUp
  split
  · rfl
  · split <;> rfl

/-- By the order of arrivals alone, whatever else has come between them. -/
theorem Sound.run (h : Sound cut r) {moves : List Move}
    (hworks : AllWork r.store.dimensions moves) :
    Sound cut (r.run cut moves) ∧ Store.Extends r.projectId r.store
      (chunksOf cut (r.arrivals cut moves)) (r.run cut moves).store := by
  induction moves generalizing r with
  | nil => exact ⟨h, Store.Extends.refl r.projectId r.store⟩
  | cons move moves ih =>
    have hrest : AllWork r.store.dimensions moves :=
      fun place embedder hmem => hworks place embedder (List.mem_cons_of_mem move hmem)
    cases move with
    | step place embedder =>
      obtain ⟨hstep, hext⟩ := h.step (hworks place embedder List.mem_cons_self) place
      have hproject : (r.step place embedder).projectId = r.projectId :=
        projectId_run cut r [.step place embedder]
      obtain ⟨hrun, hext'⟩ := ih hstep (by rwa [hext.dimensions])
      rw [hproject] at hext'
      refine ⟨hrun, ?_⟩
      rw [arrivals, chunksOf_append]
      exact hext.trans hext'
    | takeUp =>
      have hproject : (r.takeUp cut).projectId = r.projectId := projectId_run cut r [.takeUp]
      obtain ⟨hrun, hext⟩ := ih h.takeUp (by rwa [store_takeUp])
      rw [store_takeUp, hproject] at hext
      exact ⟨hrun, hext⟩

end IndexRun

end CodeSearch
