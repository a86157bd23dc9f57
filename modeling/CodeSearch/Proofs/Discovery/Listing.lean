import CodeSearch.Glob.Reader
import CodeSearch.Proofs.Discovery.Walk
import CodeSearch.Proofs.Indexing.Plans

/-!
# The files that are listed

Discovery walks a directory, tests names, and sorts. What it comes to is said here of each path by
itself: which file it leads to, what its name ends in, and that neither it nor a directory on the
way to it is left out.
-/

set_option autoImplicit false

namespace CodeSearch

namespace Path

theorem nameLe_iff {a b : String} : nameLe a b = true ↔ a ≤ b := by
  rw [nameLe, Bool.not_eq_true', decide_eq_false_iff_not, String.not_lt]

theorem namesLe_iff {as bs : List String} :
    namesLe as bs = true ↔ as = bs ∨ List.Lex (· < ·) as bs := by
  induction as generalizing bs with
  | nil => cases bs <;> simp [namesLe]
  | cons a as ih =>
    cases bs with
    | nil => simp [namesLe]
    | cons b bs =>
      rw [namesLe, List.cons_lex_cons_iff, List.cons.injEq]
      split
      · rename_i heq
        subst heq
        have hirrefl := String.lt_irrefl a
        rw [ih]
        tauto
      · rename_i hne
        -- Only the first two names that differ are compared.
        have hlt : nameLe a b = true ↔ a < b := by
          rw [nameLe_iff]
          constructor
          · intro hle
            by_contra hnot
            exact hne (String.le_antisymm hle (String.not_lt.mp hnot))
          · intro hlt
            exact String.not_lt.mp (String.lt_asymm hlt)
        rw [hlt]
        tauto

theorem namesLe_trans (as bs cs : List String) (h : namesLe as bs = true)
    (h' : namesLe bs cs = true) : namesLe as cs = true := by
  rw [namesLe_iff] at h h' ⊢
  rcases h with rfl | h
  · exact h'
  · rcases h' with rfl | h'
    · exact Or.inr h
    · exact Or.inr (List.lex_trans String.lt_trans h h')

theorem namesLe_total (as bs : List String) : (namesLe as bs || namesLe bs as) = true := by
  induction as generalizing bs with
  | nil => rfl
  | cons a as ih =>
    cases bs with
    | nil => rfl
    | cons b bs =>
      rw [namesLe, namesLe]
      by_cases heq : a = b
      · rw [if_pos heq, if_pos heq.symm]
        exact ih bs
      · rw [if_neg heq, if_neg (Ne.symm heq), Bool.or_eq_true, nameLe_iff, nameLe_iff]
        exact String.le_total a b

end Path

namespace Selection
variable {globs : Globs} {extensions patterns : List String} {matched : String → Bool}
  {s : Selection}

/-- A selection is made of the set of the patterns, if that is accepted. -/
theorem make_ok_iff : make globs extensions patterns = .ok s ↔
    ∃ matched, patternSet globs patterns = .ok matched ∧
      s = { extensions := extensions.map normalizeExtension, ignores := matched } := by
  unfold make
  cases patternSet globs patterns with
  | error e => simp
  | ok matched => simp [eq_comm]

/-- The path ends in one of the extensions, small and capital letters alike. -/
def Supported (extensions : List String) (path : String) : Prop :=
  ∃ ext, Path.extension? path = some ext ∧
    ∃ given ∈ extensions, normalizeExtension given = Path.asciiLower ext

theorem supports_iff (path : String) :
    supports { extensions := extensions.map normalizeExtension, ignores := matched } path = true ↔
      Supported extensions path := by
  unfold supports Supported
  cases Path.extension? path with
  | none => simp only [Bool.false_eq_true, reduceCtorEq, false_and, exists_false]
  | some ext =>
    simp only [List.contains_iff_mem, List.mem_map, Option.some.injEq, exists_eq_left']

end Selection

namespace Discovery
variable {t : FileTree} {s : Selection} {extensions patterns root rel : List String}
  {matched : String → Bool} {ignored : List String → Bool → Bool}

/-- Names that lead from the root to a file to index, as they and the tree tell. What the patterns
match, and what ignore files say of an entry, is given. -/
structure Indexable (t : FileTree) (extensions : List String) (matched : String → Bool)
    (ignored : List String → Bool → Bool) (root rel : List String) : Prop where
  file : ∃ content, t.root.at? (root ++ rel) = some (.file content)
  supported : Selection.Supported extensions (rel.getLastD "")
  below : rel ≠ []
  /-- Neither the file nor a directory between the root and it is left out. -/
  kept : ∀ above below, above ≠ [] → rel = above ++ below →
    matched (String.intercalate "/" above) = false ∧
      ignored (root ++ above) (!below.isEmpty) = false

theorem open_leftOut_iff :
    Open (leftOut ignored s root) root rel ↔ ∀ above below, above ≠ [] → rel = above ++ below →
      s.ignores (String.intercalate "/" above) = false ∧
        ignored (root ++ above) (!below.isEmpty) = false := by
  unfold Open
  simp only [leftOut, List.drop_left, Bool.or_eq_false_iff]

theorem mem_filesUnder_iff (hproper : t.root.Proper) {entries : List (String × FileNode)}
    (hroot : t.root.at? root = some (.directory entries)) {names : List String} :
    names ∈ filesUnder ignored t
        { extensions := extensions.map Selection.normalizeExtension, ignores := matched } root ↔
      ∃ rel, names = root ++ rel ∧ Indexable t extensions matched ignored root rel := by
  have hbelow : ∀ rel, t.root.at? (root ++ rel) = (FileNode.directory entries).at? rel := by
    intro rel
    rw [FileNode.at?_append, hroot, Option.bind_some]
  have hlast : ∀ rel ≠ [], (root ++ rel).getLastD "" = rel.getLastD "" := by
    intro rel hne
    rw [List.getLastD_eq_getLast?, List.getLast?_append_of_ne_nil _ hne,
      ← List.getLastD_eq_getLast?]
  rw [filesUnder, hroot]
  simp only [List.mem_mergeSort, List.mem_filter, mem_walk (hproper.at? hroot),
    open_leftOut_iff, Selection.supports_iff]
  constructor
  · rintro ⟨⟨rel, content, rfl, hfile, hkept⟩, hsupported⟩
    have hne : rel ≠ [] := by
      rintro rfl
      cases hfile
    refine ⟨rel, rfl, ⟨content, ?_⟩, ?_, hne, hkept⟩
    · rw [hbelow, hfile]
    · rwa [hlast rel hne] at hsupported
  · rintro ⟨rel, rfl, ⟨content, hfile⟩, hsupported, hne, hkept⟩
    rw [hbelow] at hfile
    refine ⟨⟨rel, content, rfl, hfile, hkept⟩, ?_⟩
    rwa [hlast rel hne]

theorem pairwise_filesUnder (hproper : t.root.Proper) (ignored : List String → Bool → Bool)
    (s : Selection) {entries : List (String × FileNode)}
    (hroot : t.root.at? root = some (.directory entries)) :
    (filesUnder ignored t s root).Pairwise (List.Lex (· < ·)) := by
  have hwalk : (walk (leftOut ignored s root) root (.directory entries)).Nodup :=
    nodup_walk (hproper.at? hroot)
  rw [filesUnder, hroot]
  simp only
  generalize hkept : (walk (leftOut ignored s root) root (.directory entries)).filter
    (fun names => s.supports (names.getLastD "")) = kept
  have hsorted := List.pairwise_mergeSort Path.namesLe_trans Path.namesLe_total kept
  have hnodup : (kept.mergeSort Path.namesLe).Nodup := by
    rw [(List.mergeSort_perm kept Path.namesLe).nodup_iff, ← hkept]
    exact hwalk.filter _
  apply (hsorted.and hnodup).imp
  rintro as bs ⟨hle, hne⟩
  exact (Path.namesLe_iff.mp hle).resolve_left hne

theorem directory_of_resolveRoot {path : String} (h : resolveRoot t path = .ok root) :
    ∃ entries, t.root.at? root = some (.directory entries) := by
  unfold resolveRoot at h
  split at h
  · cases h
  · split at h
    · rename_i entries hat
      cases h
      exact ⟨entries, hat⟩
    · cases h

/-- Below the directory that a path means, discovery with patterns that are accepted lists the
indexable files, and no others, each once and in the order of their names. It does so for every
library of globs, and whatever ignore files say of single entries. -/
theorem discover_lists_indexable (globs : Globs) (ignored : List String → Bool → Bool)
    (hproper : t.root.Proper) (hset : Selection.patternSet globs patterns = .ok matched)
    {path : String} (hroot : resolveRoot t path = .ok root) :
    ∃ s files, Selection.make globs extensions patterns = .ok s ∧
      discover ignored t s path = .ok files ∧ files.Pairwise (List.Lex (· < ·)) ∧
      ∀ names, names ∈ files ↔
        ∃ rel, names = root ++ rel ∧ Indexable t extensions matched ignored root rel := by
  obtain ⟨entries, hentries⟩ := directory_of_resolveRoot hroot
  refine ⟨_, filesUnder ignored t _ root, Selection.make_ok_iff.mpr ⟨matched, hset, rfl⟩, ?_,
    pairwise_filesUnder hproper ignored _ hentries, fun names =>
      mem_filesUnder_iff hproper hentries⟩
  rw [discover, hroot]

section Twins
open Indexer

/-- What the pattern `b.md` matches. -/
def matchesB (path : String) : Bool :=
  let name : List Glob.Token := [.literal 'b', .literal '.', .literal 'm', .literal 'd']
  [Glob.Pattern.matches ⟨name, false⟩, Glob.Pattern.matches ⟨.deepStart :: name, false⟩].any
    fun m => m path

theorem patternSet_b : Selection.patternSet Glob.reader ["b.md"] = .ok matchesB := rfl

theorem proper_twinTree : twinTree.root.Proper := by
  have hnotes : (FileNode.directory
      [("a.md", .file (.bytes [102, 105, 115, 104])),
        ("b.md", .file (.bytes [102, 105, 115, 104]))]).Proper := by
    refine FileNode.proper_directory_iff.mpr ⟨by decide, ?_⟩
    intro e he
    fin_cases he <;> exact FileNode.proper_of_leaf rfl
  refine FileNode.proper_directory_iff.mpr ⟨by decide, ?_⟩
  simp only [List.forall_mem_singleton]
  exact hnotes

/-- What lies at one of the names is left out, whatever it is. -/
def ignoring (out : List (List String)) (names : List String) (_ : Bool) : Bool :=
  out.contains names

theorem indexable_twinTree :
    Indexable twinTree ["md"] matchesB (ignoring [["e"]]) ["d"] ["a.md"] := by
  refine ⟨⟨_, rfl⟩, ⟨"md", by cbv, "md", List.mem_singleton_self _, by cbv⟩, by decide, ?_⟩
  intro above below hne hrel
  cases above with
  | nil => exact absurd rfl hne
  | cons name above =>
    obtain ⟨rfl, hrest⟩ := List.cons.inj hrel
    obtain ⟨rfl, rfl⟩ := List.append_eq_nil_iff.mp hrest.symm
    exact ⟨by cbv, by decide⟩

/-- The note that the pattern is about is not listed. The other is, unless it is ignored. -/
theorem other_twin_listed :
    (∃ s files, Selection.make Glob.reader ["md"] ["b.md"] = .ok s ∧
      discover (ignoring [["e"]]) twinTree s "/d" = .ok files ∧
      ["d", "a.md"] ∈ files ∧ ["d", "b.md"] ∉ files) ∧
    ∃ s files, Selection.make Glob.reader ["md"] ["b.md"] = .ok s ∧
      discover (ignoring [["d", "a.md"]]) twinTree s "/d" = .ok files ∧ ["d", "a.md"] ∉ files := by
  have hroot : resolveRoot twinTree "/d" = .ok ["d"] := by cbv
  have hmatched : matchesB "b.md" = true := by cbv
  constructor
  · obtain ⟨s, files, hs, hfiles, -, hmem⟩ :
        ∃ s files, Selection.make Glob.reader ["md"] ["b.md"] = .ok s ∧ _ :=
      discover_lists_indexable Glob.reader (ignoring [["e"]]) proper_twinTree patternSet_b hroot
    refine ⟨s, files, hs, hfiles, (hmem _).mpr ⟨["a.md"], rfl, indexable_twinTree⟩, ?_⟩
    rw [hmem]
    rintro ⟨rel, hrel, hindexable⟩
    obtain ⟨-, rfl⟩ := List.cons.inj hrel
    have hkept := (hindexable.kept ["b.md"] [] (by decide) rfl).1
    exact absurd (hmatched.symm.trans hkept) (by decide)
  · obtain ⟨s, files, hs, hfiles, -, hmem⟩ :
        ∃ s files, Selection.make Glob.reader ["md"] ["b.md"] = .ok s ∧ _ :=
      discover_lists_indexable Glob.reader (ignoring [["d", "a.md"]]) proper_twinTree patternSet_b
        hroot
    refine ⟨s, files, hs, hfiles, ?_⟩
    rw [hmem]
    rintro ⟨rel, hrel, hindexable⟩
    obtain ⟨-, rfl⟩ := List.cons.inj hrel
    have hkept := (hindexable.kept ["a.md"] [] (by decide) rfl).2
    exact absurd hkept (by decide)

end Twins

end Discovery

end CodeSearch
