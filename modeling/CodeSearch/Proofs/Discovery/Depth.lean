import CodeSearch.Proofs.Discovery.Listing
import CodeSearch.Proofs.Glob.Laws

/-!
# Ignore patterns at any depth

A pattern that leaves out a path leaves it out below every directory too. One that ends in all that
is below a directory leaves out the directory with it, so that the walk does not enter it.
-/

set_option autoImplicit false

namespace CodeSearch

namespace Selection
variable {globs : Globs} {patterns : List String} {matched : String → Bool}
  {pattern dir path : String}

/-- What an ignore pattern stands for, at the root and at any depth: the pattern without `./` in
front and, if it ends in all that is below a directory, that directory. -/
def Stem (pattern : String) (cs : List Char) : Prop :=
  cs = dropHere pattern.toList ∨ cs ++ "/**".toList = dropHere pattern.toList

theorem mem_variants_iff {glob : String} : glob ∈ variants pattern ↔ ∃ cs, Stem pattern cs ∧
    (glob = String.ofList cs ∨ glob = "**/" ++ String.ofList cs) := by
  have happend : ∀ cs, String.ofList ("**/".toList ++ cs) = "**/" ++ String.ofList cs := by
    intro cs
    rw [String.ofList_append, String.ofList_toList]
  unfold variants Stem
  generalize dropHere pattern.toList = text
  simp only [happend]
  split
  · rename_i hsuffix
    obtain ⟨front, rfl⟩ := List.isSuffixOf_iff_suffix.mp hsuffix
    have htake : (front ++ "/**".toList).take ((front ++ "/**".toList).length - 3) = front := by
      simp
    rw [htake]
    simp only [List.mem_append, List.mem_cons, List.not_mem_nil, or_false, List.append_left_inj]
    constructor
    · rintro (h | h)
      · exact ⟨_, Or.inl rfl, h⟩
      · exact ⟨_, Or.inr rfl, h⟩
    · rintro ⟨cs, rfl | rfl, h⟩
      · exact Or.inl h
      · exact Or.inr h
  · rename_i hsuffix
    simp only [List.mem_cons, List.not_mem_nil, or_false]
    constructor
    · exact fun h => ⟨text, Or.inl rfl, h⟩
    · rintro ⟨cs, rfl | hcs, h⟩
      · exact h
      · exact absurd (List.isSuffixOf_iff_suffix.mpr ⟨cs, hcs⟩) hsuffix

section Sets

/-- Each glob is read, to what it is read as. -/
theorem mem_readGlobs {texts : List String} {ms : List (String → Bool)}
    (h : readGlobs globs texts = .ok ms) :
    (∀ m, m ∈ ms ↔ ∃ glob ∈ texts, globs.read glob = .ok m) ∧
      ∀ glob ∈ texts, ∃ m, globs.read glob = .ok m := by
  induction texts generalizing ms with
  | nil =>
    obtain rfl := Except.ok.inj h
    simp
  | cons glob rest ih =>
    rw [readGlobs] at h
    split at h
    · cases h
    · rename_i m hread
      split at h
      · cases h
      · rename_i others hrest
        obtain rfl := Except.ok.inj h
        obtain ⟨hmem, hall⟩ := ih hrest
        refine ⟨fun m' => ?_, List.forall_mem_cons.mpr ⟨⟨m, hread⟩, hall⟩⟩
        have hfirst : m' = m ↔ globs.read glob = .ok m' := by
          rw [hread, Except.ok.injEq, eq_comm]
        simp only [List.mem_cons, exists_eq_or_imp, hmem, hfirst]

/-- Some glob that some pattern stands for matches the path. -/
def Matched (globs : Globs) (patterns : List String) (path : String) : Prop :=
  ∃ pattern ∈ patterns, ∃ glob ∈ variants pattern, ∃ m, globs.read glob = .ok m ∧ m path = true

theorem patternSet_iff (hglobs : globs.Documented) (h : patternSet globs patterns = .ok matched)
    (path : String) : matched path = true ↔ Matched globs patterns path := by
  unfold patternSet at h
  split at h
  · cases h
  · rename_i ms hread
    rw [hglobs.set h path]
    constructor
    · rintro ⟨m, hm, hmatch⟩
      obtain ⟨glob, hglob, hm⟩ := ((mem_readGlobs hread).1 m).mp hm
      obtain ⟨pattern, hpattern, hvariant⟩ := List.mem_flatMap.mp hglob
      exact ⟨pattern, hpattern, glob, hvariant, m, hm, hmatch⟩
    · rintro ⟨pattern, hpattern, glob, hvariant, m, hm, hmatch⟩
      have hglob := List.mem_flatMap.mpr ⟨pattern, hpattern, hvariant⟩
      exact ⟨m, ((mem_readGlobs hread).1 m).mpr ⟨glob, hglob, hm⟩, hmatch⟩

/-- Patterns that are accepted stand for globs that are. -/
theorem exists_read (h : patternSet globs patterns = .ok matched) (hpattern : pattern ∈ patterns)
    {glob : String} (hglob : glob ∈ variants pattern) : ∃ m, globs.read glob = .ok m := by
  unfold patternSet at h
  split at h
  · cases h
  · rename_i ms hread
    exact (mem_readGlobs hread).2 glob (List.mem_flatMap.mpr ⟨pattern, hpattern, hglob⟩)

end Sets

section Depth
variable (hglobs : globs.Documented) (hset : patternSet globs patterns = .ok matched)
include hglobs hset

/-- Each glob is there with `**/` in front, which takes in more directories. -/
theorem matched_deeper (h : Matched globs patterns path) (dir : String) :
    Matched globs patterns (dir ++ "/" ++ path) := by
  obtain ⟨pattern, hpattern, glob, hglob, m, hread, hmatch⟩ := h
  obtain ⟨cs, hstem, hcs⟩ := mem_variants_iff.mp hglob
  have hplain := mem_variants_iff.mpr ⟨cs, hstem, Or.inl rfl⟩
  have hdeep := mem_variants_iff.mpr ⟨cs, hstem, Or.inr rfl⟩
  obtain ⟨here, hhere⟩ := exists_read hset hpattern hplain
  obtain ⟨deep, hdeepRead⟩ := exists_read hset hpattern hdeep
  suffices deep (dir ++ "/" ++ path) = true from
    ⟨pattern, hpattern, _, hdeep, deep, hdeepRead, this⟩
  rcases hglobs.front hhere hdeepRead with hall | hfront
  · exact hall _
  rw [hfront]
  rcases hcs with rfl | rfl
  · obtain rfl := Except.ok.inj (hhere.symm.trans hread)
    exact Or.inr ⟨dir, path, rfl, hmatch⟩
  · obtain rfl := Except.ok.inj (hdeepRead.symm.trans hread)
    rcases (hfront path).mp hmatch with hmatch | ⟨more, rest, rfl, hrest⟩
    · exact Or.inr ⟨dir, path, rfl, hmatch⟩
    · exact Or.inr ⟨dir ++ "/" ++ more, rest, by simp only [String.append_assoc], hrest⟩

end Depth

/-- The pattern matches the path as a glob, without `./` in front and at any depth. -/
def Anywhere (globs : Globs) (pattern path : String) : Prop :=
  ∃ glob, (glob = String.ofList (dropHere pattern.toList) ∨
      glob = "**/" ++ String.ofList (dropHere pattern.toList)) ∧
    ∃ m, globs.read glob = .ok m ∧ m path = true

/-- A single dot loses the slash behind it. -/
theorem dropHere_append (cs : List Char) :
    dropHere (cs ++ "/**".toList) = dropHere cs ++ "/**".toList ∨
      dropHere (cs ++ "/**".toList) = "**".toList := by
  fun_induction dropHere cs with
  | case1 cs ih => exact ih
  | case2 cs h =>
    by_cases hdot : cs = ['.']
    · exact Or.inr (hdot ▸ rfl)
    left
    apply dropHere.eq_2
    intro rest heq
    rcases cs with _ | ⟨c, _ | ⟨d, cs⟩⟩
    · cases heq
    · exact hdot (congrArg (fun c => [c]) (List.cons.inj heq).1)
    · obtain ⟨hc, hrest⟩ := List.cons.inj heq
      obtain ⟨hd, -⟩ := List.cons.inj hrest
      exact h cs (by rw [hc, hd])

theorem matched_below (hglobs : globs.Documented) (hset : patternSet globs patterns = .ok matched)
    (hdir : dir ++ "/**" ∈ patterns) (hpath : Anywhere globs dir path) :
    Matched globs patterns path ∧ ∀ below, Matched globs patterns (path ++ "/" ++ below) := by
  obtain ⟨glob, hglob, m, hread, hmatch⟩ := hpath
  have htext : dropHere (dir ++ "/**").toList = dropHere (dir.toList ++ "/**".toList) := by
    rw [String.toList_append]
  rcases dropHere_append dir.toList with hdrop | hdrop
  · have hstem := (htext.trans hdrop).symm
    have hself : glob ∈ variants (dir ++ "/**") :=
      mem_variants_iff.mpr ⟨_, Or.inr hstem, hglob⟩
    have hbelow : glob ++ "/**" ∈ variants (dir ++ "/**") := by
      have hbehind : String.ofList (dropHere dir.toList ++ "/**".toList) =
          String.ofList (dropHere dir.toList) ++ "/**" := by
        rw [String.ofList_append, String.ofList_toList]
      apply mem_variants_iff.mpr ⟨_, Or.inl hstem, ?_⟩
      rw [hbehind]
      rcases hglob with rfl | rfl
      · exact Or.inl rfl
      · exact Or.inr (String.append_assoc ..)
    obtain ⟨m', hread'⟩ := exists_read hset hdir hbelow
    refine ⟨⟨_, hdir, glob, hself, m, hread, hmatch⟩, fun below => ?_⟩
    rcases hglobs.behind hread hread' with hall | hbehind
    · exact ⟨_, hdir, glob, hself, m, hread, hall _⟩
    · exact ⟨_, hdir, _, hbelow, m', hread', hbehind path below hmatch⟩
  · -- What is left of the pattern matches everything.
    have hstars : "**" ∈ variants (dir ++ "/**") :=
      mem_variants_iff.mpr ⟨_, Or.inl (htext.trans hdrop).symm, Or.inl rfl⟩
    obtain ⟨all, hall⟩ := exists_read hset hdir hstars
    have hmatched : ∀ path, Matched globs patterns path := fun path =>
      ⟨_, hdir, _, hstars, all, hall, hglobs.stars hall path⟩
    exact ⟨hmatched path, fun below => hmatched _⟩

end Selection

namespace Discovery
variable {globs : Globs} {extensions patterns : List String} {s : Selection}

/-- On the way to a file that the walk comes to, no entry is left out. -/
theorem kept_of_mem_walk {skip : List String → Bool → Bool} {place names : List String}
    {node : FileNode} (h : names ∈ walk skip place node) : ∃ rel, names = place ++ rel ∧
      ∀ above below, above ≠ [] → rel = above ++ below → ∃ isDirectory,
        skip (place ++ above) isDirectory = false := by
  induction node using FileNode.induct generalizing place with
  | file content =>
    rw [walk, List.mem_singleton] at h
    refine ⟨[], by rw [h, List.append_nil], ?_⟩
    intro above below hne hrel
    exact absurd (List.append_eq_nil_iff.mp hrel.symm).1 hne
  | symlink target =>
    rw [walk] at h
    exact absurd h List.not_mem_nil
  | directory entries ih =>
    rw [walk, walkAll_eq, List.mem_flatMap] at h
    obtain ⟨e, he, hnames⟩ := h
    split at hnames
    · exact absurd hnames List.not_mem_nil
    rename_i hskip
    obtain ⟨rel, rfl, hkept⟩ := ih e he hnames
    refine ⟨e.1 :: rel, (List.append_cons _ _ _).symm, ?_⟩
    intro above below hne hrel
    cases above with
    | nil => exact absurd rfl hne
    | cons name above =>
      obtain ⟨rfl, hrest⟩ := List.cons.inj hrel
      cases above with
      | nil => exact ⟨_, eq_false_of_ne_true hskip⟩
      | cons second above =>
        rw [List.append_cons]
        exact hkept _ below (List.cons_ne_nil _ _) hrest

/-- What lies at `above` below the root is left out, and no file there is listed, whatever ignore
files say. -/
structure Shut (t : FileTree) (s : Selection) (root above : List String) : Prop where
  leftOut : ∀ ignored isDirectory, leftOut ignored s root (root ++ above) isDirectory = true
  unlisted : ∀ ignored below, root ++ above ++ below ∉ filesUnder ignored t s root

theorem shut_of_ignores {above : List String} (hne : above ≠ [])
    (h : s.ignores (String.intercalate "/" above) = true) (t : FileTree) (root : List String) :
    Shut t s root above := by
  have hout : ∀ ignored isDirectory,
      leftOut ignored s root (root ++ above) isDirectory = true := by
    intro ignored isDirectory
    rw [leftOut, List.drop_left, h, Bool.true_or]
  refine ⟨hout, fun ignored below hlisted => ?_⟩
  unfold filesUnder at hlisted
  split at hlisted
  · exact absurd hlisted List.not_mem_nil
  · rw [List.mem_mergeSort, List.mem_filter, List.append_assoc] at hlisted
    obtain ⟨rel, hrel, hkept⟩ := kept_of_mem_walk hlisted.1
    obtain ⟨isDirectory, hskip⟩ := hkept above below hne (List.append_cancel_left hrel).symm
    rw [hout ignored isDirectory] at hskip
    cases hskip

/-- With a library of globs that keeps to its documentation, what is ignored is ignored below every
directory. With all that is below a directory, the directory is ignored wherever it is, so the walk
does not enter it. -/
theorem ignored_at_any_depth (hglobs : globs.Documented)
    (hs : Selection.make globs extensions patterns = .ok s) :
    (∀ path dir, s.ignores path = true → s.ignores (dir ++ "/" ++ path) = true) ∧
      ∀ dir, dir ++ "/**" ∈ patterns → ∀ path, Selection.Anywhere globs dir path →
        s.ignores path = true ∧ (∀ below, s.ignores (path ++ "/" ++ below) = true) ∧
          ∀ above, above ≠ [] → String.intercalate "/" above = path →
            ∀ t root, Shut t s root above := by
  obtain ⟨matched, hset, rfl⟩ := Selection.make_ok_iff.mp hs
  have hmatched := Selection.patternSet_iff hglobs hset
  simp only [hmatched]
  refine ⟨fun path dir h => Selection.matched_deeper hglobs hset h dir, ?_⟩
  intro dir hdir path hpath
  obtain ⟨hself, hbelow⟩ := Selection.matched_below hglobs hset hdir hpath
  refine ⟨hself, hbelow, ?_⟩
  rintro above hne rfl t root
  exact shut_of_ignores hne ((hmatched _).mpr hself) t root

/-- What the pattern `./out/**` matches. -/
def matchesOut (path : String) : Bool :=
  let out : List Glob.Token := [.literal 'o', .literal 'u', .literal 't']
  [Glob.Pattern.matches ⟨out ++ [.deepEnd], false⟩,
    Glob.Pattern.matches ⟨.deepStart :: out ++ [.deepEnd], false⟩,
    Glob.Pattern.matches ⟨out, false⟩, Glob.Pattern.matches ⟨.deepStart :: out, false⟩].any
      fun m => m path

def allButOut : Selection where
  extensions := ["md"]
  ignores := matchesOut

theorem make_allButOut : Selection.make Glob.reader ["md"] ["./out/**"] = .ok allButOut := by
  have hset : Selection.patternSet Glob.reader ["./out/**"] = .ok matchesOut := rfl
  have hextension : ["md"].map Selection.normalizeExtension = ["md"] := by cbv
  rw [Selection.make, hset, hextension]
  rfl

/-- A directory of the name that the pattern is about is ignored below another one, and is shut in
every tree. -/
theorem out_ignored_below : Glob.reader.Documented ∧
    Selection.make Glob.reader ["md"] ["./out/**"] = .ok allButOut ∧
    allButOut.ignores "lib/out" = true ∧ allButOut.ignores "lib/out/a.md" = true ∧
      ∀ t root, Shut t allButOut root ["lib", "out"] := by
  have hparse : Glob.reader.read "**/out" = .ok
      (Glob.Pattern.matches
        ⟨[.deepStart, .literal 'o', .literal 'u', .literal 't'], false⟩) := rfl
  have hpath : Selection.Anywhere Glob.reader "./out" "lib/out" :=
    ⟨"**/out", Or.inr (by cbv), _, hparse, by cbv⟩
  obtain ⟨-, hdeep⟩ := ignored_at_any_depth Glob.documented_reader make_allButOut
  obtain ⟨hout, hbelow, hshut⟩ := hdeep "./out" (by simp) "lib/out" hpath
  exact ⟨Glob.documented_reader, make_allButOut, hout, hbelow "a.md",
    hshut ["lib", "out"] (by simp) (by cbv)⟩

end Discovery

end CodeSearch
