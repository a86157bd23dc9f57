import CodeSearch.Proofs.Discovery.Trees
import CodeSearch.Proofs.Text.Splitting

/-!
# Reading what was written

Writing changes the tree at one place, where there was a file or nothing. Every directory stays a
directory, and every link on the way stays as it is; so the path that was written through leads to
the same place again, and the text there is the one written.
-/

set_option autoImplicit false

namespace CodeSearch

theorem Text.ofUtf8?_utf8 (s : String) : ofUtf8? (utf8 s.toList) = some s := by
  have hbytes : (⟨(utf8 s.toList).toArray⟩ : ByteArray) = s.toByteArray := by
    rw [← String.utf8Encode_toList, List.utf8Encode, utf8]
    apply ByteArray.ext
    simp
  rw [ofUtf8?, hbytes, String.fromUTF8?, dif_pos]
  rfl

namespace FileNode

section Entries
variable {name : String} {node : Option FileNode} {entries : List (String × FileNode)}

theorem child?_setEntry (n : FileNode) :
    (directory (setEntry name (some n) entries)).child? name = some n := by
  induction entries with
  | nil => simp [setEntry, child?]
  | cons e rest ih =>
    rw [setEntry]
    split
    · simp [child?]
    · rename_i hname
      simpa [child?, hname] using ih

theorem child?_setEntry_of_ne {name' : String} (hne : name' ≠ name) :
    (directory (setEntry name node entries)).child? name' =
      (directory entries).child? name' := by
  have hnew : ∀ e ∈ node.toList.map fun n => (name, n), ¬(e.1 == name') = true := by
    intro e he
    obtain ⟨n, -, rfl⟩ := List.mem_map.mp he
    simpa using hne.symm
  rw [child?, child?]
  congr 1
  induction entries with
  | nil => simpa [setEntry] using hnew
  | cons e rest ih =>
    rw [setEntry]
    split
    · rename_i hname
      have hother : ¬(e.1 == name') = true := by
        rw [eq_of_beq hname]
        simpa using hne.symm
      rw [List.find?_append, List.find?_eq_none.mpr hnew, Option.none_or, List.find?_cons,
        eq_false_of_ne_true hother]
    · rw [List.find?_cons, List.find?_cons, ih]

theorem child?_directory_entries (parent : FileNode) (name : String) :
    (directory parent.entries).child? name = parent.child? name := by
  cases parent <;> rfl

end Entries

section Put
variable {node : FileNode} {parent : List String} {name : String} {root : FileNode}

theorem put_cons (name : String) (rest : List String) (parent : FileNode) :
    put (some node) (name :: rest) parent =
      directory (setEntry name
        (some (put (some node) rest ((parent.child? name).getD (directory []))))
        parent.entries) := by
  cases rest <;> rfl

theorem at?_put (names : List String) (root : FileNode) :
    (put (some node) names root).at? names = some node := by
  induction names generalizing root with
  | nil => rfl
  | cons name rest ih => rw [put_cons, at?_cons, child?_setEntry, Option.bind_some, ih]

theorem isDirectory_of_child? {parent child : FileNode} {name : String}
    (h : parent.child? name = some child) : parent.isDirectory = true := by
  cases parent with
  | directory entries => rfl
  | file content => cases h
  | symlink target => cases h

/-- Elsewhere than where a leaf or nothing was replaced, what there was is there still; only a
directory may have other entries. -/
theorem at?_put_of_ne (hparent : (root.at? parent).any isDirectory = true)
    (hleaf : (root.at? (parent ++ [name])).any isDirectory = false)
    {place : List String} (hne : place ≠ parent ++ [name]) {n : FileNode}
    (hplace : root.at? place = some n) :
    ∃ n', (put (some node) (parent ++ [name]) root).at? place = some n' ∧
      (n' = n ∨ n.isDirectory = true ∧ n'.isDirectory = true) := by
  induction parent generalizing root place with
  | nil =>
    rw [List.nil_append, put_cons]
    cases place with
    | nil =>
      cases hplace
      exact ⟨_, rfl, Or.inr ⟨hparent, rfl⟩⟩
    | cons first rest =>
      have hfirst : first ≠ name := by
        rintro rfl
        rw [at?_cons, Option.bind_eq_some_iff] at hplace
        obtain ⟨child, hchild, hrest⟩ := hplace
        rw [List.nil_append, at?_cons, hchild, Option.bind_some, at?, Option.any_some] at hleaf
        cases rest with
        | nil => exact hne rfl
        | cons second rest =>
          rw [at?_cons, child?_of_leaf hleaf] at hrest
          cases hrest
      rw [at?_cons, child?_setEntry_of_ne hfirst, child?_directory_entries, ← at?_cons]
      exact ⟨n, hplace, Or.inl rfl⟩
  | cons above parent ih =>
    rw [List.cons_append, put_cons]
    obtain ⟨child, hchild⟩ : ∃ child, root.child? above = some child := by
      rw [at?_cons] at hparent
      cases hchild : root.child? above with
      | none => simp [hchild] at hparent
      | some child => exact ⟨child, rfl⟩
    cases place with
    | nil =>
      cases hplace
      exact ⟨_, rfl, Or.inr ⟨isDirectory_of_child? hchild, rfl⟩⟩
    | cons first rest =>
      by_cases hfirst : first = above
      · subst hfirst
        rw [at?_cons, child?_setEntry, Option.bind_some, hchild, Option.getD_some]
        rw [at?_cons, hchild, Option.bind_some] at hplace hparent
        rw [List.cons_append, at?_cons, hchild, Option.bind_some] at hleaf
        exact ih hparent hleaf (fun hrest => hne (congrArg _ hrest)) hplace
      · rw [at?_cons, child?_setEntry_of_ne hfirst, child?_directory_entries, ← at?_cons]
        exact ⟨n, hplace, Or.inl rfl⟩

theorem exists_directory_put (hparent : (root.at? parent).any isDirectory = true)
    (hleaf : (root.at? (parent ++ [name])).any isDirectory = false) {place : List String}
    {entries : List (String × FileNode)} (hplace : root.at? place = some (directory entries)) :
    ∃ entries',
      (put (some node) (parent ++ [name]) root).at? place = some (directory entries') := by
  have hne : place ≠ parent ++ [name] := by
    rintro rfl
    rw [hplace] at hleaf
    cases hleaf
  obtain ⟨n, hn, rfl | ⟨-, hkind⟩⟩ := at?_put_of_ne hparent hleaf hne hplace
  · exact ⟨entries, hn⟩
  · cases n with
    | directory entries' => exact ⟨entries', hn⟩
    | file content => cases hkind
    | symlink target => cases hkind

theorem at?_put_symlink (hparent : (root.at? parent).any isDirectory = true)
    (hleaf : (root.at? (parent ++ [name])).any isDirectory = false) {place : List String}
    (hne : place ≠ parent ++ [name]) {target : String}
    (hplace : root.at? place = some (symlink target)) :
    (put (some node) (parent ++ [name]) root).at? place = some (symlink target) := by
  obtain ⟨n, hn, rfl | ⟨hkind, -⟩⟩ := at?_put_of_ne hparent hleaf hne hplace
  · exact hn
  · cases hkind

/-- Where there was no link, putting something that is no link makes none. -/
theorem exists_nolink_put (hparent : (root.at? parent).any isDirectory = true)
    (hleaf : (root.at? (parent ++ [name])).any isDirectory = false)
    (hnode : ∀ target, node ≠ symlink target) {place : List String} {n : FileNode}
    (hn : ∀ target, n ≠ symlink target) (hplace : root.at? place = some n) :
    ∃ n', (put (some node) (parent ++ [name]) root).at? place = some n' ∧
      ∀ target, n' ≠ symlink target := by
  by_cases hend : place = parent ++ [name]
  · subst hend
    exact ⟨node, at?_put _ _, hnode⟩
  · obtain ⟨n', hn', rfl | ⟨-, hkind⟩⟩ := at?_put_of_ne hparent hleaf hend hplace
    · exact ⟨n', hn', hn⟩
    · refine ⟨n', hn', ?_⟩
      rintro target rfl
      cases hkind

end Put

end FileNode

namespace FileTree

/-- What following a path comes to: a directory, or names in a directory at which no link is. -/
def Reached (root : FileNode) (names : List String) : Prop :=
  (root.at? names).any FileNode.isDirectory = true ∨
    ∃ parent name, names = parent ++ [name] ∧
      (root.at? parent).any FileNode.isDirectory = true ∧
      ∀ target, root.at? names ≠ some (.symlink target)

section Following
variable {root : FileNode} {place names : List String}

theorem pathPieces_ne_nil (path : String) : pathPieces path ≠ [] := by
  simpa [pathPieces] using Text.splitOn_ne_nil ['/'] path.toList

theorem any_isDirectory {entries : List (String × FileNode)}
    (h : root.at? place = some (.directory entries)) :
    (root.at? place).any FileNode.isDirectory = true := by
  rw [h]
  rfl

theorem any_isDirectory_dropLast (h : (root.at? place).any FileNode.isDirectory = true) :
    (root.at? place.dropLast).any FileNode.isDirectory = true := by
  rcases List.eq_nil_or_concat' place with rfl | ⟨parent, name, rfl⟩
  · exact h
  · rw [FileNode.at?_append] at h
    rw [List.dropLast_concat]
    cases hparent : root.at? parent with
    | none =>
      rw [hparent] at h
      cases h
    | some above =>
      rw [hparent, Option.bind_some, FileNode.at?_cons] at h
      cases hchild : above.child? name with
      | none =>
        rw [hchild] at h
        cases h
      | some child => exact FileNode.isDirectory_of_child? hchild

theorem reached_follow {create : Bool} {links : Nat} {pieces : List String}
    (hplace : pieces = [] → Reached root place)
    (h : follow root create links place pieces = .ok names) : Reached root names := by
  fun_induction follow root create links place pieces with
  | case1 =>
    cases h
    exact hplace rfl
  | case2 links place piece rest entries hdir _ ih =>
    exact ih (fun _ => Or.inl (any_isDirectory hdir)) h
  | case3 links place rest entries hdir _ ih =>
    exact ih (fun _ => Or.inl (any_isDirectory_dropLast (any_isDirectory hdir))) h
  | case5 links place piece rest entries hdir _ _ _ hnone hlast =>
    cases h
    refine Or.inr ⟨place, piece, rfl, any_isDirectory hdir, ?_⟩
    intro target htarget
    rw [hnone] at htarget
    cases htarget
  | case8 place piece rest entries hdir _ _ _ target hlink left ih =>
    refine ih (fun hnil => ?_) h
    exact absurd (List.append_eq_nil_iff.mp hnil).1 (pathPieces_ne_nil target)
  | case9 links place piece rest entries hdir _ _ _ val hval hsome ih =>
    refine ih (fun _ => Or.inr ⟨place, piece, rfl, any_isDirectory hdir, ?_⟩) h
    intro target htarget
    rw [hsome] at htarget
    exact hval target (Option.some.inj htarget)
  | case4 | case6 | case7 | case10 => cases h

/-- A name that stands for an entry is passed if the entry is no link. -/
theorem follow_cons {create : Bool} {links : Nat} {piece : String} {rest : List String}
    {entries : List (String × FileNode)} {n : FileNode}
    (hdir : root.at? place = some (.directory entries)) (hname : ¬(piece = "" ∨ piece = "."))
    (hup : ¬piece = "..") (hlength : ¬255 < piece.utf8ByteSize)
    (hentry : root.at? (place ++ [piece]) = some n) (hlink : ∀ target, n ≠ .symlink target) :
    follow root create links place (piece :: rest) =
      follow root create links (place ++ [piece]) rest := by
  rw [follow, hdir]
  simp only [if_neg hname, if_neg hup, if_neg hlength, hentry]

variable {parent : List String} {name : String} {content : FileContent}

/-- A path that led to where a file was put leads there again. -/
theorem follow_put (hparent : (root.at? parent).any FileNode.isDirectory = true)
    (hvacant : (root.at? (parent ++ [name])).any FileNode.isDirectory = false)
    (hnolink : ∀ target, root.at? (parent ++ [name]) ≠ some (.symlink target))
    {links : Nat} {pieces : List String}
    (h : follow root true links place pieces = .ok (parent ++ [name])) :
    follow (root.put (some (.file content)) (parent ++ [name])) false links place pieces =
      .ok (parent ++ [name]) := by
  have hfile : ∀ target, FileNode.file content ≠ .symlink target := fun _ => nofun
  -- What is at the end of the path is new; directories and links on the way are not.
  fun_induction follow root true links place pieces with
  | case1 =>
    rw [follow]
    exact h
  | case2 links place piece rest entries hdir hblank ih =>
    obtain ⟨entries', hdir'⟩ := FileNode.exists_directory_put hparent hvacant hdir
    rw [follow, hdir']
    simp only [if_pos hblank]
    exact ih h
  | case3 links place rest entries hdir hblank ih =>
    obtain ⟨entries', hdir'⟩ := FileNode.exists_directory_put hparent hvacant hdir
    rw [follow, hdir']
    simp only [if_neg hblank]
    exact ih h
  | case5 links place piece rest entries hdir hname hup hlength hnone hlast =>
    obtain ⟨entries', hdir'⟩ := FileNode.exists_directory_put hparent hvacant hdir
    have hend : place ++ [piece] = parent ++ [name] := Except.ok.inj h
    rw [follow_cons hdir' hname hup hlength (hend ▸ FileNode.at?_put _ _) hfile, hlast.2, follow,
      hend]
  | case8 place piece rest entries hdir hname hup hlength target hlink left ih =>
    obtain ⟨entries', hdir'⟩ := FileNode.exists_directory_put hparent hvacant hdir
    have hne : place ++ [piece] ≠ parent ++ [name] := by
      intro hend
      exact hnolink target (hend ▸ hlink)
    rw [follow, hdir']
    simp only [if_neg hname, if_neg hup, if_neg hlength,
      FileNode.at?_put_symlink hparent hvacant hne hlink]
    exact ih h
  | case9 links place piece rest entries hdir hname hup hlength val hval hsome ih =>
    obtain ⟨entries', hdir'⟩ := FileNode.exists_directory_put hparent hvacant hdir
    obtain ⟨n, hn, hkind⟩ := FileNode.exists_nolink_put hparent hvacant hfile hval hsome
    rw [follow_cons hdir' hname hup hlength hn hkind]
    exact ih h
  | case4 | case6 | case7 | case10 => cases h

end Following

section Texts
variable {t t' : FileTree} {path : String}

theorem ne_of_locate {create : Bool} {names : List String} (h : t.locate create path = .ok names) :
    path.toList.contains '\x00' = false ∧ path ≠ "" := by
  unfold locate at h
  split at h
  · cases h
  · rename_i hnul
    split at h
    · cases h
    · rename_i hne
      exact ⟨eq_false_of_ne_true hnul, hne⟩

/-- The path that was written through means the file that was written. -/
theorem resolve_write {content : FileContent} (h : t.write path content = .ok t') :
    ∃ names, t'.resolve path = .ok names ∧ t'.root.at? names = some (.file content) := by
  obtain ⟨names, hlocate, hleaf, rfl⟩ := exists_of_write h
  obtain ⟨hnul, hne⟩ := ne_of_locate hlocate
  rw [locate_eq_follow hnul hne] at hlocate
  have hvacant : (t.root.at? names).any FileNode.isDirectory = false := by
    cases hn : t.root.at? names with
    | none => rfl
    | some n =>
      cases n with
      | directory entries => exact absurd hn (hleaf entries)
      | file _ => rfl
      | symlink _ => rfl
  have hreached := reached_follow (fun hnil => absurd hnil (pathPieces_ne_nil path)) hlocate
  rcases hreached with hdir | ⟨parent, name, rfl, hparent, hnolink⟩
  · rw [hvacant] at hdir
    cases hdir
  · refine ⟨parent ++ [name], ?_, FileNode.at?_put _ _⟩
    rw [resolve_eq_follow hnul hne]
    exact follow_put hparent hvacant hnolink hlocate

theorem ne_empty_of_write {content : FileContent} (h : t.write path content = .ok t') :
    path ≠ "" := by
  obtain ⟨names, hlocate, -⟩ := exists_of_write h
  exact (ne_of_locate hlocate).2

theorem pathExists_of_readText {text : String} (h : t.readText path = .ok text) :
    t.pathExists path = true := by
  unfold readText read at h
  unfold pathExists nodeAt?
  cases hresolve : t.resolve path with
  | error e =>
    rw [hresolve] at h
    cases h
  | ok names =>
    rw [hresolve] at h
    cases hn : t.root.at? names with
    | none =>
      simp only [hn] at h
      cases h
    | some n => simp only [hn, Option.isSome_some]

theorem readText_write {text : String}
    (h : t.write path (.bytes (Text.utf8 text.toList)) = .ok t') : t'.readText path = .ok text := by
  obtain ⟨names, hresolve, hfile⟩ := resolve_write h
  rw [readText, read, hresolve]
  simp only [hfile, Text.ofUtf8?_utf8]

end Texts

end FileTree

end CodeSearch
