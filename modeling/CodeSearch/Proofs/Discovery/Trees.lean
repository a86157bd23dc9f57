import CodeSearch.Files.Tree
import CodeSearch.Proofs.Keys

/-!
# Proper trees

In a directory no two entries have one name. So a node below another is the one that the names on
the way lead to. Writing files and making directories keeps a tree proper.
-/

set_option autoImplicit false

namespace CodeSearch

namespace FileNode

/-- Induction over a node with the claim for each entry of a directory at hand. -/
theorem induct {motive : FileNode → Prop} (file : ∀ content, motive (.file content))
    (symlink : ∀ target, motive (.symlink target))
    (directory : ∀ entries, (∀ e ∈ entries, motive e.2) → motive (.directory entries)) :
    ∀ node, motive node
  | .file content => file content
  | .symlink target => symlink target
  | .directory entries => directory entries fun e he =>
    have := sizeOf_entry_lt he
    induct file symlink directory e.2
termination_by node => sizeOf node

/-- No directory at or below the node has two entries of one name. -/
def Proper (node : FileNode) : Prop :=
  ∀ names entries, node.at? names = some (.directory entries) → (entries.map Prod.fst).Nodup

theorem at?_cons (node : FileNode) (name : String) (rest : List String) :
    node.at? (name :: rest) = (node.child? name).bind fun child => child.at? rest := by
  rw [at?]

theorem at?_append (node : FileNode) (names rest : List String) :
    node.at? (names ++ rest) = (node.at? names).bind fun child => child.at? rest := by
  induction names generalizing node with
  | nil => rw [List.nil_append, at?, Option.bind_some]
  | cons name names ih =>
    rw [List.cons_append, at?_cons, at?_cons, Option.bind_assoc]
    exact Option.bind_congr fun child _ => ih child

theorem child?_directory_iff {entries : List (String × FileNode)}
    (hnodup : (entries.map Prod.fst).Nodup) {name : String} {child : FileNode} :
    (directory entries).child? name = some child ↔ (name, child) ∈ entries := by
  rw [child?, Option.map_eq_some_iff]
  constructor
  · rintro ⟨e, hfound, rfl⟩
    obtain ⟨he, rfl⟩ := (find?_key_iff hnodup).mp hfound
    exact he
  · intro he
    exact ⟨(name, child), (find?_key_iff hnodup).mpr ⟨he, rfl⟩, rfl⟩

theorem child?_of_leaf {node : FileNode} (h : node.isDirectory = false) (name : String) :
    node.child? name = none := by
  cases node with
  | file content => rfl
  | symlink target => rfl
  | directory entries => cases h

theorem proper_directory_iff {entries : List (String × FileNode)} :
    (directory entries).Proper ↔ (entries.map Prod.fst).Nodup ∧ ∀ e ∈ entries, e.2.Proper := by
  constructor
  · intro h
    have hnodup := h [] entries rfl
    refine ⟨hnodup, ?_⟩
    intro e he names below hbelow
    apply h (e.1 :: names)
    rw [at?_cons, (child?_directory_iff hnodup).mpr he, Option.bind_some, hbelow]
  · rintro ⟨hnodup, hentries⟩ names below hbelow
    cases names with
    | nil =>
      cases hbelow
      exact hnodup
    | cons name rest =>
      rw [at?_cons, Option.bind_eq_some_iff] at hbelow
      obtain ⟨child, hchild, hrest⟩ := hbelow
      exact hentries _ ((child?_directory_iff hnodup).mp hchild) rest below hrest

theorem Proper.at? {node child : FileNode} (h : node.Proper) {place : List String}
    (hchild : node.at? place = some child) : child.Proper := by
  intro names entries hnames
  apply h (place ++ names)
  rw [at?_append, hchild, Option.bind_some, hnames]

theorem proper_of_leaf {node : FileNode} (h : node.isDirectory = false) : node.Proper := by
  intro names entries hnames
  cases names with
  | nil =>
    cases hnames
    cases h
  | cons name rest =>
    rw [at?_cons, child?_of_leaf h] at hnames
    cases hnames

section Put
variable {name : String} {node : Option FileNode} {entries : List (String × FileNode)}

theorem mem_setEntry {e : String × FileNode} (he : e ∈ setEntry name node entries) :
    e ∈ entries ∨ e.1 = name ∧ node = some e.2 := by
  have hnew : ∀ {e}, e ∈ node.toList.map (fun n => (name, n)) → e.1 = name ∧ node = some e.2 := by
    intro e hnew
    obtain ⟨n, hn, rfl⟩ := List.mem_map.mp hnew
    exact ⟨rfl, Option.mem_toList.mp hn⟩
  induction entries with
  | nil => exact Or.inr (hnew he)
  | cons d rest ih =>
    rw [setEntry] at he
    split at he
    · rcases List.mem_append.mp he with he | he
      · exact Or.inr (hnew he)
      · exact Or.inl (List.mem_cons_of_mem d he)
    · rcases List.mem_cons.mp he with rfl | he
      · exact Or.inl List.mem_cons_self
      · exact (ih he).imp_left (List.mem_cons_of_mem d)

theorem nodup_setEntry (h : (entries.map Prod.fst).Nodup) :
    ((setEntry name node entries).map Prod.fst).Nodup := by
  induction entries with
  | nil => cases node <;> simp [setEntry]
  | cons e rest ih =>
    obtain ⟨hnew, hrest⟩ := List.nodup_cons.mp h
    rw [setEntry]
    split
    · rename_i hname
      cases node with
      | none => exact hrest
      | some n =>
        rw [beq_iff_eq] at hname
        exact List.nodup_cons.mpr ⟨hname ▸ hnew, hrest⟩
    · rename_i hname
      refine List.nodup_cons.mpr ⟨?_, ih hrest⟩
      intro hmem
      obtain ⟨d, hd, hkey⟩ := List.mem_map.mp hmem
      rcases mem_setEntry hd with hold | ⟨hsame, -⟩
      · exact hnew (List.mem_map.mpr ⟨d, hold, hkey⟩)
      · rw [hsame] at hkey
        rw [← hkey, beq_self_eq_true] at hname
        exact hname rfl

theorem Proper.setEntry (h : (directory entries).Proper) (hnode : ∀ n ∈ node, n.Proper) :
    (directory (setEntry name node entries)).Proper := by
  obtain ⟨hnodup, hentries⟩ := proper_directory_iff.mp h
  refine proper_directory_iff.mpr ⟨nodup_setEntry hnodup, ?_⟩
  intro e he
  rcases mem_setEntry he with hold | ⟨-, hnew⟩
  · exact hentries e hold
  · exact hnode e.2 hnew

theorem proper_empty : (directory []).Proper :=
  proper_directory_iff.mpr ⟨List.nodup_nil, List.forall_mem_nil _⟩

theorem Proper.directory_entries {parent : FileNode} (h : parent.Proper) :
    (directory parent.entries).Proper := by
  cases parent with
  | directory entries => exact h
  | file content => exact proper_empty
  | symlink target => exact proper_empty

theorem Proper.child {parent : FileNode} (h : parent.Proper) (name : String) :
    ((parent.child? name).getD (directory [])).Proper := by
  cases hchild : parent.child? name with
  | none => exact proper_empty
  | some child =>
    have hname : parent.at? [name] = some child := by
      rw [at?_cons, hchild]
      rfl
    exact h.at? hname

/-- Putting a proper node into a proper tree, or taking one away, leaves it proper. -/
theorem Proper.put (hnode : ∀ n ∈ node, n.Proper) {names : List String} {old : FileNode}
    (h : old.Proper) : (put node names old).Proper := by
  induction names generalizing old with
  | nil =>
    rw [FileNode.put]
    cases node with
    | none => exact h
    | some n => exact hnode n rfl
  | cons name rest ih =>
    have hput : ∀ n ∈ some (FileNode.put node rest ((old.child? name).getD (directory []))),
        n.Proper := by
      rintro n ⟨⟩
      exact ih (h.child name)
    cases rest with
    | nil =>
      cases node with
      | none => exact h.directory_entries.setEntry fun _ hn => by cases hn
      | some n => exact h.directory_entries.setEntry hput
    | cons name' rest' => exact h.directory_entries.setEntry hput

end Put

end FileNode

namespace FileTree
variable {t : FileTree}

theorem proper_write (h : t.root.Proper) {path : String} {content : FileContent} {t' : FileTree}
    (hwrite : t.write path content = .ok t') : t'.root.Proper := by
  obtain ⟨names, -, -, rfl⟩ := exists_of_write hwrite
  apply FileNode.Proper.put _ h
  rintro n ⟨⟩
  exact FileNode.proper_of_leaf rfl

theorem proper_makeDirectory (h : t.root.Proper) (path : String) :
    (t.makeDirectory path).root.Proper := by
  unfold makeDirectory
  simp only
  split
  · split
    · exact h
    · apply FileNode.Proper.put _ h
      rintro n ⟨⟩
      exact FileNode.proper_empty
  · exact h

theorem proper_makeDirectories (h : t.root.Proper) (path : String) :
    (t.makeDirectories path).root.Proper := by
  unfold makeDirectories
  apply List.foldlRecOn (motive := fun t : FileTree => t.root.Proper)
  · exact h
  · exact fun t h i _ => proper_makeDirectory h _

end FileTree

end CodeSearch
