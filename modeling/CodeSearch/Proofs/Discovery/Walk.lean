import CodeSearch.Discovery
import CodeSearch.Proofs.Discovery.Trees

/-!
# The walk

The walk prunes: below a directory that is left out it asks nothing. It comes to the files on whose
way no entry is left out, and to each of them once.
-/

set_option autoImplicit false

namespace CodeSearch.Discovery
variable {skip : List String → Bool → Bool} {place names : List String} {node : FileNode}

theorem walkAll_eq (skip : List String → Bool → Bool) (place : List String)
    (entries : List (String × FileNode)) :
    walkAll skip place entries = entries.flatMap fun e =>
      if skip (place ++ [e.1]) e.2.isDirectory then [] else walk skip (place ++ [e.1]) e.2 := by
  induction entries with
  | nil => rw [walkAll, List.flatMap_nil]
  | cons e rest ih => rw [walkAll, ih, List.flatMap_cons]

/-- No entry on the way from a directory to what lies at `rel` below it is left out. What has
something below it is a directory. -/
def Open (skip : List String → Bool → Bool) (place rel : List String) : Prop :=
  ∀ above below, above ≠ [] → rel = above ++ below → skip (place ++ above) (!below.isEmpty) = false

theorem open_nil : Open skip place [] := by
  intro above below hne hrel
  exact absurd (List.append_eq_nil_iff.mp hrel.symm).1 hne

theorem open_cons_iff {name : String} {rest : List String} :
    Open skip place (name :: rest) ↔
      skip (place ++ [name]) (!rest.isEmpty) = false ∧ Open skip (place ++ [name]) rest := by
  constructor
  · intro h
    refine ⟨h [name] rest (List.cons_ne_nil _ _) rfl, ?_⟩
    rintro above below - rfl
    have := h (name :: above) below (List.cons_ne_nil _ _) rfl
    rwa [List.append_cons] at this
  · rintro ⟨hname, hrest⟩ above below hne hrel
    cases above with
    | nil => exact absurd rfl hne
    | cons first above =>
      obtain ⟨rfl, rfl⟩ := List.cons.inj hrel
      cases above with
      | nil => exact hname
      | cons second above =>
        rw [List.append_cons]
        exact hrest (second :: above) below (List.cons_ne_nil _ _) rfl

theorem isDirectory_of_at? {rel : List String} {content : FileContent}
    (h : node.at? rel = some (.file content)) : node.isDirectory = !rel.isEmpty := by
  cases rel with
  | nil =>
    cases h
    rfl
  | cons name rest =>
    cases hdirectory : node.isDirectory with
    | true => rfl
    | false =>
      rw [FileNode.at?_cons, FileNode.child?_of_leaf hdirectory] at h
      cases h

theorem mem_walk (hproper : node.Proper) :
    names ∈ walk skip place node ↔ ∃ rel content,
      names = place ++ rel ∧ node.at? rel = some (.file content) ∧ Open skip place rel := by
  -- The walk below an entry starts at a place one name longer.
  induction node using FileNode.induct generalizing place with
  | file content =>
    rw [walk, List.mem_singleton]
    constructor
    · rintro rfl
      exact ⟨[], content, (List.append_nil _).symm, rfl, open_nil⟩
    · rintro ⟨rel, _, rfl, hrel, -⟩
      have hempty : false = !rel.isEmpty := isDirectory_of_at? hrel
      cases rel with
      | nil => exact List.append_nil place
      | cons name rest => cases hempty
  | symlink target =>
    rw [walk]
    constructor
    · exact fun h => absurd h List.not_mem_nil
    · rintro ⟨rel, _, rfl, hrel, -⟩
      cases rel with
      | nil => cases hrel
      | cons name rest =>
        rw [FileNode.at?_cons, FileNode.child?_of_leaf rfl] at hrel
        cases hrel
  | directory entries ih =>
    obtain ⟨hnodup, hentries⟩ := FileNode.proper_directory_iff.mp hproper
    rw [walk, walkAll_eq, List.mem_flatMap]
    constructor
    · rintro ⟨⟨name, child⟩, he, hnames⟩
      split at hnames
      · exact absurd hnames List.not_mem_nil
      · rename_i hskip
        obtain ⟨rel, content, rfl, hrel, hopen⟩ := (ih _ he (hentries _ he)).mp hnames
        refine ⟨name :: rel, content, (List.append_cons _ _ _).symm, ?_, ?_⟩
        · rw [FileNode.at?_cons, (FileNode.child?_directory_iff hnodup).mpr he]
          exact hrel
        · rw [isDirectory_of_at? hrel] at hskip
          exact open_cons_iff.mpr ⟨eq_false_of_ne_true hskip, hopen⟩
    · rintro ⟨rel, content, rfl, hrel, hopen⟩
      cases rel with
      | nil => cases hrel
      | cons name rest =>
        rw [FileNode.at?_cons, Option.bind_eq_some_iff] at hrel
        obtain ⟨child, hchild, hrest⟩ := hrel
        obtain ⟨hname, hbelow⟩ := open_cons_iff.mp hopen
        have he := (FileNode.child?_directory_iff hnodup).mp hchild
        refine ⟨(name, child), he, ?_⟩
        rw [isDirectory_of_at? hrest, hname, if_neg Bool.false_ne_true]
        exact (ih _ he (hentries _ he)).mpr
          ⟨rest, content, List.append_cons _ _ _, hrest, hbelow⟩

theorem nodup_walk (hproper : node.Proper) : (walk skip place node).Nodup := by
  induction node using FileNode.induct generalizing place with
  | file content => exact List.nodup_singleton place
  | symlink target => exact List.nodup_nil
  | directory entries ih =>
    obtain ⟨hnodup, hentries⟩ := FileNode.proper_directory_iff.mp hproper
    -- Paths below two entries differ in the name right behind `place`.
    have hstart : ∀ e ∈ entries, ∀ names ∈ (if skip (place ++ [e.1]) e.2.isDirectory then []
        else walk skip (place ++ [e.1]) e.2), ∃ rel, names = place ++ e.1 :: rel := by
      intro e he names hnames
      split at hnames
      · exact absurd hnames List.not_mem_nil
      · obtain ⟨rel, _, rfl, -⟩ := (mem_walk (hentries e he)).mp hnames
        exact ⟨rel, (List.append_cons _ _ _).symm⟩
    rw [walk, walkAll_eq, List.nodup_flatMap]
    constructor
    · intro e he
      split
      · exact List.nodup_nil
      · exact ih e he (hentries e he)
    · apply (List.pairwise_map.mp hnodup).imp_of_mem
      intro d e hd he hne names hmem hmem'
      obtain ⟨rel, rfl⟩ := hstart d hd names hmem
      obtain ⟨rel', heq⟩ := hstart e he _ hmem'
      exact hne (List.cons.inj (List.append_cancel_left heq)).1

end CodeSearch.Discovery
