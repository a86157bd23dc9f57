import CodeSearch.Indexing
import CodeSearch.Proofs.Naming.Canonical
import CodeSearch.Proofs.Store.Integrity
import CodeSearch.Search

/-!
# Projects by name

A name is normalized before a project is looked up by it, also a name that the store itself lists.
So a listed project is found by its name if the name stays as it is. A name that was cut right
behind a dot or a dash does not: it leads to no project, or to another one.
-/

set_option autoImplicit false

namespace CodeSearch.Store
open ProjectName
variable {s : Store} {p : Project}

/-- The name leads to the project and to no other, in a look-up, a removal and a search. -/
structure LeadsTo (s : Store) (name : String) (p : Project) : Prop where
  found : s.project? name = some p
  cleared : s.clear name = ((s.clearProject p.id).1, .ok (s.clearProject p.id).2)
  searched : ∀ {α : Type} [Score α] (o : SearchOptions α),
    (Search.filterOf s { o with projects := [name] }).projectIds = [p.id]

theorem leadsTo_iff {name : String} : s.LeadsTo name p ↔ s.project? name = some p := by
  constructor
  · exact LeadsTo.found
  · intro hfound
    constructor
    · exact hfound
    · unfold clear
      rw [hfound]
    · intro α _ o
      unfold Search.filterOf
      simp only [List.filterMap_cons, hfound, Option.map_some, List.filterMap_nil]

theorem Registered.project?_eq_some_iff (h : s.Registered) {name : String} :
    s.project? name = some p ↔ p ∈ s.projects ∧ p.name = normalize name :=
  find?_key_iff h.names

theorem Registered.exists_eq_normalize (h : s.Registered) (hp : p ∈ s.projects) :
    ∃ input, p.name = normalize input := by
  rw [h.named p hp]
  exact ofPath_eq_normalize p.path

/-- A listed project is found by its name unless that name ends in a dot or a dash. It does so only
if it was cut to length, and then leads to the project of the name without its end, if to any. -/
theorem leadsTo_listed_iff (h : s.Reachable) (hp : p ∈ s.projects) :
    (s.LeadsTo p.name p ↔ endsInMark p.name = false) ∧
    (endsInMark p.name = true →
      p.name.length = maxLength ∧
      ∀ q, s.LeadsTo p.name q ↔
        q ∈ s.projects ∧ q.name = String.ofList (p.name.toList.rdropWhile isMark)) := by
  obtain ⟨input, hname⟩ := h.registered.exists_eq_normalize hp
  refine ⟨?_, ?_⟩
  · rw [leadsTo_iff, h.registered.project?_eq_some_iff]
    constructor
    · rintro ⟨-, hsame⟩
      rw [hname] at hsame ⊢
      exact (normalize_eq_self_iff input).mp hsame.symm
    · intro hend
      refine ⟨hp, ?_⟩
      rw [hname] at hend ⊢
      exact ((normalize_eq_self_iff input).mpr hend).symm
  · intro hend
    rw [hname] at hend
    refine ⟨?_, ?_⟩
    · rw [hname]
      exact length_of_endsInMark hend
    · intro q
      rw [leadsTo_iff, h.registered.project?_eq_some_iff, hname, normalize_normalize]

section CutNames

def fullName : String := String.ofList (List.replicate 99 'a')

def full : Project := ⟨2, fullName, "/" ++ fullName, none⟩

/-- Its name is that of its directory without the last letter, which leaves a dash at the end. -/
def cut : Project := ⟨1, fullName ++ "-", "/" ++ fullName ++ "-b", none⟩

def cutAndFull : Store where
  dimensions := 1
  projects := [cut, full]
  lastProjectId := 2

theorem run_cutAndFull :
    run { dimensions := 1 } [.createProject cut.path, .createProject full.path] = cutAndFull := by
  have hcut : ofPath cut.path = cut.name := by decide +kernel
  have hfull : ofPath full.path = full.name := by decide +kernel
  have hpath : (cut.path == full.path) = false := by decide +kernel
  have hname : (cut.name == full.name) = false := by decide +kernel
  simp only [run, List.foldl_cons, List.foldl_nil, perform, createProject, projectAt?,
    List.find?_nil, hcut, hfull, after, List.nil_append, List.find?_cons, hpath, hname]
  rfl

theorem reachable_cutAndFull : cutAndFull.Reachable := by
  rw [← run_cutAndFull]
  exact (Reachable.opened 1).run _

/-- The one name leads to its project, the other away from it. -/
theorem full_name_leads_home :
    cutAndFull.LeadsTo full.name full ∧ cut.name.length = maxLength ∧
      cutAndFull.LeadsTo cut.name full := by
  have hcut := leadsTo_listed_iff reachable_cutAndFull (p := cut) List.mem_cons_self
  have hfull := leadsTo_listed_iff reachable_cutAndFull (p := full) (by decide +kernel)
  obtain ⟨hlength, hleads⟩ := hcut.2 (by decide +kernel)
  refine ⟨hfull.1.mpr (by decide +kernel), hlength, (hleads full).mpr ⟨?_, ?_⟩⟩
  · exact List.mem_cons_of_mem _ List.mem_cons_self
  · decide +kernel

/-- Two projects are registered, and the name listed for one leads to the other. -/
theorem cut_name_leads_elsewhere :
    let s := run { dimensions := 1 } [.createProject cut.path, .createProject full.path]
    cut ∈ s.projects ∧ full ∈ s.projects ∧ full ≠ cut ∧
      s.LeadsTo cut.name full ∧ ¬ s.LeadsTo cut.name cut := by
  have hlookup : cutAndFull.project? cut.name = some full := by decide +kernel
  have hne : full ≠ cut := fun h => absurd (congrArg Project.id h) (by decide)
  rw [run_cutAndFull]
  refine ⟨List.mem_cons_self, List.mem_cons_of_mem _ List.mem_cons_self, hne,
    leadsTo_iff.mpr hlookup, ?_⟩
  rw [leadsTo_iff, hlookup]
  exact fun h => hne (Option.some.inj h)

end CutNames

end CodeSearch.Store
