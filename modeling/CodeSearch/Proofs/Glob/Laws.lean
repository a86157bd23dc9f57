import CodeSearch.Proofs.Glob.Language
import CodeSearch.Proofs.Glob.Reading
import CodeSearch.Proofs.Text.Bytes

/-!
# What a library of globs promises

How globs are read and matched is a matter of the library that does it. What is relied on is what
its documentation says of stars that fill a component, in front of a glob, behind it and alone, and
of sets of globs. Globs as they are read here keep to it.
-/

set_option autoImplicit false

namespace CodeSearch

structure Globs.Documented (globs : Globs) : Prop where
  /-- A set matches what one of its globs matches. -/
  set : ∀ {ms f}, globs.build ms = .ok f → ∀ path, f path = true ↔ ∃ m ∈ ms, m path = true
  /-- Two stars match everything. -/
  stars : ∀ {m}, globs.read "**" = .ok m → ∀ path, m path = true
  /-- `**/` in front stands for directories, or none. In front of nothing else it means
  everything. -/
  front : ∀ {glob m m'}, globs.read glob = .ok m → globs.read ("**/" ++ glob) = .ok m' →
    (∀ path, m' path = true) ∨ ∀ path, m' path = true ↔
      m path = true ∨ ∃ dir rest, path = dir ++ "/" ++ rest ∧ m rest = true
  /-- `/**` behind stands for what is below. What means everything needs nothing behind it. -/
  behind : ∀ {glob m m'}, globs.read glob = .ok m → globs.read (glob ++ "/**") = .ok m' →
    (∀ path, m path = true) ∨
      ∀ path below, m path = true → m' (path ++ "/" ++ below) = true

namespace Glob
variable {glob : String} {p : Pattern} {m : String → Bool}

theorem read_ok_iff : reader.read glob = .ok m ↔
    ∃ tokens, ({} : State).read glob.toList = .ok tokens ∧
      m = Pattern.matches ⟨tokens, false⟩ := by
  simp only [reader, parse, State.read]
  cases State.steps {} glob.toList with
  | error e => simp
  | ok s => cases hfinish : s.finish <;> simp [hfinish, eq_comm]

theorem Pattern.matches_iff {path : String} :
    p.matches path = true ↔ Text.utf8 path.toList ∈ p.language :=
  p.matchesBytes_iff _

theorem Pattern.matches_of_deepStart (h : p.tokens = [.deepStart]) (path : String) :
    p.matches path = true := p.matches_iff.mpr (Or.inl h)

/-- The tokens say it all, unless they are directories alone. -/
theorem Pattern.matches_tokens_iff {tokens : List Token} (h : tokens ≠ [.deepStart])
    {path : String} : Pattern.matches ⟨tokens, false⟩ path = true ↔
      Text.utf8 path.toList ∈ languageOfAll false tokens := by
  rw [Pattern.matches_iff]
  exact or_iff_right h

theorem utf8_below (above below : String) :
    Text.utf8 (above ++ "/" ++ below).toList =
      Text.utf8 above.toList ++ slash :: Text.utf8 below.toList := by
  have hslash : Text.utf8 "/".toList = [slash] := by decide
  rw [String.toList_append, String.toList_append, Text.utf8_append, Text.utf8_append, hslash,
    List.append_assoc]
  rfl

/-- A path is cut at a slash where its bytes are. -/
theorem exists_of_utf8_slash {path : String} {dirs rest : List UInt8}
    (h : Text.utf8 path.toList = dirs ++ slash :: rest) :
    ∃ dir below, path = dir ++ "/" ++ below ∧ Text.utf8 below.toList = rest := by
  obtain ⟨xs, ys, hpath, -, hrest⟩ := Text.exists_of_utf8_eq_append (a := '/') (by decide) h
  refine ⟨String.ofList xs, String.ofList ys, ?_, by rw [String.toList_ofList, hrest]⟩
  apply String.toList_inj.mp
  simp [hpath]

/-- Directories in front of tokens that are not directories alone. -/
theorem matches_deepStart_iff {tokens : List Token} (hne : tokens ≠ [])
    (htokens : tokens ≠ [.deepStart]) (path : String) :
    Pattern.matches ⟨.deepStart :: tokens, false⟩ path = true ↔
      Pattern.matches ⟨tokens, false⟩ path = true ∨ ∃ dir rest, path = dir ++ "/" ++ rest ∧
        Pattern.matches ⟨tokens, false⟩ rest = true := by
  have hdeep : Token.deepStart :: tokens ≠ [.deepStart] := fun h => hne (List.cons.inj h).2
  simp only [Pattern.matches_tokens_iff hdeep, Pattern.matches_tokens_iff htokens]
  constructor
  · intro h
    obtain ⟨u, hu, v, hv, hpath⟩ := Language.mem_mul.mp h
    rcases mem_deepStart_iff.mp hu with rfl | ⟨dirs, rfl⟩
    · exact Or.inl (hpath ▸ hv)
    · have hbytes : Text.utf8 path.toList = dirs ++ slash :: v := by
        rw [← hpath, List.append_assoc]
        rfl
      obtain ⟨dir, rest, rfl, hrest⟩ := exists_of_utf8_slash hbytes
      exact Or.inr ⟨dir, rest, rfl, hrest ▸ hv⟩
  · rintro (h | ⟨dir, rest, rfl, h⟩)
    · exact Language.mem_mul.mpr ⟨[], mem_deepStart_iff.mpr (Or.inl rfl), _, h, rfl⟩
    · rw [utf8_below]
      exact mem_behind h _

/-- The directories in front of a glob that begins with directories change nothing. -/
theorem matches_deeper {rest : List Token} {path : String}
    (h : Pattern.matches ⟨.deepStart :: rest, false⟩ path = true) (dir : String) :
    Pattern.matches ⟨.deepStart :: rest, false⟩ (dir ++ "/" ++ path) = true := by
  rcases Pattern.matches_iff.mp h with hall | hmem
  · exact Pattern.matches_of_deepStart hall _
  · apply Pattern.matches_iff.mpr
    rw [utf8_below]
    exact Or.inr (mem_deeper hmem _)

theorem matches_front {m' : String → Bool} (h : reader.read glob = .ok m)
    (h' : reader.read ("**/" ++ glob) = .ok m') :
    (∀ path, m' path = true) ∨ ∀ path, m' path = true ↔
      m path = true ∨ ∃ dir rest, path = dir ++ "/" ++ rest ∧ m rest = true := by
  obtain ⟨tokens, hread, rfl⟩ := read_ok_iff.mp h
  obtain ⟨tokens', hdeep, rfl⟩ := read_ok_iff.mp h'
  rw [String.toList_append] at hdeep
  replace hdeep : State.deep.read glob.toList = .ok tokens' := hdeep
  rcases State.read_behind hread with hbehind | ⟨hbehind, rest, rfl⟩
  · obtain rfl := Except.ok.inj (hbehind.symm.trans hdeep)
    by_cases hne : tokens = []
    · subst hne
      exact Or.inl (Pattern.matches_of_deepStart rfl)
    · refine Or.inr (matches_deepStart_iff hne ?_)
      rintro rfl
      exact State.read_deep_ne hdeep
  · -- There are directories in front already, and the glob is read as it is without more.
    obtain rfl := Except.ok.inj (hbehind.symm.trans hdeep)
    refine Or.inr fun path => ⟨Or.inl, ?_⟩
    rintro (h | ⟨dir, rest, rfl, h⟩)
    · exact h
    · exact matches_deeper h dir

theorem matches_behind {m' : String → Bool} (h : reader.read glob = .ok m)
    (h' : reader.read (glob ++ "/**") = .ok m') :
    (∀ path, m path = true) ∨
      ∀ path below, m path = true → m' (path ++ "/" ++ below) = true := by
  obtain ⟨tokens, hread, rfl⟩ := read_ok_iff.mp h
  obtain ⟨tokens', hread', rfl⟩ := read_ok_iff.mp h'
  rw [String.toList_append] at hread'
  by_cases hall : tokens = [.deepStart]
  · exact Or.inl (Pattern.matches_of_deepStart hall)
  refine Or.inr fun path below hmatch => ?_
  rw [Pattern.matches_tokens_iff hall] at hmatch
  apply Pattern.matches_iff.mpr
  rw [utf8_below]
  rcases State.read_below hread with hdeep | ⟨⟨front, rfl⟩, hbelow⟩ | hbelow
  · exact absurd hdeep hall
  · obtain rfl := Except.ok.inj (hbelow.symm.trans hread')
    exact Or.inr (mem_lower hmatch _)
  · obtain rfl := Except.ok.inj (hbelow.symm.trans hread')
    exact Or.inr (mem_below hmatch _)

theorem documented_reader : reader.Documented where
  set := by
    intro ms f h path
    obtain rfl := Except.ok.inj h
    exact List.any_eq_true
  stars := by
    intro m h path
    obtain ⟨tokens, htokens, rfl⟩ := read_ok_iff.mp h
    have hstars : ({} : State).read "**".toList = .ok [.deepStart] := rfl
    obtain rfl := Except.ok.inj (hstars.symm.trans htokens)
    exact Pattern.matches_of_deepStart rfl path
  front := matches_front
  behind := matches_behind

end Glob

end CodeSearch
