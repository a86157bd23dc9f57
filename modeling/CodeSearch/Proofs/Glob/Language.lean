import Mathlib.Computability.Language
import CodeSearch.Glob.Basic

/-!
# What globs match

A glob stands for a language of byte strings: tokens stand for languages that do not know of the
path, a sequence of tokens for their product, a choice for a union. Matching keeps the set of places
that the tokens so far can end at, and is shown here to decide membership in the language.
-/

set_option autoImplicit false

-- Stands before the namespace, in which a language is one that programs are written in.
abbrev ByteLanguage : Type := Language UInt8

namespace CodeSearch.Glob

/-- Single bytes with a property. -/
def single (p : UInt8 → Bool) : ByteLanguage := {w | ∃ b, p b = true ∧ w = [b]}

/-- Strings of bytes with a property. -/
def runs (p : UInt8 → Bool) : ByteLanguage := {w | ∀ b ∈ w, p b = true}

def oneSlash : ByteLanguage := {[slash]}

mutual

def Token.language (keepsSlash : Bool) : Token → ByteLanguage
  | .literal c => {String.utf8EncodeChar c}
  | .anyOne => single (wild keepsSlash)
  | .anyRun => runs (wild keepsSlash)
  | .deepStart => 1 + ⊤ * oneSlash
  | .deepEnd => oneSlash * ⊤
  | .deepMiddle => oneSlash + oneSlash * ⊤ * oneSlash
  | .oneOf negated ranges => single fun b => (ranges.any (inRange b)) != negated
  | .choice branches => if allHollow branches then 1 else languageOfSome keepsSlash branches

def languageOfAll (keepsSlash : Bool) : List Token → ByteLanguage
  | [] => 1
  | token :: rest => token.language keepsSlash * languageOfAll keepsSlash rest

def languageOfSome (keepsSlash : Bool) : List (List Token) → ByteLanguage
  | [] => 0
  | branch :: rest =>
    if isHollow branch then languageOfSome keepsSlash rest
    else languageOfAll keepsSlash branch + languageOfSome keepsSlash rest

end

/-- A pattern of directories in front alone stands for everything. -/
def Pattern.language (p : Pattern) : ByteLanguage :=
  {w | p.tokens = [.deepStart] ∨ w ∈ languageOfAll p.keepsSlash p.tokens}

theorem mem_word_iff {v w : List UInt8} : w ∈ ({v} : ByteLanguage) ↔ w = v := Iff.rfl

theorem languageOfAll_append (keepsSlash : Bool) (front back : List Token) :
    languageOfAll keepsSlash (front ++ back) =
      languageOfAll keepsSlash front * languageOfAll keepsSlash back := by
  induction front with
  | nil => rw [List.nil_append, languageOfAll, one_mul]
  | cons token front ih => rw [List.cons_append, languageOfAll, languageOfAll, ih, mul_assoc]

section Places
variable {path : List UInt8} {f g : List Bool → List Bool} {l m : ByteLanguage}

/-- The strings of the language lead from the places of `live` to those of `f live`, along the
path. -/
structure Leads (path : List UInt8) (f : List Bool → List Bool) (l : ByteLanguage) : Prop where
  length : ∀ {live}, live.length = path.length + 1 → (f live).length = path.length + 1
  place : ∀ {live}, live.length = path.length + 1 → ∀ j,
    (f live)[j]? = some true ↔
      ∃ i w, live[i]? = some true ∧ w ∈ l ∧ w <+: path.drop i ∧ j = i + w.length

theorem append_prefix_iff {α : Type} {u v w : List α} :
    u ++ v <+: w ↔ u <+: w ∧ v <+: w.drop u.length := by
  constructor
  · rintro ⟨rest, rfl⟩
    exact ⟨⟨v ++ rest, by simp⟩, ⟨rest, by simp⟩⟩
  · rintro ⟨⟨rest, rfl⟩, hv⟩
    rw [List.drop_left] at hv
    exact (List.prefix_append_right_inj u).mpr hv

theorem leads_id (path : List UInt8) : Leads path id 1 where
  length h := h
  place _ j := by
    simp only [id, Language.mem_one]
    constructor
    · exact fun h => ⟨j, [], h, rfl, List.nil_prefix, rfl⟩
    · rintro ⟨i, w, h, rfl, -, rfl⟩
      exact h

theorem Leads.comp (hf : Leads path f l) (hg : Leads path g m) :
    Leads path (fun live => g (f live)) (l * m) where
  length h := hg.length (hf.length h)
  place h j := by
    rw [hg.place (hf.length h)]
    constructor
    · rintro ⟨k, v, hk, hv, hback, rfl⟩
      obtain ⟨i, u, hi, hu, hword, rfl⟩ := (hf.place h k).mp hk
      refine ⟨i, u ++ v, hi, Language.append_mem_mul hu hv, ?_, ?_⟩
      · rw [append_prefix_iff, List.drop_drop]
        exact ⟨hword, hback⟩
      · rw [List.length_append, Nat.add_assoc]
    · rintro ⟨i, w, hi, hw, hword, rfl⟩
      obtain ⟨u, hu, v, hv, rfl⟩ := Language.mem_mul.mp hw
      rw [append_prefix_iff, List.drop_drop] at hword
      refine ⟨i + u.length, v, (hf.place h _).mpr ⟨i, u, hi, hu, hword.1, rfl⟩, hv, hword.2, ?_⟩
      rw [List.length_append, Nat.add_assoc]

theorem Leads.either (hf : Leads path f l) (hg : Leads path g m) :
    Leads path (fun live => either (f live) (g live)) (l + m) where
  length h := by
    rw [Glob.either, List.length_zipWith, hf.length h, hg.length h, Nat.min_self]
  place {live} h j := by
    have hor : (Glob.either (f live) (g live))[j]? = some true ↔
        (f live)[j]? = some true ∨ (g live)[j]? = some true := by
      have hlength := (hf.length h).trans (hg.length h).symm
      rw [Glob.either, List.getElem?_zipWith]
      rcases Nat.lt_or_ge j (f live).length with hj | hj
      · rw [List.getElem?_eq_getElem hj, List.getElem?_eq_getElem (hlength ▸ hj)]
        simp
      · rw [List.getElem?_eq_none hj, List.getElem?_eq_none (hlength ▸ hj)]
        simp
    rw [hor, hf.place h, hg.place h]
    constructor
    · rintro (⟨i, w, hi, hw, hrest⟩ | ⟨i, w, hi, hw, hrest⟩)
      · exact ⟨i, w, hi, Or.inl hw, hrest⟩
      · exact ⟨i, w, hi, Or.inr hw, hrest⟩
    · rintro ⟨i, w, hi, hw | hw, hrest⟩
      · exact Or.inl ⟨i, w, hi, hw, hrest⟩
      · exact Or.inr ⟨i, w, hi, hw, hrest⟩

theorem leads_nowhere (path : List UInt8) : Leads path (fun live => live.map fun _ => false) 0 where
  length h := by rw [List.length_map, h]
  place {live} _ j := by
    constructor
    · intro h
      rw [List.getElem?_map] at h
      cases hj : live[j]? <;> rw [hj] at h <;> cases h
    · rintro ⟨i, w, -, hw, -⟩
      exact absurd hw (Language.notMem_zero w)

theorem singleton_prefix_iff {b : UInt8} {i : Nat} : [b] <+: path.drop i ↔ path[i]? = some b := by
  rw [← List.head?_drop]
  cases path.drop i with
  | nil => simp
  | cons c rest => simp [List.cons_prefix_cons, eq_comm]

theorem leads_advance (p : UInt8 → Bool) (path : List UInt8) :
    Leads path (advance p path) (single p) where
  length {live} h := by
    rw [advance, List.length_cons, List.length_zipWith, h]
    omega
  place {live} _ j := by
    constructor
    · intro h
      cases j with
      | zero => cases h
      | succ i =>
        rw [advance, List.getElem?_cons_succ, List.getElem?_zipWith_eq_some] at h
        obtain ⟨b, here, hb, hhere, hand⟩ := h
        obtain ⟨rfl, hp⟩ := Bool.and_eq_true_iff.mp hand
        exact ⟨i, [b], hhere, ⟨b, hp, rfl⟩, singleton_prefix_iff.mpr hb, rfl⟩
    · rintro ⟨i, w, hi, ⟨b, hp, rfl⟩, hword, rfl⟩
      rw [List.length_singleton, advance, List.getElem?_cons_succ, List.getElem?_zipWith_eq_some]
      exact ⟨b, true, singleton_prefix_iff.mp hword, hi, hp⟩

theorem length_spread {p : UInt8 → Bool} {carry : Bool} {live : List Bool}
    (h : live.length = path.length + 1) : (spread p carry path live).length = path.length + 1 := by
  induction path generalizing carry live with
  | nil =>
    obtain ⟨here, rfl⟩ := List.length_eq_one_iff.mp h
    rfl
  | cons b path ih =>
    cases live with
    | nil => cases h
    | cons here live =>
      rw [spread, List.length_cons, ih (Nat.succ.inj h), List.length_cons]

/-- A run that may go on is one more place at the front of the path. -/
theorem place_spread {p : UInt8 → Bool} {carry : Bool} {live : List Bool}
    (h : live.length = path.length + 1) (j : Nat) :
    (spread p carry path live)[j]? = some true ↔
      ∃ i w, (live[i]? = some true ∨ i = 0 ∧ carry = true) ∧ w ∈ runs p ∧
        w <+: path.drop i ∧ j = i + w.length := by
  -- Behind a byte the run may go on if it went on before it or began there, and the byte allows it.
  induction path generalizing carry live j with
  | nil =>
    obtain ⟨here, rfl⟩ := List.length_eq_one_iff.mp h
    constructor
    · intro hj
      cases j with
      | zero =>
        exact ⟨0, [], by simpa [spread] using hj, List.forall_mem_nil _, List.nil_prefix, rfl⟩
      | succ j => cases hj
    · rintro ⟨i, w, hi, -, hword, rfl⟩
      rw [List.drop_nil, List.prefix_nil] at hword
      subst hword
      cases i with
      | zero => simpa [spread] using hi
      | succ i => simp at hi
  | cons b path ih =>
    cases live with
    | nil => cases h
    | cons here live =>
      rw [spread]
      cases j with
      | zero =>
        constructor
        · intro hj
          exact ⟨0, [], by simpa using hj, List.forall_mem_nil _, List.nil_prefix, rfl⟩
        · rintro ⟨i, w, hi, -, -, hlength⟩
          obtain ⟨rfl, -⟩ := Nat.add_eq_zero_iff.mp hlength.symm
          simpa using hi
      | succ j =>
        rw [List.getElem?_cons_succ, ih (Nat.succ.inj h)]
        constructor
        · rintro ⟨i, w, hi | ⟨rfl, hcarry⟩, hw, hword, rfl⟩
          · exact ⟨i + 1, w, Or.inl hi, hw, hword, by omega⟩
          · obtain ⟨hhere, hp⟩ := Bool.and_eq_true_iff.mp hcarry
            refine ⟨0, b :: w, by simpa using hhere, List.forall_mem_cons.mpr ⟨hp, hw⟩, ?_, ?_⟩
            · exact List.cons_prefix_cons.mpr ⟨rfl, hword⟩
            · rw [List.length_cons, Nat.zero_add, Nat.zero_add]
        · rintro ⟨i, w, hi, hw, hword, hlength⟩
          cases i with
          | zero =>
            cases w with
            | nil => cases hlength
            | cons c w =>
              obtain ⟨rfl, hrest⟩ := List.cons_prefix_cons.mp hword
              obtain ⟨hp, hw⟩ := List.forall_mem_cons.mp hw
              have hhere : (here || carry) = true := by simpa using hi
              refine ⟨0, w, Or.inr ⟨rfl, by rw [hhere, hp]; rfl⟩, hw, hrest, ?_⟩
              rw [List.length_cons] at hlength
              omega
          | succ i =>
            have hlive : live[i]? = some true := by simpa using hi
            exact ⟨i, w, Or.inl hlive, hw, hword, by omega⟩

theorem leads_spread (p : UInt8 → Bool) (path : List UInt8) :
    Leads path (spread p false path) (runs p) where
  length h := length_spread h
  place h j := by
    rw [place_spread h]
    simp

theorem single_beq (b : UInt8) : single (· == b) = {[b]} := by
  ext w
  constructor
  · rintro ⟨c, hc, rfl⟩
    rw [eq_of_beq hc, mem_word_iff]
  · rintro rfl
    exact ⟨b, beq_self_eq_true b, rfl⟩

theorem runs_all : runs (fun _ => true) = ⊤ :=
  Set.eq_univ_of_forall fun _ _ _ => rfl

theorem leads_byte (b : UInt8) (path : List UInt8) : Leads path (advance (· == b) path) {[b]} :=
  single_beq b ▸ leads_advance _ path

theorem leads_anything (path : List UInt8) :
    Leads path (spread (fun _ => true) false path) ⊤ :=
  runs_all ▸ leads_spread _ path

theorem leads_bytes (bytes path : List UInt8) :
    Leads path (fun live => bytes.foldl (fun l b => advance (· == b) path l) live) {bytes} := by
  induction bytes with
  | nil => exact leads_id path
  | cons b bytes ih =>
    have hcons : ({b :: bytes} : ByteLanguage) = {[b]} * {bytes} := by
      ext w
      simp [Language.mem_mul, mem_word_iff, eq_comm]
    rw [hcons]
    exact (leads_byte b path).comp ih

end Places

section Matching
variable (keepsSlash : Bool) (path : List UInt8)

mutual

/-- Each token leads where its language says. -/
theorem leads_token (token : Token) :
    Leads path (token.run keepsSlash path) (token.language keepsSlash) := by
  cases token with
  | literal c => exact leads_bytes _ path
  | anyOne => exact leads_advance _ path
  | anyRun => exact leads_spread _ path
  | deepStart =>
    exact (leads_id path).either ((leads_anything path).comp (leads_byte slash path))
  | deepEnd => exact (leads_byte slash path).comp (leads_anything path)
  | deepMiddle =>
    have hslash := leads_byte slash path
    exact hslash.either ((hslash.comp (leads_anything path)).comp hslash)
  | oneOf negated ranges => exact leads_advance _ path
  | choice branches =>
    have hsome := leads_some branches
    have hrun : Token.run keepsSlash path (.choice branches) = fun live =>
        if allHollow branches then live else runBranches keepsSlash path branches live := by
      funext live
      rw [Token.run]
    rw [hrun, Token.language]
    split
    · exact leads_id path
    · exact hsome

theorem leads_all (tokens : List Token) :
    Leads path (runAll keepsSlash path tokens) (languageOfAll keepsSlash tokens) := by
  cases tokens with
  | nil => exact leads_id path
  | cons token rest => exact (leads_token token).comp (leads_all rest)

theorem leads_some (branches : List (List Token)) :
    Leads path (runBranches keepsSlash path branches) (languageOfSome keepsSlash branches) := by
  cases branches with
  | nil => exact leads_nowhere path
  | cons branch rest =>
    have hbranch := leads_all branch
    have hrest := leads_some rest
    have hrun : runBranches keepsSlash path (branch :: rest) = fun live =>
        if isHollow branch then runBranches keepsSlash path rest live
        else either (runAll keepsSlash path branch live)
          (runBranches keepsSlash path rest live) := by
      funext live
      rw [runBranches]
    rw [hrun, languageOfSome]
    split
    · exact hrest
    · exact hbranch.either hrest

end

end Matching

theorem runAll_start_iff {keepsSlash : Bool} {path : List UInt8} {tokens : List Token} :
    (runAll keepsSlash path tokens (true :: path.map fun _ => false)).getLastD false = true ↔
      path ∈ languageOfAll keepsSlash tokens := by
  have hstart : (true :: path.map fun _ => false).length = path.length + 1 := by simp
  have hleads := leads_all keepsSlash path tokens
  have hlast : ∀ live : List Bool, live.length = path.length + 1 →
      (live.getLastD false = true ↔ live[path.length]? = some true) := by
    intro live h
    rw [List.getLastD_eq_getLast?, List.getLast?_eq_getElem?, h, Nat.add_sub_cancel]
    cases live[path.length]? <;> simp
  rw [hlast _ (hleads.length hstart), hleads.place hstart]
  constructor
  · rintro ⟨i, w, hi, hw, hword, hlength⟩
    cases i with
    | zero =>
      rw [Nat.zero_add] at hlength
      obtain rfl : w = path := hword.eq_of_length hlength.symm
      exact hw
    | succ i =>
      rw [List.getElem?_cons_succ, List.getElem?_map] at hi
      cases hb : path[i]? <;> rw [hb] at hi <;> cases hi
  · intro h
    exact ⟨0, path, rfl, h, List.prefix_refl path, (Nat.zero_add _).symm⟩

/-- Matching decides the language of the pattern. -/
theorem Pattern.matchesBytes_iff (p : Pattern) (path : List UInt8) :
    p.matchesBytes path = true ↔ path ∈ p.language := by
  unfold matchesBytes
  split
  · rename_i hstart
    exact iff_of_true rfl (Or.inl hstart)
  · rename_i hstart
    rw [runAll_start_iff]
    exact ⟨Or.inr, fun h => h.resolve_left hstart⟩

section Depth
variable {keepsSlash : Bool} {tokens : List Token} {w : List UInt8}

theorem mem_deepStart_iff :
    w ∈ Token.deepStart.language keepsSlash ↔ w = [] ∨ ∃ dirs, w = dirs ++ [slash] := by
  rw [Token.language, Language.mem_add, Language.mem_one, Language.mem_mul]
  constructor
  · rintro (rfl | ⟨dirs, -, _, rfl, rfl⟩)
    · exact Or.inl rfl
    · exact Or.inr ⟨dirs, rfl⟩
  · rintro (rfl | ⟨dirs, rfl⟩)
    · exact Or.inl rfl
    · exact Or.inr ⟨dirs, trivial, [slash], rfl, rfl⟩

theorem mem_deepEnd_iff :
    w ∈ Token.deepEnd.language keepsSlash ↔ ∃ below, w = slash :: below := by
  rw [Token.language, Language.mem_mul]
  constructor
  · rintro ⟨_, rfl, below, -, rfl⟩
    exact ⟨below, rfl⟩
  · rintro ⟨below, rfl⟩
    exact ⟨[slash], rfl, below, trivial, rfl⟩

theorem mem_concat_iff {token : Token} : w ∈ languageOfAll keepsSlash (tokens ++ [token]) ↔
    ∃ u ∈ languageOfAll keepsSlash tokens, ∃ v ∈ token.language keepsSlash, w = u ++ v := by
  rw [languageOfAll_append, languageOfAll, languageOfAll, mul_one, Language.mem_mul]
  simp only [eq_comm]

/-- Directories in front of a match are taken in. -/
theorem mem_behind (h : w ∈ languageOfAll keepsSlash tokens) (dirs : List UInt8) :
    dirs ++ slash :: w ∈ languageOfAll keepsSlash (.deepStart :: tokens) := by
  rw [List.append_cons]
  exact Language.append_mem_mul (mem_deepStart_iff.mpr (Or.inr ⟨dirs, rfl⟩)) h

/-- More directories in front of directories change nothing. -/
theorem mem_deeper (h : w ∈ languageOfAll keepsSlash (.deepStart :: tokens)) (dirs : List UInt8) :
    dirs ++ slash :: w ∈ languageOfAll keepsSlash (.deepStart :: tokens) := by
  obtain ⟨u, hu, v, hv, rfl⟩ := Language.mem_mul.mp h
  rcases mem_deepStart_iff.mp hu with rfl | ⟨more, rfl⟩
  · exact mem_behind hv dirs
  · have hdirs := mem_behind hv (dirs ++ slash :: more)
    simpa using hdirs

/-- What lies below a match is taken in. -/
theorem mem_below (h : w ∈ languageOfAll keepsSlash tokens) (below : List UInt8) :
    w ++ slash :: below ∈ languageOfAll keepsSlash (tokens ++ [.deepEnd]) :=
  mem_concat_iff.mpr ⟨w, h, slash :: below, mem_deepEnd_iff.mpr ⟨below, rfl⟩, rfl⟩

/-- What is below stays below with more behind it. -/
theorem mem_lower (h : w ∈ languageOfAll keepsSlash (tokens ++ [.deepEnd])) (more : List UInt8) :
    w ++ more ∈ languageOfAll keepsSlash (tokens ++ [.deepEnd]) := by
  obtain ⟨u, hu, v, hv, rfl⟩ := mem_concat_iff.mp h
  obtain ⟨below, rfl⟩ := mem_deepEnd_iff.mp hv
  rw [List.append_assoc, List.cons_append]
  exact mem_below hu (below ++ more)

end Depth

end CodeSearch.Glob
