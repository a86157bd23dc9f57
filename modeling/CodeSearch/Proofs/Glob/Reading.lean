import CodeSearch.Glob.Reader

/-!
# Reading globs behind directories and in front of what is below

A glob is read from left to right with a stack of open groups, so what stands in front of it lies
below all that it reads. Only its first characters can tell: two stars that begin it fill a
component of their own, and join directories that stand before them.
-/

set_option autoImplicit false

namespace CodeSearch.Glob

namespace State

variable {base : List Token} {s : State} {c : Char}

section Modes

def note (c : Char) (s : State) : State := { s with previous := some c }

theorem step_plain (hmode : s.mode = .plain) : s.step c = (s.plain c).map (note c) := by
  unfold step
  simp only [hmode]
  cases s.plain c <;> rfl

theorem step_escape (hmode : s.mode = .escape) :
    s.step c = .ok (note c { s.push (.literal c) with mode := .plain }) := by
  unfold step
  rw [hmode]
  rfl

theorem step_set {k : ClassState} (hmode : s.mode = .set k) :
    s.step c = (s.inSet k c).map (note c) := by
  unfold step
  simp only [hmode]
  cases s.inSet k c <;> rfl

theorem step_secondStar {before : Option Char} (hmode : s.mode = .star before) :
    s.step '*' = .ok (note '*' { s with mode := .twoStars before }) := by
  unfold step
  rw [hmode]
  rfl

/-- The state in which a lone star is read. -/
def oneStar (s : State) : State := { s.push .anyRun with mode := .plain }

theorem step_oneStar {before : Option Char} (hmode : s.mode = .star before) (hc : c ≠ '*') :
    s.step c = (s.oneStar.plain c).map (note c) := by
  have hstar : (c == '*') = false := beq_false_of_ne hc
  unfold step
  simp only [hmode, hstar]
  change _ = (({ s.push .anyRun with mode := .plain } : State).plain c).map (note c)
  cases ({ s.push .anyRun with mode := .plain } : State).plain c <;> rfl

theorem step_twoStars {before : Option Char} (hmode : s.mode = .twoStars before) :
    s.step c = if (s.settleStars before (some c)).2 then
        .ok (note c (s.settleStars before (some c)).1)
      else ((s.settleStars before (some c)).1.plain c).map (note c) := by
  unfold step
  simp only [hmode]
  rcases s.settleStars before (some c) with ⟨t, _ | _⟩
  · cases hplain : t.plain c <;> simp [hplain, Except.map, note]
  · rfl

end Modes

/-- Open groups with tokens put below everything. -/
def groupsOnto (base : List Token) : List Group → List Group
  | [] => []
  | [g] => [{ g with outer := g.outer ++ base }]
  | g :: h :: groups => g :: groupsOnto base (h :: groups)

/-- The state that has read the tokens of `base`, newest first, before everything else. -/
def onto (base : List Token) (s : State) : State :=
  { s with
    groups := groupsOnto base s.groups
    tokens := if s.groups.isEmpty then s.tokens ++ base else s.tokens }

@[simp] theorem isEmpty_groupsOnto (groups : List Group) :
    (groupsOnto base groups).isEmpty = groups.isEmpty := by
  rcases groups with _ | ⟨g, _ | ⟨h, groups⟩⟩ <;> rfl

theorem push_onto (t : Token) : (s.onto base).push t = (s.push t).onto base := by
  unfold push onto
  split <;> rfl

theorem closeGroup_onto : (s.onto base).closeGroup = s.closeGroup.map (onto base) := by
  obtain ⟨groups, tokens, previous, mode, bracketsPlain⟩ := s
  rcases groups with _ | ⟨g, _ | ⟨h, groups⟩⟩ <;> rfl

theorem plain_onto : (s.onto base).plain c = (s.plain c).map (onto base) := by
  have hbrackets : (s.onto base).bracketsPlain = s.bracketsPlain := rfl
  unfold plain
  simp only [hbrackets, closeGroup_onto, push_onto]
  split
  · rfl
  split
  · rfl
  split
  · rfl
  split
  · obtain ⟨_ | ⟨g, groups⟩, tokens, previous, mode, bracketsPlain⟩ := s <;> rfl
  split
  · rfl
  split
  · obtain ⟨_ | ⟨g, _ | ⟨h, groups⟩⟩, tokens, previous, mode, bracketsPlain⟩ := s <;> rfl
  split <;> rfl

theorem inSet_onto (k : ClassState) : (s.onto base).inSet k c = (s.inSet k c).map (onto base) := by
  unfold inSet
  simp only [push_onto]
  split
  · rfl
  split
  · rfl
  split
  · rfl
  split
  · split <;> rfl
  · rfl

/-- Something stands on top of what was read before the first character. -/
def Filled (s : State) : Prop := s.groups = [] → s.tokens ≠ []

/-- The same, or it is sure to come. -/
def Begun (s : State) : Prop := s.Filled ∨ s.mode = .escape ∨ ∃ k, s.mode = .set k

theorem isEmpty_tokens_onto (h : s.Filled) :
    (s.onto base).tokens.isEmpty = s.tokens.isEmpty := by
  obtain ⟨_ | ⟨g, groups⟩, _ | ⟨t, tokens⟩, previous, mode, bracketsPlain⟩ := s
  · exact absurd rfl (h rfl)
  all_goals rfl

theorem pushDeep_onto (atEnd : Bool) (h : s.Filled) :
    (s.onto base).pushDeep atEnd = (s.pushDeep atEnd).onto base := by
  obtain ⟨_ | ⟨g, groups⟩, _ | ⟨t, tokens⟩, previous, mode, bracketsPlain⟩ := s
  · exact absurd rfl (h rfl)
  · cases t <;> rfl
  · rfl
  · cases t <;> rfl

theorem settleStars_onto (before next : Option Char) (h : s.Filled) :
    (s.onto base).settleStars before next =
      ((s.settleStars before next).1.onto base, (s.settleStars before next).2) := by
  have hplain : { s.onto base with mode := .plain } = { s with mode := .plain }.onto base := rfl
  have hgroups : (s.onto base).groups.isEmpty = s.groups.isEmpty := isEmpty_groupsOnto s.groups
  have htokens : (s.onto base).tokens.isEmpty = s.tokens.isEmpty := isEmpty_tokens_onto h
  have hdeep : ∀ atEnd, ({ s with mode := .plain }.onto base).pushDeep atEnd =
      ({ s with mode := .plain }.pushDeep atEnd).onto base := fun atEnd => pushDeep_onto atEnd h
  unfold settleStars
  simp only [hplain, htokens, hgroups, pushStars, push_onto, hdeep]
  split
  · split <;> rfl
  split
  · rfl
  split
  · rfl
  split
  · rfl
  split <;> rfl

theorem Begun.filled (h : s.Begun) (hescape : s.mode ≠ .escape) (hset : ∀ k, s.mode ≠ .set k) :
    s.Filled := by
  rcases h with h | h | ⟨k, h⟩
  · exact h
  · exact absurd h hescape
  · exact absurd h (hset k)

theorem map_onto_note (r : Except GlobError State) :
    (r.map (onto base)).map (note c) = (r.map (note c)).map (onto base) := by
  cases r <;> rfl

theorem step_onto (h : s.Begun) : (s.onto base).step c = (s.step c).map (onto base) := by
  cases hmode : s.mode with
  | plain =>
    rw [step_plain hmode, ← map_onto_note, ← plain_onto]
    exact step_plain hmode
  | escape =>
    rw [step_escape hmode, step_escape (s := s.onto base) hmode, push_onto]
    rfl
  | set k =>
    rw [step_set hmode, ← map_onto_note, ← inSet_onto]
    exact step_set hmode
  | star before =>
    by_cases hc : c = '*'
    · subst hc
      rw [step_secondStar hmode, step_secondStar (s := s.onto base) hmode]
      rfl
    · have hstar : (s.onto base).oneStar = s.oneStar.onto base := by
        unfold oneStar
        rw [push_onto]
        rfl
      rw [step_oneStar hmode hc, ← map_onto_note, ← plain_onto, ← hstar]
      exact step_oneStar hmode hc
  | twoStars before =>
    -- Two stars ask what stands before them, which must not be the base.
    have hfilled : s.Filled := by
      apply h.filled <;> rw [hmode] <;> nofun
    rw [step_twoStars hmode, step_twoStars (s := s.onto base) hmode, settleStars_onto _ _ hfilled]
    split
    · rfl
    · rw [plain_onto, map_onto_note]

/-- What a character that continues nothing does to what is read. -/
inductive Change (s : State) (c : Char) : State → Prop where
  | push {token : Token} (h : token ≠ .deepStart) : Change s c (s.push token)
  | star (h : c = '*') : Change s c { s with mode := .star s.previous }
  | openSet : Change s c { s with mode := .set {} }
  | openBranch (g : Group) (groups : List Group) :
    Change s c { s with groups := g :: groups, tokens := [] }
  | closeGroup {g : Group} (branches : List (List Token)) (groups : List Group)
    (h : g ∈ s.groups) : Change s c { s with groups, tokens := .choice branches :: g.outer }
  | escape : Change s c { s with mode := .escape }

theorem change_of_plain {t : State} (h : s.plain c = .ok t) : Change s c t := by
  unfold plain at h
  split at h
  · cases h
    exact .push nofun
  split at h
  · rename_i hstar
    cases h
    exact .star (eq_of_beq hstar)
  split at h
  · cases h
    exact .openSet
  split at h
  · cases h
    exact .openBranch _ _
  split at h
  · unfold State.closeGroup at h
    split at h
    · cases h
    · rename_i g groups hgroups
      cases h
      exact .closeGroup _ _ (hgroups ▸ List.mem_cons_self)
  split at h
  · split at h
    · cases h
      exact .push nofun
    · cases h
      exact .openBranch _ _
  split at h
  · cases h
    exact .escape
  · cases h
    exact .push nofun

theorem filled_push (s : State) (token : Token) : (s.push token).Filled :=
  fun _ => List.cons_ne_nil _ _

theorem Change.begun {t : State} (h : Change s c t) (hstar : c = '*' → s.Filled) : t.Begun := by
  cases h with
  | push _ => exact Or.inl (filled_push s _)
  | star hc => exact Or.inl (hstar hc)
  | openSet => exact Or.inr (Or.inr ⟨_, rfl⟩)
  | openBranch g groups => exact Or.inl nofun
  | closeGroup branches groups _ => exact Or.inl fun _ => List.cons_ne_nil _ _
  | escape => exact Or.inr (Or.inl rfl)

theorem settleStars_cases (s : State) (before next : Option Char) :
    s.tokens = [] ∧ (s.settleStars before next).1 = { s with mode := .plain }.push .deepStart ∨
      (s.settleStars before next).1 = { s with mode := .plain }.pushStars ∨
      s.tokens ≠ [] ∧ ∃ atEnd,
        (s.settleStars before next).1 = { s with mode := .plain }.pushDeep atEnd := by
  unfold settleStars
  simp only
  split
  · rename_i hempty
    split
    · exact Or.inl ⟨List.isEmpty_iff.mp hempty, rfl⟩
    · exact Or.inr (Or.inl rfl)
  · rename_i hempty
    have hne : s.tokens ≠ [] := by simpa using hempty
    split
    · exact Or.inr (Or.inl rfl)
    split
    · exact Or.inr (Or.inr ⟨hne, true, rfl⟩)
    split
    · exact Or.inr (Or.inr ⟨hne, true, rfl⟩)
    split
    · exact Or.inr (Or.inr ⟨hne, false, rfl⟩)
    · exact Or.inr (Or.inl rfl)

theorem filled_settleStars (s : State) (before next : Option Char) :
    (s.settleStars before next).1.Filled := by
  rcases settleStars_cases s before next with ⟨-, h⟩ | h | ⟨hne, atEnd, h⟩
  · exact h ▸ filled_push _ _
  · exact h ▸ filled_push _ _
  · rw [h]
    intro _
    unfold pushDeep
    split
    · exact hne
    · exact hne
    · exact List.cons_ne_nil _ _
    · exact hne

/-- What a character does, except that it is noted as the previous one. -/
inductive Taken (s : State) (c : Char) : State → Prop where
  | plain {t : State} (hmode : s.mode = .plain) (h : Change s c t) : Taken s c t
  | escaped (hmode : s.mode = .escape) : Taken s c { s.push (.literal c) with mode := .plain }
  | inSet {k : ClassState} {t : State} (hmode : s.mode = .set k) (h : s.inSet k c = .ok t) :
    Taken s c t
  | secondStar {before : Option Char} (hmode : s.mode = .star before) :
    Taken s c { s with mode := .twoStars before }
  | oneStar {before : Option Char} {t : State} (hmode : s.mode = .star before)
    (h : Change s.oneStar c t) : Taken s c t
  | deep {before : Option Char} (hmode : s.mode = .twoStars before) :
    Taken s c (s.settleStars before (some c)).1
  | twoStars {before : Option Char} {t : State} (hmode : s.mode = .twoStars before)
    (h : Change (s.settleStars before (some c)).1 c t) : Taken s c t

theorem taken_of_step {t : State} (h : s.step c = .ok t) : ∃ u, Taken s c u ∧ t = note c u := by
  have hnoted : ∀ {r : Except GlobError State}, r.map (note c) = .ok t →
      ∃ u, r = .ok u ∧ t = note c u := by
    intro r hr
    cases r with
    | error e => cases hr
    | ok u => exact ⟨u, rfl, (Except.ok.inj hr).symm⟩
  cases hmode : s.mode with
  | plain =>
    rw [step_plain hmode] at h
    obtain ⟨u, hu, ht⟩ := hnoted h
    exact ⟨u, .plain hmode (change_of_plain hu), ht⟩
  | escape =>
    rw [step_escape hmode] at h
    exact ⟨_, .escaped hmode, (Except.ok.inj h).symm⟩
  | set k =>
    rw [step_set hmode] at h
    obtain ⟨u, hu, ht⟩ := hnoted h
    exact ⟨u, .inSet hmode hu, ht⟩
  | star before =>
    by_cases hc : c = '*'
    · subst hc
      rw [step_secondStar hmode] at h
      exact ⟨_, .secondStar hmode, (Except.ok.inj h).symm⟩
    · rw [step_oneStar hmode hc] at h
      obtain ⟨u, hu, ht⟩ := hnoted h
      exact ⟨u, .oneStar hmode (change_of_plain hu), ht⟩
  | twoStars before =>
    rw [step_twoStars hmode] at h
    split at h
    · exact ⟨_, .deep hmode, (Except.ok.inj h).symm⟩
    · obtain ⟨u, hu, ht⟩ := hnoted h
      exact ⟨u, .twoStars hmode (change_of_plain hu), ht⟩

theorem inSet_cases {k : ClassState} {t : State} (h : s.inSet k c = .ok t) :
    (∃ negated ranges, t = { s.push (.oneOf negated ranges) with mode := .plain }) ∨
      ∃ k', t = { s with mode := .set k' } := by
  unfold State.inSet at h
  split at h
  · cases h
    exact Or.inr ⟨_, rfl⟩
  simp only at h
  split at h
  · cases h
    exact Or.inl ⟨_, _, rfl⟩
  split at h
  · cases h
    exact Or.inr ⟨_, rfl⟩
  split at h
  · split at h
    · cases h
    · cases h
      exact Or.inr ⟨_, rfl⟩
  · cases h
    exact Or.inr ⟨_, rfl⟩

theorem Begun.step {t : State} (h : s.Begun) (ht : s.step c = .ok t) : t.Begun := by
  obtain ⟨u, hu, rfl⟩ := taken_of_step ht
  suffices u.Begun from this
  cases hu with
  | plain hmode hchange =>
    apply hchange.begun fun _ => h.filled ?_ ?_ <;> rw [hmode] <;> nofun
  | escaped hmode => exact Or.inl (filled_push s _)
  | inSet hmode hset =>
    rcases inSet_cases hset with ⟨negated, ranges, rfl⟩ | ⟨k, rfl⟩
    · exact Or.inl (filled_push s _)
    · exact Or.inr (Or.inr ⟨k, rfl⟩)
  | secondStar hmode =>
    apply Or.inl (h.filled ?_ ?_) <;> rw [hmode] <;> nofun
  | oneStar hmode hchange => exact hchange.begun fun _ => filled_push s _
  | deep hmode => exact Or.inl (filled_settleStars s _ _)
  | twoStars hmode hchange => exact hchange.begun fun _ => filled_settleStars s _ _

/-- Reads a text to the end of the glob. -/
def read (s : State) (cs : List Char) : Except GlobError (List Token) :=
  match s.steps cs with
  | .error e => .error e
  | .ok t => t.finish

theorem read_cons (s : State) (c : Char) (cs : List Char) :
    s.read (c :: cs) = match s.step c with
      | .error e => .error e
      | .ok t => t.read cs := by
  unfold read
  rw [steps]
  cases s.step c <;> rfl

theorem steps_cons_ok_iff {t : State} {cs : List Char} :
    s.steps (c :: cs) = .ok t ↔ ∃ u, s.step c = .ok u ∧ u.steps cs = .ok t := by
  rw [steps]
  cases s.step c <;> simp

theorem read_eq_of_step_eq {t : State} (h : s.step c = t.step c) (cs : List Char) :
    s.read (c :: cs) = t.read (c :: cs) := by
  rw [read_cons, read_cons, h]

theorem read_ok_iff {cs : List Char} {tokens : List Token} :
    s.read cs = .ok tokens ↔ ∃ t, s.steps cs = .ok t ∧ t.finish = .ok tokens := by
  unfold read
  cases s.steps cs <;> simp

/-- The tokens, unless a group is open. -/
def closed (s : State) : Except GlobError (List Token) :=
  if s.groups.isEmpty then .ok s.tokens.reverse else .error .unclosedChoice

theorem closed_onto : (s.onto base).closed = s.closed.map (base.reverse ++ ·) := by
  obtain ⟨_ | ⟨g, groups⟩, tokens, previous, mode, bracketsPlain⟩ := s
  · exact congrArg Except.ok List.reverse_append
  · simp [closed, onto, Except.map]

theorem closed_ok {tokens : List Token} (h : s.closed = .ok tokens) :
    s.groups = [] ∧ tokens = s.tokens.reverse := by
  unfold closed at h
  split at h
  · rename_i hempty
    exact ⟨List.isEmpty_iff.mp hempty, (Except.ok.inj h).symm⟩
  · cases h

/-- Stars only add to the tokens. -/
theorem frame_settleStars (s : State) (before next : Option Char) :
    (s.settleStars before next).1.mode = .plain ∧
      (s.settleStars before next).1.groups = s.groups := by
  rcases settleStars_cases s before next with ⟨-, h⟩ | h | ⟨-, atEnd, h⟩
  · rw [h]
    exact ⟨rfl, rfl⟩
  · rw [h]
    exact ⟨rfl, rfl⟩
  · rw [h]
    unfold pushDeep
    split <;> exact ⟨rfl, rfl⟩

theorem finish_plain (hmode : s.mode = .plain) : s.finish = s.closed := by
  unfold finish
  simp only [hmode]
  rfl

theorem finish_star {before : Option Char} (hmode : s.mode = .star before) :
    s.finish = (s.push .anyRun).closed := by
  unfold finish
  have hpush : (s.push .anyRun).mode = .star before := hmode
  simp only [hmode, hpush]
  rfl

theorem finish_escape (hmode : s.mode = .escape) : s.finish = .error .danglingEscape := by
  unfold finish
  simp only [hmode]

theorem finish_set {k : ClassState} (hmode : s.mode = .set k) :
    s.finish = .error .unclosedClass := by
  unfold finish
  simp only [hmode]

theorem finish_twoStars {before : Option Char} (hmode : s.mode = .twoStars before) :
    s.finish = (s.settleStars before none).1.closed := by
  unfold finish
  simp only [hmode, (frame_settleStars s before none).1]
  rfl

theorem finish_onto (h : s.Begun) :
    (s.onto base).finish = s.finish.map (base.reverse ++ ·) := by
  cases hmode : s.mode with
  | plain =>
    rw [finish_plain hmode, ← closed_onto]
    exact finish_plain hmode
  | star before =>
    rw [finish_star hmode, ← closed_onto, ← push_onto]
    exact finish_star hmode
  | twoStars before =>
    have hfilled : s.Filled := by
      apply h.filled <;> rw [hmode] <;> nofun
    rw [finish_twoStars hmode, ← closed_onto, finish_twoStars (s := s.onto base) hmode,
      settleStars_onto _ _ hfilled]
  | escape => rw [finish_escape hmode, finish_escape (s := s.onto base) hmode]; rfl
  | set k => rw [finish_set hmode, finish_set (s := s.onto base) hmode]; rfl

/-- Behind other tokens the same is read. -/
theorem read_onto (h : s.Begun) (cs : List Char) :
    (s.onto base).read cs = (s.read cs).map (base.reverse ++ ·) := by
  induction cs generalizing s with
  | nil => exact finish_onto h
  | cons c cs ih =>
    rw [read_cons, read_cons, step_onto h]
    cases ht : s.step c with
    | error e => rfl
    | ok t => exact ih (h.step ht)

section Behind

/-- The state behind two stars and a slash. -/
def deep : State := { tokens := [.deepStart], previous := some '/' }

/-- The state behind stars that are wildcards. -/
def wildcards (tokens : List Token) : State := { tokens, previous := some '*' }

theorem begun_wildcards {tokens : List Token} (h : tokens ≠ []) : (wildcards tokens).Begun :=
  Or.inl fun _ => h

theorem read_slash (cs : List Char) : ({} : State).read ('*' :: '*' :: '/' :: cs) = deep.read cs :=
  rfl

theorem read_deep_slash (cs : List Char) : deep.read ('*' :: '*' :: '/' :: cs) = deep.read cs := rfl

theorem plain_previous (hc : c ≠ '*') (previous : Option Char) :
    { s with previous }.plain c = (s.plain c).map fun t => { t with previous } := by
  unfold plain
  split
  · rfl
  rw [if_neg (mt eq_of_beq hc), if_neg (mt eq_of_beq hc)]
  split
  · rfl
  split
  · rfl
  split
  · obtain ⟨_ | ⟨g, groups⟩, tokens, p, mode, bracketsPlain⟩ := s <;> rfl
  split
  · obtain ⟨_ | ⟨g, groups⟩, tokens, p, mode, bracketsPlain⟩ := s <;> rfl
  split <;> rfl

theorem step_deep (hc : c ≠ '*') : deep.step c = (({} : State).step c).map (onto [.deepStart]) := by
  have honto : deep.plain c = (({ previous := some '/' } : State).plain c).map
      (onto [.deepStart]) := plain_onto (s := { previous := some '/' })
  rw [step_plain rfl, step_plain rfl, honto, plain_previous (s := {}) hc, map_onto_note]
  cases ({} : State).plain c <;> rfl

theorem begun_of_step {t : State} (hc : c ≠ '*') (ht : ({} : State).step c = .ok t) : t.Begun := by
  obtain ⟨u, hu, rfl⟩ := taken_of_step ht
  cases hu with
  | plain _ hchange => exact hchange.begun fun hstar => absurd hstar hc
  | escaped hmode => cases hmode
  | inSet hmode => cases hmode
  | secondStar hmode => cases hmode
  | oneStar hmode => cases hmode
  | deep hmode => cases hmode
  | twoStars hmode => cases hmode

theorem read_oneStar (hc : c ≠ '*') (cs : List Char) :
    ({} : State).read ('*' :: c :: cs) = (wildcards [.anyRun]).read (c :: cs) ∧
      deep.read ('*' :: c :: cs) = ((wildcards [.anyRun]).onto [.deepStart]).read (c :: cs) := by
  constructor
  · rw [read_cons]
    apply read_eq_of_step_eq
    rw [step_oneStar rfl hc, step_plain rfl]
    rfl
  · rw [read_cons]
    apply read_eq_of_step_eq
    rw [step_oneStar rfl hc, step_plain rfl]
    rfl

theorem read_twoStars (hc : c ≠ '/') (cs : List Char) :
    ({} : State).read ('*' :: '*' :: c :: cs) = (wildcards [.anyRun, .anyRun]).read (c :: cs) ∧
      deep.read ('*' :: '*' :: c :: cs) =
        ((wildcards [.anyRun, .anyRun]).onto [.deepStart]).read (c :: cs) := by
  have hslash : some c ≠ some '/' := fun h => hc (Option.some.inj h)
  constructor
  · let s : State := { mode := .twoStars none, previous := some '*' }
    have hsettle : s.settleStars none (some c) = (wildcards [.anyRun, .anyRun], false) := by
      simp [s, settleStars, hslash, wildcards, pushStars, push]
    rw [read_cons]
    apply read_eq_of_step_eq (s := s)
    rw [step_twoStars rfl, hsettle, step_plain rfl]
    rfl
  · let s : State := { deep with mode := .twoStars (some '/'), previous := some '*' }
    have hsettle : s.settleStars (some '/') (some c) =
        ((wildcards [.anyRun, .anyRun]).onto [.deepStart], false) := by
      simp [s, settleStars, hslash, wildcards, pushStars, push, deep, onto, groupsOnto]
    rw [read_cons]
    apply read_eq_of_step_eq (s := s)
    rw [step_twoStars rfl, hsettle, step_plain rfl]
    rfl

/-- Two stars at the front of a glob join the directories before it; any other glob is read the same
behind directories. -/
theorem read_deep_cases (cs : List Char) :
    cs = ['*', '*'] ∨ (∃ rest, cs = '*' :: '*' :: '/' :: rest) ∨
      deep.read cs = (({} : State).read cs).map (.deepStart :: ·) := by
  -- Behind its first three characters a glob has something on top, and nothing below it matters.
  match cs with
  | [] => exact Or.inr (Or.inr rfl)
  | c :: cs =>
    by_cases hc : c = '*'
    · subst hc
      match cs with
      | [] => exact Or.inr (Or.inr rfl)
      | c :: cs =>
        by_cases hc : c = '*'
        · subst hc
          match cs with
          | [] => exact Or.inl rfl
          | c :: cs =>
            by_cases hc : c = '/'
            · exact Or.inr (Or.inl ⟨cs, hc ▸ rfl⟩)
            · rw [(read_twoStars hc cs).1, (read_twoStars hc cs).2]
              exact Or.inr (Or.inr (read_onto (begun_wildcards (List.cons_ne_nil _ _)) _))
        · rw [(read_oneStar hc cs).1, (read_oneStar hc cs).2]
          exact Or.inr (Or.inr (read_onto (begun_wildcards (List.cons_ne_nil _ _)) _))
    · rw [read_cons, read_cons, step_deep hc]
      cases ht : ({} : State).step c with
      | error e => exact Or.inr (Or.inr rfl)
      | ok t => exact Or.inr (Or.inr (read_onto (begun_of_step hc ht) cs))

/-- The directories in front stay in front. -/
theorem read_deep_front {cs : List Char} {tokens : List Token} (h : deep.read cs = .ok tokens) :
    ∃ rest, tokens = .deepStart :: rest := by
  rcases read_deep_cases cs with rfl | ⟨rest, rfl⟩ | hmap
  · cases h
    exact ⟨[], rfl⟩
  · exact read_deep_front (read_deep_slash rest ▸ h)
  · rw [hmap] at h
    cases hread : ({} : State).read cs with
    | error e => cases hread ▸ h
    | ok rest =>
      rw [hread] at h
      exact ⟨rest, (Except.ok.inj h).symm⟩
termination_by cs.length

/-- A glob behind any directories reads as directories and its tokens, or as its tokens where these
begin with directories. -/
theorem read_behind {cs : List Char} {tokens : List Token}
    (h : ({} : State).read cs = .ok tokens) :
    deep.read cs = .ok (.deepStart :: tokens) ∨
      deep.read cs = .ok tokens ∧ ∃ rest, tokens = .deepStart :: rest := by
  rcases read_deep_cases cs with rfl | ⟨rest, rfl⟩ | hmap
  · cases h
    exact Or.inr ⟨rfl, [], rfl⟩
  · rw [read_slash] at h
    rw [read_deep_slash]
    exact Or.inr ⟨h, read_deep_front h⟩
  · rw [hmap, h]
    exact Or.inl rfl

end Behind

section Below

/-- Directories in front stand alone. -/
def LoneDeep (s : State) : Prop := ∀ rest, s.tokens = .deepStart :: rest → rest = []

theorem LoneDeep.change {t : State} (h : s.LoneDeep) (ht : Change s c t) : t.LoneDeep := by
  cases ht with
  | push htoken =>
    intro rest heq
    exact absurd (List.cons.inj heq).1 htoken
  | star _ => exact h
  | openSet => exact h
  | openBranch g groups => exact nofun
  | closeGroup branches groups _ => exact nofun
  | escape => exact h

theorem LoneDeep.settleStars (h : s.LoneDeep) (before next : Option Char) :
    (s.settleStars before next).1.LoneDeep := by
  rcases settleStars_cases s before next with ⟨hempty, heq⟩ | heq | ⟨-, atEnd, heq⟩
  · rw [heq]
    intro rest hrest
    rw [← (List.cons.inj hrest).2]
    exact hempty
  · rw [heq]
    exact nofun
  · rw [heq]
    unfold pushDeep
    split
    · exact h
    · exact h
    · cases atEnd <;> exact nofun
    · exact h

theorem LoneDeep.step {t : State} (h : s.LoneDeep) (ht : s.step c = .ok t) : t.LoneDeep := by
  obtain ⟨u, hu, rfl⟩ := taken_of_step ht
  suffices u.LoneDeep from this
  cases hu with
  | plain _ hchange => exact h.change hchange
  | escaped _ => exact nofun
  | inSet _ hset =>
    rcases inSet_cases hset with ⟨negated, ranges, rfl⟩ | ⟨k, rfl⟩
    · exact nofun
    · exact h
  | secondStar _ => exact h
  | oneStar _ hchange =>
    have hpush : s.oneStar.LoneDeep := nofun
    exact hpush.change hchange
  | deep _ => exact h.settleStars _ _
  | twoStars _ hchange => exact (h.settleStars _ _).change hchange

theorem LoneDeep.steps {t : State} {cs : List Char} (h : s.LoneDeep) (ht : s.steps cs = .ok t) :
    t.LoneDeep := by
  induction cs generalizing s with
  | nil =>
    cases ht
    exact h
  | cons c cs ih =>
    obtain ⟨u, hu, ht⟩ := steps_cons_ok_iff.mp ht
    exact ih (h.step hu) ht

theorem LoneDeep.finish {tokens : List Token} (h : s.LoneDeep) (hfinish : s.finish = .ok tokens)
    {front : List Token} (hfront : tokens = front ++ [.deepStart]) : front = [] := by
  have hclosed : ∀ {t : State}, t.LoneDeep → t.closed = .ok tokens → front = [] := by
    intro t ht htokens
    obtain ⟨-, rfl⟩ := closed_ok htokens
    have hreverse : t.tokens = .deepStart :: front.reverse := by
      rw [← List.reverse_reverse t.tokens, hfront, List.reverse_append]
      rfl
    exact List.reverse_eq_nil_iff.mp (ht _ hreverse)
  cases hmode : s.mode with
  | plain =>
    rw [finish_plain hmode] at hfinish
    exact hclosed h hfinish
  | star before =>
    rw [finish_star hmode] at hfinish
    exact hclosed (t := s.push .anyRun) nofun hfinish
  | twoStars before =>
    rw [finish_twoStars hmode] at hfinish
    exact hclosed (h.settleStars _ _) hfinish
  | escape => cases (finish_escape hmode).symm.trans hfinish
  | set k => cases (finish_set hmode).symm.trans hfinish

/-- Directories in front are read once: a glob behind them does not read as directories alone. -/
theorem read_deep_ne {cs : List Char} : deep.read cs ≠ .ok [.deepStart, .deepStart] := by
  intro h
  obtain ⟨s, hs, hfinish⟩ := read_ok_iff.mp h
  have hdeep : deep.LoneDeep := fun rest hrest => (List.cons.inj hrest).2.symm
  have hfront : [Token.deepStart] = [] := (hdeep.steps hs).finish hfinish rfl
  cases hfront

theorem LoneDeep.pushDeep_end (h : s.LoneDeep) (hne : s.tokens ≠ []) :
    ({ s with mode := .plain }.pushDeep true).tokens = [.deepStart] ∨
      ∃ rest, ({ s with mode := .plain }.pushDeep true).tokens = .deepEnd :: rest := by
  unfold pushDeep
  simp only
  split
  · rename_i rest htokens
    obtain rfl := h rest htokens
    exact Or.inl htokens
  · rename_i rest htokens
    exact Or.inr ⟨rest, htokens⟩
  · exact Or.inr ⟨_, rfl⟩
  · rename_i htokens
    exact absurd htokens hne

theorem steps_append {t : State} {front : List Char} (h : s.steps front = .ok t)
    (back : List Char) : s.steps (front ++ back) = t.steps back := by
  induction front generalizing s with
  | nil =>
    cases h
    rfl
  | cons c front ih =>
    obtain ⟨u, hu, h⟩ := steps_cons_ok_iff.mp h
    rw [List.cons_append, steps, hu]
    exact ih h

/-- Two stars behind a slash take its place. -/
theorem read_tail {t : State} (hstep : s.step '/' = t.step '/') (hmode : t.mode = .plain)
    (hgroups : t.groups = []) : s.read "/**".toList = .ok (t.tokens.reverse ++ [.deepEnd]) := by
  have hread : s.read "/**".toList = t.read "/**".toList := read_eq_of_step_eq hstep ['*', '*']
  rw [hread]
  obtain ⟨groups, tokens, previous, mode, bracketsPlain⟩ := t
  subst hmode hgroups
  exact congrArg Except.ok List.reverse_cons

/-- Two stars behind two stars and a slash join them. -/
theorem read_joined {before : Option Char} (hmode : s.mode = .twoStars before)
    (hgroups : s.groups = []) (htokens : s.tokens ≠ []) (hbefore : before = some '/') :
    s.read "/**".toList = .ok ({ s with mode := .plain }.pushDeep true).tokens.reverse := by
  obtain ⟨groups, tokens, previous, mode, bracketsPlain⟩ := s
  subst hmode hgroups hbefore
  cases tokens with
  | nil => exact absurd rfl htokens
  | cons token rest => cases token <;> rfl

/-- A glob in front of all that is below reads as its tokens and what is below, unless it takes that
in already. -/
theorem read_below {cs : List Char} {tokens : List Token} (h : ({} : State).read cs = .ok tokens) :
    tokens = [.deepStart] ∨
      ((∃ front, tokens = front ++ [.deepEnd]) ∧
        ({} : State).read (cs ++ "/**".toList) = .ok tokens) ∨
      ({} : State).read (cs ++ "/**".toList) = .ok (tokens ++ [.deepEnd]) := by
  obtain ⟨s, hs, hfinish⟩ := read_ok_iff.mp h
  have hlone : s.LoneDeep := LoneDeep.steps (s := {}) nofun hs
  have happend : ({} : State).read (cs ++ "/**".toList) = s.read "/**".toList := by
    unfold read
    rw [steps_append hs]
  rw [happend]
  cases hmode : s.mode with
  | plain =>
    rw [finish_plain hmode] at hfinish
    obtain ⟨hgroups, rfl⟩ := closed_ok hfinish
    exact Or.inr (Or.inr (read_tail rfl hmode hgroups))
  | star before =>
    rw [finish_star hmode] at hfinish
    obtain ⟨hgroups, rfl⟩ := closed_ok hfinish
    have hstep : s.step '/' = s.oneStar.step '/' := by
      rw [step_oneStar hmode (by decide), step_plain rfl]
    exact Or.inr (Or.inr (read_tail (t := s.oneStar) hstep rfl hgroups))
  | twoStars before =>
    rw [finish_twoStars hmode] at hfinish
    obtain ⟨hgroups, rfl⟩ := closed_ok hfinish
    rw [(frame_settleStars s before none).2] at hgroups
    -- The stars mean directories at the end as before a slash, or wildcards in both places.
    by_cases htokens : s.tokens = []
    · left
      simp [settleStars, htokens, push]
    by_cases hbefore : before = some '/'
    · have hsettle : (s.settleStars before none).1 = { s with mode := .plain }.pushDeep true := by
        simp [settleStars, htokens, hbefore]
      rw [hsettle]
      rcases hlone.pushDeep_end htokens with h | ⟨rest, h⟩
      · exact Or.inl (congrArg List.reverse h)
      · have hfront := (congrArg List.reverse h).trans List.reverse_cons
        exact Or.inr (Or.inl ⟨⟨rest.reverse, hfront⟩, read_joined hmode hgroups htokens hbefore⟩)
    · have hsettle : ∀ next,
          s.settleStars before next = ({ s with mode := .plain }.pushStars, false) := by
        intro next
        simp [settleStars, htokens, hbefore, hgroups]
      have hstep : s.step '/' = { s with mode := .plain }.pushStars.step '/' := by
        rw [step_twoStars hmode, hsettle, step_plain rfl]
        rfl
      rw [hsettle]
      exact Or.inr (Or.inr (read_tail hstep rfl hgroups))
  | escape => cases (finish_escape hmode).symm.trans hfinish
  | set k => cases (finish_set hmode).symm.trans hfinish

end Below

end State

end CodeSearch.Glob
