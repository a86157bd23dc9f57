import CodeSearch.Proofs.Text.Squeezing
import CodeSearch.Text.Lines

/-!
# Runs of characters

The maximal runs of a kind of characters in a text are the words between the other characters.
Squeezing what is between them to one character each, and trimming, joins the runs by that
character; a joined text has the same runs again.
-/

set_option autoImplicit false

namespace CodeSearch.Text
variable {p q : Char → Bool} {r : Char}

/-- A text with its maximal runs of characters of `p`: a gap without such characters, a run, and
what is behind it, which does not start with such a character. -/
inductive Runs (p : Char → Bool) : List Char → List (List Char) → Prop where
  | none {gap : List Char} : (∀ c ∈ gap, p c = false) → Runs p gap []
  | run {gap word rest : List Char} {words : List (List Char)} : (∀ c ∈ gap, p c = false) →
      word ≠ [] → (∀ c ∈ word, p c = true) → (∀ c ∈ rest.head?, p c = false) →
      Runs p rest words → Runs p (gap ++ word ++ rest) (word :: words)

/-- What a list of runs is made of. -/
def Solid (p : Char → Bool) (words : List (List Char)) : Prop :=
  ∀ word ∈ words, word ≠ [] ∧ ∀ c ∈ word, p c = true

namespace Runs

theorem solid {cs : List Char} {words : List (List Char)} (h : Runs p cs words) :
    Solid p words := by
  induction h with
  | none _ => exact List.forall_mem_nil _
  | run _ hne hword _ _ ih => exact List.forall_mem_cons.mpr ⟨⟨hne, hword⟩, ih⟩

theorem mem_of_mem {cs : List Char} {words : List (List Char)} (h : Runs p cs words)
    {word : List Char} (hword : word ∈ words) {c : Char} (hc : c ∈ word) : c ∈ cs := by
  induction h with
  | none _ => cases hword
  | run _ _ _ _ _ ih =>
    rcases List.mem_cons.mp hword with rfl | hword
    · exact List.mem_append_left _ (List.mem_append_right _ hc)
    · exact List.mem_append_right _ (ih hword)

theorem start {word rest : List Char} {words : List (List Char)} (hne : word ≠ [])
    (hword : ∀ c ∈ word, p c = true) (hhead : ∀ c ∈ rest.head?, p c = false)
    (h : Runs p rest words) : Runs p (word ++ rest) (word :: words) :=
  .run (List.forall_mem_nil _) hne hword hhead h

theorem cons_gap {c : Char} {cs : List Char} {words : List (List Char)} (hc : p c = false)
    (h : Runs p cs words) : Runs p (c :: cs) words := by
  cases h with
  | none hgap => exact .none (List.forall_mem_cons.mpr ⟨hc, hgap⟩)
  | @run gap _ _ _ hgap hne hword hhead hrest =>
    have hlonger : ∀ d ∈ c :: gap, p d = false := List.forall_mem_cons.mpr ⟨hc, hgap⟩
    exact .run hlonger hne hword hhead hrest

theorem exists_cons_run {c : Char} {cs : List Char} {words : List (List Char)} (hc : p c = true)
    (h : Runs p cs words) : ∃ words', Runs p (c :: cs) words' := by
  have hone : ∀ d ∈ [c], p d = true := List.forall_mem_singleton.mpr hc
  by_cases hhead : ∀ d ∈ cs.head?, p d = false
  · exact ⟨[c] :: words, .start (List.cons_ne_nil c []) hone hhead h⟩
  · -- The text goes on with a run, and that run gets longer.
    cases h with
    | none hgap => exact absurd (fun d hd => hgap d (List.mem_of_mem_head? hd)) hhead
    | @run gap word rest words hgap hne hword hrest hruns =>
      cases gap with
      | nil =>
        have hlonger : ∀ d ∈ c :: word, p d = true := List.forall_mem_cons.mpr ⟨hc, hword⟩
        exact ⟨(c :: word) :: words, .start (List.cons_ne_nil c word) hlonger hrest hruns⟩
      | cons d gap =>
        refine absurd (fun e he => ?_) hhead
        obtain rfl := Option.some.inj he
        exact hgap d List.mem_cons_self

theorem exists_runs (p : Char → Bool) (cs : List Char) : ∃ words, Runs p cs words := by
  induction cs with
  | nil => exact ⟨[], .none (List.forall_mem_nil _)⟩
  | cons c cs ih =>
    obtain ⟨words, h⟩ := ih
    cases hc : p c with
    | false => exact ⟨words, h.cons_gap hc⟩
    | true => exact h.exists_cons_run hc

/-- A change of characters that keeps the runs as they are and their gaps as gaps. -/
theorem map {f : Char → Char} (hkind : ∀ c, q (f c) = p c) (hkept : ∀ c, p c = true → f c = c)
    {cs : List Char} {words : List (List Char)} (h : Runs p cs words) :
    Runs q (cs.map f) words := by
  have hgaps : ∀ gap : List Char, (∀ c ∈ gap, p c = false) → ∀ c ∈ gap.map f, q c = false := by
    intro gap hgap c hc
    obtain ⟨d, hd, rfl⟩ := List.mem_map.mp hc
    rw [hkind, hgap d hd]
  induction h with
  | none hgap => exact .none (hgaps _ hgap)
  | @run gap word rest words hgap hne hword hhead _ ih =>
    have hsame : word.map f = word := by
      rw [List.map_congr_left fun c hc => hkept c (hword c hc), List.map_id']
    rw [List.map_append, List.map_append, hsame]
    refine .run (hgaps _ hgap) hne (fun c hc => ?_) (fun c hc => ?_) ih
    · rw [← hkept c (hword c hc), hkind, hword c hc]
    · rw [List.head?_map] at hc
      obtain ⟨d, hd, rfl⟩ := Option.map_eq_some_iff.mp hc
      rw [hkind, hhead d hd]

end Runs

section Words

theorem wordsFrom_gap {gap : List Char} (hgap : ∀ c ∈ gap, p c = true) (done : List (List Char))
    (cs : List Char) : wordsFrom p done [] (gap ++ cs) = wordsFrom p done [] cs := by
  induction gap with
  | nil => rfl
  | cons c gap ih =>
    obtain ⟨hc, hgap⟩ := List.forall_mem_cons.mp hgap
    rw [List.cons_append, wordsFrom, if_pos hc]
    exact ih hgap

theorem wordsFrom_word {word : List Char} (hword : ∀ c ∈ word, p c = false)
    (done : List (List Char)) (before cs : List Char) :
    wordsFrom p done before (word ++ cs) = wordsFrom p done (word.reverse ++ before) cs := by
  induction word generalizing before with
  | nil => rfl
  | cons c word ih =>
    obtain ⟨hc, hword⟩ := List.forall_mem_cons.mp hword
    rw [List.cons_append, wordsFrom, if_neg (by rw [hc]; exact Bool.false_ne_true), ih hword,
      List.reverse_cons, List.append_assoc, List.singleton_append]

theorem wordsFrom_end {word : List Char} (hne : word ≠ []) (done : List (List Char))
    {cs : List Char} (hhead : ∀ c ∈ cs.head?, p c = true) :
    wordsFrom p done word cs = wordsFrom p (word.reverse :: done) [] cs := by
  have hsome : ¬ word.isEmpty = true := by rwa [List.isEmpty_iff]
  cases cs with
  | nil =>
    rw [wordsFrom, wordsFrom, if_neg hsome]
    rfl
  | cons c cs =>
    have hc := hhead c rfl
    rw [wordsFrom, wordsFrom, if_pos hc, if_pos hc, if_neg hsome]
    rfl

theorem Runs.wordsFrom_eq {cs : List Char} {words : List (List Char)} (h : Runs p cs words)
    (done : List (List Char)) : wordsFrom (fun c => !p c) done [] cs = done.reverse ++ words := by
  induction h generalizing done with
  | none hgap =>
    simp only [← Bool.not_eq_true'] at hgap
    have hall := wordsFrom_gap hgap done []
    rw [List.append_nil] at hall
    rw [hall, List.append_nil]
    rfl
  | @run gap word rest words hgap hne hword hhead _ ih =>
    simp only [← Bool.not_eq_true'] at hgap hhead
    have hword' : ∀ c ∈ word, (!p c) = false := fun c hc => by rw [hword c hc, Bool.not_true]
    rw [List.append_assoc, wordsFrom_gap hgap, wordsFrom_word hword', List.append_nil,
      wordsFrom_end (by rwa [ne_eq, List.reverse_eq_nil_iff]) done hhead, ih, List.reverse_reverse,
      List.reverse_cons, List.append_assoc, List.singleton_append]

theorem runs_iff {cs : List Char} {words : List (List Char)} :
    Runs p cs words ↔ words = wordsBetween (fun c => !p c) cs := by
  have hunique : ∀ {words}, Runs p cs words → words = wordsBetween (fun c => !p c) cs :=
    fun h => (h.wordsFrom_eq []).symm
  constructor
  · exact hunique
  · rintro rfl
    obtain ⟨words, h⟩ := Runs.exists_runs p cs
    rwa [← hunique h]

end Words

section Joining

theorem joinWith_cons_cons (sep first second : List Char) (words : List (List Char)) :
    joinWith sep (first :: second :: words) = first ++ sep ++ joinWith sep (second :: words) :=
  List.intercalate_cons_cons ..

theorem joinWith_cons (sep first : List Char) (words : List (List Char)) :
    joinWith sep (first :: words) = first ++ words.flatMap (sep ++ ·) := by
  induction words generalizing first with
  | nil => simp [joinWith]
  | cons second words ih =>
    rw [joinWith_cons_cons, ih, List.flatMap_cons, List.append_assoc, List.append_assoc]

theorem head?_flatMap_append (words : List (List Char)) {c : Char}
    (h : c ∈ (words.flatMap ([r] ++ ·)).head?) : c = r := by
  cases words with
  | nil => cases h
  | cons word words => exact (Option.some.inj h).symm

theorem runs_joinWith (hr : p r = false) {words : List (List Char)} (h : Solid p words) :
    Runs p (joinWith [r] words) words := by
  have hgap : ∀ c ∈ [r], p c = false := List.forall_mem_singleton.mpr hr
  have hhead : ∀ words : List (List Char), ∀ c ∈ (words.flatMap ([r] ++ ·)).head?, p c = false := by
    intro words c hc
    rwa [head?_flatMap_append words hc]
  have hrest : ∀ words : List (List Char), Solid p words →
      Runs p (words.flatMap ([r] ++ ·)) words := by
    intro words h
    induction words with
    | nil => exact .none (List.forall_mem_nil _)
    | cons word words ih =>
      obtain ⟨⟨hne, hword⟩, hwords⟩ := List.forall_mem_cons.mp h
      exact .run hgap hne hword (hhead words) (ih hwords)
  cases words with
  | nil => exact .none (List.forall_mem_nil _)
  | cons word words =>
    obtain ⟨⟨hne, hword⟩, hwords⟩ := List.forall_mem_cons.mp h
    rw [joinWith_cons]
    exact .start hne hword (hhead words) (hrest words hwords)

theorem head?_joinWith {words : List (List Char)} (h : Solid p words) :
    ∀ c ∈ (joinWith [r] words).head?, p c = true := by
  cases words with
  | nil => exact fun c hc => nomatch hc
  | cons word words =>
    obtain ⟨hne, hword⟩ := h word List.mem_cons_self
    intro c hc
    rw [joinWith_cons, List.head?_append_of_ne_nil _ hne] at hc
    exact hword c (List.mem_of_mem_head? hc)

theorem getLast?_joinWith {words : List (List Char)} (h : Solid p words) :
    ∀ c ∈ (joinWith [r] words).getLast?, p c = true := by
  rcases List.eq_nil_or_concat words with rfl | ⟨front, last, rfl⟩
  · exact fun c hc => nomatch hc
  · rw [List.concat_eq_append] at h ⊢
    obtain ⟨hne, hlast⟩ := h last (List.mem_append_right _ List.mem_cons_self)
    obtain ⟨before, hbefore⟩ : ∃ before, joinWith [r] (front ++ [last]) = before ++ last := by
      cases front with
      | nil => exact ⟨[], by rw [List.nil_append, joinWith_cons, List.flatMap_nil, List.append_nil,
          List.nil_append]⟩
      | cons word front =>
        refine ⟨word ++ (front.flatMap ([r] ++ ·) ++ [r]), ?_⟩
        rw [List.cons_append, joinWith_cons, List.flatMap_append, List.flatMap_singleton]
        simp only [List.append_assoc]
    intro c hc
    rw [hbefore, List.getLast?_append_of_ne_nil _ hne] at hc
    exact hlast c (List.mem_of_getLast? hc)

theorem mem_joinWith {words : List (List Char)} {c : Char} (hc : c ∈ joinWith [r] words) :
    c = r ∨ ∃ word ∈ words, c ∈ word := by
  cases words with
  | nil => cases hc
  | cons word words =>
    rw [joinWith_cons] at hc
    rcases List.mem_append.mp hc with hc | hc
    · exact Or.inr ⟨word, List.mem_cons_self, hc⟩
    · obtain ⟨next, hnext, hc⟩ := List.mem_flatMap.mp hc
      apply (List.mem_cons.mp hc).imp_right
      exact fun hc => ⟨next, List.mem_cons_of_mem word hnext, hc⟩

end Joining

section Squeezing

theorem squeezeFrom_true_gap {gap : List Char} (hgap : ∀ c ∈ gap, p c = true) (cs : List Char) :
    squeezeFrom p r true (gap ++ cs) = squeezeFrom p r true cs := by
  induction gap with
  | nil => rfl
  | cons c gap ih =>
    obtain ⟨hc, hgap⟩ := List.forall_mem_cons.mp hgap
    rw [List.cons_append, squeezeFrom, if_pos hc, if_pos rfl]
    exact ih hgap

theorem squeezeFrom_gap {gap : List Char} (hgap : ∀ c ∈ gap, p c = true) (hne : gap ≠ [])
    (cs : List Char) : squeezeFrom p r false (gap ++ cs) = r :: squeezeFrom p r true cs := by
  cases gap with
  | nil => exact absurd rfl hne
  | cons c gap =>
    obtain ⟨hc, hgap⟩ := List.forall_mem_cons.mp hgap
    rw [List.cons_append, squeezeFrom, if_pos hc, if_neg Bool.false_ne_true,
      squeezeFrom_true_gap hgap]

theorem squeezeFrom_word {word : List Char} (hword : ∀ c ∈ word, p c = false) (hne : word ≠ [])
    (inRun : Bool) (cs : List Char) :
    squeezeFrom p r inRun (word ++ cs) = word ++ squeezeFrom p r false cs := by
  induction word generalizing inRun with
  | nil => exact absurd rfl hne
  | cons c word ih =>
    obtain ⟨hc, hword⟩ := List.forall_mem_cons.mp hword
    rw [List.cons_append, squeezeFrom, if_neg (by rw [hc]; exact Bool.false_ne_true)]
    cases word with
    | nil => rfl
    | cons d word => rw [ih hword (List.cons_ne_nil d word), List.cons_append (a := c)]

/-- Behind a run there is one `r` for each gap, with the next run. The last gap may have none. -/
theorem Runs.squeezeFrom_eq (hr : p r = true) {cs : List Char} {words : List (List Char)}
    (h : Runs (fun c => !p c) cs words) (hhead : ∀ c ∈ cs.head?, p c = true) :
    ∃ back, (∀ c ∈ back, p c = true) ∧
      squeezeFrom p r false cs = words.flatMap ([r] ++ ·) ++ back := by
  induction h with
  | @none gap hgap =>
    simp only [Bool.not_eq_false'] at hgap
    cases gap with
    | nil => exact ⟨[], List.forall_mem_nil _, rfl⟩
    | cons c gap =>
      have hall := squeezeFrom_gap (r := r) hgap (List.cons_ne_nil c gap) []
      rw [List.append_nil] at hall
      exact ⟨[r], List.forall_mem_singleton.mpr hr, hall⟩
  | @run gap word rest words hgap hne hword hrest _ ih =>
    simp only [Bool.not_eq_false', Bool.not_eq_true'] at hgap hword hrest
    have hgapne : gap ≠ [] := by
      rintro rfl
      obtain ⟨c, word, rfl⟩ := List.exists_cons_of_ne_nil hne
      have hc := hhead c rfl
      rw [hword c List.mem_cons_self] at hc
      cases hc
    obtain ⟨back, hback, heq⟩ := ih hrest
    refine ⟨back, hback, ?_⟩
    rw [List.append_assoc, squeezeFrom_gap hgap hgapne, squeezeFrom_word hword hne, heq,
      List.flatMap_cons, List.append_assoc, List.append_assoc]
    rfl

theorem dropWhile_append_eq {front body : List Char} (hfront : ∀ c ∈ front, p c = true)
    (hhead : ∀ c ∈ body.head?, p c = false) : (front ++ body).dropWhile p = body := by
  rw [List.dropWhile_append_of_pos hfront]
  cases body with
  | nil => rfl
  | cons c body => rw [List.dropWhile_cons, hhead c rfl, if_neg Bool.false_ne_true]

theorem trimWhere_append {front body back : List Char} (hfront : ∀ c ∈ front, p c = true)
    (hback : ∀ c ∈ back, p c = true) (hne : body ≠ []) (hhead : ∀ c ∈ body.head?, p c = false)
    (hlast : ∀ c ∈ body.getLast?, p c = false) : trimWhere p (front ++ (body ++ back)) = body := by
  have hhead' : ∀ c ∈ (body ++ back).head?, p c = false := by
    rwa [List.head?_append_of_ne_nil _ hne]
  have hlast' : ∀ c ∈ body.reverse.head?, p c = false := by
    rwa [List.head?_reverse]
  have hback' : ∀ c ∈ back.reverse, p c = true := fun c hc => hback c (List.mem_reverse.mp hc)
  rw [trimWhere, dropWhile_append_eq hfront hhead', List.reverse_append,
    dropWhile_append_eq hback' hlast', List.reverse_reverse]

theorem trimWhere_eq_nil {cs : List Char} (h : ∀ c ∈ cs, p c = true) : trimWhere p cs = [] := by
  rw [trimWhere, List.dropWhile_eq_nil_iff.mpr h]
  rfl

theorem trimWhere_squeeze (hr : p r = true) {cs : List Char} {words : List (List Char)}
    (h : Runs (fun c => !p c) cs words) : trimWhere p (squeeze p r cs) = joinWith [r] words := by
  have hsolid := h.solid
  cases h with
  | none hgap =>
    apply trimWhere_eq_nil
    intro c hc
    rcases mem_squeezeFrom hc with rfl | ⟨hmem, hnot⟩
    · exact hr
    · have := hgap c hmem
      rw [hnot] at this
      cases this
  | @run gap word rest words hgap hne hword hrest hruns =>
    simp only [Bool.not_eq_false', Bool.not_eq_true'] at hgap hword hrest
    obtain ⟨front, hfront, hgapped⟩ : ∃ front, (∀ c ∈ front, p c = true) ∧
        squeeze p r (gap ++ (word ++ rest)) = front ++ (word ++ squeezeFrom p r false rest) := by
      cases gap with
      | nil => exact ⟨[], List.forall_mem_nil _, squeezeFrom_word hword hne false rest⟩
      | cons c gap =>
        refine ⟨[r], List.forall_mem_singleton.mpr hr, ?_⟩
        rw [squeeze, squeezeFrom_gap hgap (List.cons_ne_nil c gap), squeezeFrom_word hword hne]
        rfl
    obtain ⟨back, hback, hbehind⟩ := hruns.squeezeFrom_eq hr hrest
    have hbody : word ++ squeezeFrom p r false rest = joinWith [r] (word :: words) ++ back := by
      rw [hbehind, joinWith_cons, List.append_assoc]
    rw [List.append_assoc, hgapped, hbody]
    apply trimWhere_append hfront hback
    · rw [joinWith_cons]
      exact List.append_ne_nil_of_left_ne_nil hne _
    · intro c hc
      exact Bool.not_eq_true' _ ▸ head?_joinWith hsolid c hc
    · intro c hc
      exact Bool.not_eq_true' _ ▸ getLast?_joinWith hsolid c hc

end Squeezing

end CodeSearch.Text
