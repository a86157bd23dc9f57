import CodeSearch.Proofs.Search.Page

/-!
# Diversity

Ranking goes through the hits once and keeps a hit if its penalized similarity is above a tenth. The
penalty grows with the number of hits of the same file that are kept already, so only so many hits
of a file are kept. A penalty of more than the whole turns a negative similarity into a positive
score; for which factors that can happen is a matter of the multiples of what the factor leaves of
one.
-/

set_option autoImplicit false

namespace CodeSearch

def Hit.isOf {α : Type} (file : String) (hit : Hit α) : Bool := hit.chunk.filePath == file

theorem Hit.isOf_iff {α : Type} {file : String} {hit : Hit α} :
    Hit.isOf file hit = true ↔ hit.chunk.filePath = file := beq_iff_eq

theorem Hit.isOf_self {α : Type} (hit : Hit α) : Hit.isOf hit.chunk.filePath hit = true :=
  beq_self_eq_true _

namespace Ranking

section Pass
variable {α : Type} [Score α] (factor : α)

def keep (hits : List (Hit α)) : List (Hit α) := keepFrom factor [] hits

/-- Whether a hit is kept behind those that are kept so far. -/
def keeps (kept : List (Hit α)) (hit : Hit α) : Bool :=
  Score.lt keepThreshold
    (penalized factor (kept.countP (Hit.isOf hit.chunk.filePath)) hit.similarity)

theorem keepFrom_concat (kept hits : List (Hit α)) (hit : Hit α) :
    keepFrom factor kept (hits ++ [hit]) =
      if keeps factor (keepFrom factor kept hits) hit then keepFrom factor kept hits ++ [hit]
      else keepFrom factor kept hits := by
  induction hits generalizing kept with
  | nil =>
    simp only [List.nil_append, keepFrom, keeps, List.countP_reverse, List.reverse_cons]
    rfl
  | cons first rest ih =>
    simp only [List.cons_append, keepFrom]
    split
    · exact ih (first :: kept)
    · exact ih kept

theorem keep_concat_of_keeps {hits : List (Hit α)} {hit : Hit α}
    (h : keeps factor (keep factor hits) hit = true) :
    keep factor (hits ++ [hit]) = keep factor hits ++ [hit] :=
  (keepFrom_concat factor [] hits hit).trans (if_pos h)

theorem keep_concat_of_not_keeps {hits : List (Hit α)} {hit : Hit α}
    (h : keeps factor (keep factor hits) hit = false) :
    keep factor (hits ++ [hit]) = keep factor hits :=
  (keepFrom_concat factor [] hits hit).trans (if_neg (ne_true_of_eq_false h))

/-- To show something of what is kept it is enough to look at one more hit, kept or dropped. -/
theorem keep_induct {P : List (Hit α) → List (Hit α) → Prop} (nil : P [] [])
    (kept : ∀ hits hit, P hits (keep factor hits) → keeps factor (keep factor hits) hit = true →
      P (hits ++ [hit]) (keep factor hits ++ [hit]))
    (dropped : ∀ hits hit, P hits (keep factor hits) →
      keeps factor (keep factor hits) hit = false → P (hits ++ [hit]) (keep factor hits))
    (hits : List (Hit α)) : P hits (keep factor hits) := by
  induction hits using List.reverseRecOn with
  | nil => exact nil
  | append_singleton hits hit ih =>
    cases hkeeps : keeps factor (keep factor hits) hit with
    | true =>
      rw [keep_concat_of_keeps factor hkeeps]
      exact kept hits hit ih hkeeps
    | false =>
      rw [keep_concat_of_not_keeps factor hkeeps]
      exact dropped hits hit ih hkeeps

theorem keep_sublist (hits : List (Hit α)) : (keep factor hits).Sublist hits :=
  keepFrom_sublist factor [] hits

/-- What is kept stays kept, whatever hits follow. -/
theorem keep_prefix_append (hits rest : List (Hit α)) :
    keep factor hits <+: keep factor (hits ++ rest) := by
  induction rest using List.reverseRecOn with
  | nil =>
    rw [List.append_nil]
  | append_singleton rest hit ih =>
    rw [← List.append_assoc]
    cases hkeeps : keeps factor (keep factor (hits ++ rest)) hit with
    | true =>
      rw [keep_concat_of_keeps factor hkeeps]
      exact ih.trans (List.prefix_append _ _)
    | false =>
      rw [keep_concat_of_not_keeps factor hkeeps]
      exact ih

theorem mem_keep_of_keeps {before after : List (Hit α)} {hit : Hit α}
    (h : keeps factor (keep factor before) hit = true) :
    hit ∈ keep factor (before ++ hit :: after) := by
  have hprefix := keep_prefix_append factor (before ++ [hit]) after
  rw [keep_concat_of_keeps factor h, List.append_assoc, List.singleton_append] at hprefix
  exact hprefix.subset (List.mem_append_right _ (List.mem_singleton_self hit))

/-- What is kept was kept behind what was kept of the hits in front of it. -/
theorem exists_keeps_of_mem {hits : List (Hit α)} {hit : Hit α} (h : hit ∈ keep factor hits) :
    ∃ before after, hits = before ++ hit :: after ∧
      keeps factor (keep factor before) hit = true := by
  refine keep_induct factor (P := fun hits kept => hit ∈ kept → ∃ before after,
    hits = before ++ hit :: after ∧ keeps factor (keep factor before) hit = true) ?_ ?_ ?_ hits h
  · intro hmem
    exact absurd hmem List.not_mem_nil
  · intro hits last ih hkeeps hmem
    rcases List.mem_append.mp hmem with hmem | hmem
    · obtain ⟨before, after, rfl, hbefore⟩ := ih hmem
      exact ⟨before, after ++ [last], by simp, hbefore⟩
    · obtain rfl := List.mem_singleton.mp hmem
      exact ⟨hits, [], rfl, hkeeps⟩
  · intro hits last ih _ hmem
    obtain ⟨before, after, rfl, hbefore⟩ := ih hmem
    exact ⟨before, after ++ [last], by simp, hbefore⟩

/-- A file that keeps no other hit once it has `n` never has more. -/
theorem countP_keep_le_of_full {hits : List (Hit α)} {file : String} {n : Nat}
    (hfull : ∀ kept, kept.countP (Hit.isOf file) = n → ∀ hit ∈ hits, hit.chunk.filePath = file →
      keeps factor kept hit = false) :
    (keep factor hits).countP (Hit.isOf file) ≤ n := by
  refine keep_induct factor (P := fun hits kept =>
    (∀ kept, kept.countP (Hit.isOf file) = n → ∀ hit ∈ hits, hit.chunk.filePath = file →
      keeps factor kept hit = false) → kept.countP (Hit.isOf file) ≤ n) ?_ ?_ ?_ hits hfull
  · intro _
    exact Nat.zero_le n
  · intro hits hit ih hkeeps hfull
    have hle := ih fun kept hcount other hother =>
      hfull kept hcount other (List.mem_append_left _ hother)
    rw [List.countP_append, List.countP_singleton]
    split
    · rename_i hof
      apply lt_of_le_of_ne hle
      intro hcount
      have hdrops := hfull _ hcount hit (List.mem_append_right _ (List.mem_singleton_self hit))
        (Hit.isOf_iff.mp hof)
      exact absurd hkeeps (ne_true_of_eq_false hdrops)
    · exact hle
  · intro hits hit ih _ hfull
    exact ih fun kept hcount other hother =>
      hfull kept hcount other (List.mem_append_left _ hother)

variable {factor} in
theorem diversify_eq (hfactor : Score.le Score.one factor = false) (hits : List (Hit α)) :
    diversify factor hits = bySimilarity (keep factor hits) := by
  rw [diversify, hfactor]
  rfl

end Pass

section Exact
variable {factor : Rat} {hits : List (Hit Rat)} {hit : Hit Rat}

theorem keeps_iff {kept : List (Hit Rat)} : keeps factor kept hit = true ↔
    1 / 10 < hit.similarity *
      (1 - (kept.countP (Hit.isOf hit.chunk.filePath) : Rat) * (1 - factor)) := by
  have hthreshold : (keepThreshold : Rat) = 1 / 10 := by norm_num [keepThreshold, Score.ofDecimal]
  have hkeeps : keeps factor kept hit = true ↔ (keepThreshold : Rat) < hit.similarity *
      (1 - (kept.countP (Hit.isOf hit.chunk.filePath) : Rat) * (1 - factor)) :=
    decide_eq_true_iff
  rw [hkeeps, hthreshold]

/-- The first of its file is not penalized. -/
theorem keeps_iff_of_first {kept : List (Hit Rat)}
    (hfirst : kept.countP (Hit.isOf hit.chunk.filePath) = 0) :
    keeps factor kept hit = true ↔ 1 / 10 < hit.similarity := by
  rw [keeps_iff, hfirst, Nat.cast_zero, zero_mul, sub_zero, mul_one]

theorem perm_diversify (hfactor : factor < 1) (hits : List (Hit Rat)) :
    (diversify factor hits).Perm (keep factor hits) := by
  have hbelow : Score.le Score.one factor = false := decide_eq_false (not_le_of_gt hfactor)
  rw [diversify_eq hbelow]
  exact List.mergeSort_perm _ _

theorem mem_diversify (hfactor : factor < 1) :
    hit ∈ diversify factor hits ↔ hit ∈ keep factor hits :=
  (perm_diversify hfactor hits).mem_iff

end Exact

section Quota
variable {factor : Rat} {hits : List (Hit Rat)} {file : String}

def quota (factor : Rat) : Nat := ⌈(9 / 10 : Rat) / (1 - factor)⌉₊

theorem lt_quota_iff (hfactor : factor < 1) {n : Nat} :
    n < quota factor ↔ (n : Rat) * (1 - factor) < 9 / 10 := by
  rw [quota, Nat.lt_ceil, lt_div_iff₀ (sub_pos.mpr hfactor)]

/-- A similarity up to one stays above a tenth only under a penalty below nine tenths. -/
theorem penalty_lt {similarity penalty : Rat} (hpos : 0 < similarity) (hone : similarity ≤ 1)
    (h : 1 / 10 < similarity * (1 - penalty)) : penalty < 9 / 10 := by
  by_contra hge
  have hrest : 1 - penalty ≤ 1 / 10 := by linarith
  have hle : similarity * (1 - penalty) ≤ similarity * (1 / 10) :=
    mul_le_mul_of_nonneg_left hrest hpos.le
  linarith

theorem countP_keep_le (hfactor : factor < 1) (file : String)
    (hsims : ∀ hit ∈ hits, 0 < hit.similarity ∧ hit.similarity ≤ 1) :
    (keep factor hits).countP (Hit.isOf file) ≤ quota factor := by
  apply countP_keep_le_of_full
  rintro kept hcount hit hmem rfl
  obtain ⟨hpos, hone⟩ := hsims hit hmem
  apply eq_false_of_ne_true
  intro hkeeps
  have hlt := penalty_lt hpos hone (keeps_iff.mp hkeeps)
  rw [hcount, ← lt_quota_iff hfactor] at hlt
  exact lt_irrefl _ hlt

/-- A file with a hit above the threshold keeps some hit. Its hits may stand in each other's way,
and then one of them is kept. -/
theorem exists_mem_keep {hit : Hit Rat} (hmem : hit ∈ hits) (habove : 1 / 10 < hit.similarity) :
    ∃ other ∈ keep factor hits, other.chunk.filePath = hit.chunk.filePath := by
  obtain ⟨before, after, rfl⟩ := List.append_of_mem hmem
  by_cases hfirst : (keep factor before).countP (Hit.isOf hit.chunk.filePath) = 0
  · exact ⟨hit, mem_keep_of_keeps factor ((keeps_iff_of_first hfirst).mpr habove), rfl⟩
  · obtain ⟨other, hother, hof⟩ := List.countP_pos_iff.mp (Nat.pos_of_ne_zero hfirst)
    refine ⟨other, (keep_prefix_append factor before (hit :: after)).subset hother, ?_⟩
    exact Hit.isOf_iff.mp hof

/-- The first hit of a file is kept if it is above the threshold. -/
theorem mem_keep_of_find? {best : Hit Rat} (hbest : hits.find? (Hit.isOf file) = some best)
    (habove : 1 / 10 < best.similarity) : best ∈ keep factor hits := by
  obtain ⟨hof, before, after, rfl, hothers⟩ := List.find?_eq_some_iff_append.mp hbest
  have hfile := Hit.isOf_iff.mp hof
  have hfirst : (keep factor before).countP (Hit.isOf best.chunk.filePath) = 0 := by
    rw [List.countP_eq_zero, hfile]
    intro other hother
    have hnot := hothers other ((keep_sublist factor before).subset hother)
    simpa using hnot
  exact mem_keep_of_keeps factor ((keeps_iff_of_first hfirst).mpr habove)

/-- In descending order the first hit of a file is its best. -/
theorem similarity_le_of_find? {best : Hit Rat} (hbest : hits.find? (Hit.isOf file) = some best)
    (hdescending : hits.Pairwise fun a b => b.similarity ≤ a.similarity) {hit : Hit Rat}
    (hmem : hit ∈ hits) (hfile : hit.chunk.filePath = file) : hit.similarity ≤ best.similarity := by
  obtain ⟨_, before, after, rfl, hothers⟩ := List.find?_eq_some_iff_append.mp hbest
  rcases List.mem_append.mp hmem with hmem | hmem
  · have hnot := hothers hit hmem
    simp [Hit.isOf, hfile] at hnot
  · rcases List.mem_cons.mp hmem with rfl | hmem
    · exact le_rfl
    · have hbehind := (List.pairwise_append.mp hdescending).2.1
      exact (List.pairwise_cons.mp hbehind).1 hit hmem

/-- No file has more hits kept than the quota says, and each file with a hit above the threshold has
one kept. If the hits come best first it is the best of the file. -/
theorem diversify_within_quota (hfactor : factor < 1) (file : String)
    (hsims : ∀ hit ∈ hits, 0 < hit.similarity ∧ hit.similarity ≤ 1) :
    (diversify factor hits).countP (Hit.isOf file) ≤ ⌈(9 / 10 : Rat) / (1 - factor)⌉₊ ∧
    ∀ hit ∈ hits, hit.chunk.filePath = file → 1 / 10 < hit.similarity →
      (∃ other ∈ diversify factor hits, other.chunk.filePath = file) ∧
      ((hits.Pairwise fun a b => b.similarity ≤ a.similarity) →
        ∃ best ∈ diversify factor hits, hits.find? (Hit.isOf file) = some best ∧
          ∀ other ∈ hits, other.chunk.filePath = file →
            other.similarity ≤ best.similarity) := by
  refine ⟨?_, ?_⟩
  · rw [(perm_diversify hfactor hits).countP_eq]
    exact countP_keep_le hfactor file hsims
  · rintro hit hmem rfl habove
    refine ⟨?_, ?_⟩
    · obtain ⟨other, hother, hfile⟩ := exists_mem_keep hmem habove
      exact ⟨other, (mem_diversify hfactor).mpr hother, hfile⟩
    · intro hdescending
      have hsome : (hits.find? (Hit.isOf hit.chunk.filePath)).isSome :=
        List.find?_isSome.mpr ⟨hit, hmem, hit.isOf_self⟩
      obtain ⟨best, hbest⟩ := Option.isSome_iff_exists.mp hsome
      have hle := similarity_le_of_find? hbest hdescending hmem rfl
      refine ⟨best, (mem_diversify hfactor).mpr ?_, hbest, ?_⟩
      · exact mem_keep_of_find? hbest (habove.trans_le hle)
      · intro other hother hfile
        exact similarity_le_of_find? hbest hdescending hother hfile

/-- Three hits of one file around the only one of another, best first. -/
def crowded : List (Hit Rat) :=
  [⟨⟨1, 1, "fish", "/d/a.md", 1, 1, "text", "md", "h1", 4⟩, 1⟩,
    ⟨⟨2, 1, "bird", "/d/a.md", 2, 2, "text", "md", "h2", 4⟩, 9 / 10⟩,
    ⟨⟨3, 1, "frog", "/d/b.md", 1, 1, "text", "md", "h3", 4⟩, 8 / 10⟩,
    ⟨⟨4, 1, "newt", "/d/a.md", 3, 3, "text", "md", "h4", 4⟩, 7 / 10⟩]

theorem crowded_within_quota : (1 / 2 : Rat) < 1 ∧
    (∀ hit ∈ crowded, 0 < hit.similarity ∧ hit.similarity ≤ 1) ∧
    (diversify (1 / 2) crowded).countP (Hit.isOf "/d/a.md") ≤ 2 ∧
    ∃ best ∈ diversify (1 / 2) crowded, crowded.find? (Hit.isOf "/d/a.md") = some best ∧
      ∀ other ∈ crowded, other.chunk.filePath = "/d/a.md" →
        other.similarity ≤ best.similarity := by
  have hfactor : (1 / 2 : Rat) < 1 := by norm_num
  have hsims : ∀ hit ∈ crowded, 0 < hit.similarity ∧ hit.similarity ≤ 1 := by
    norm_num [crowded]
  have hdescending : crowded.Pairwise fun a b => b.similarity ≤ a.similarity := by
    norm_num [crowded]
  have htwo : ⌈(9 / 10 : Rat) / (1 - 1 / 2)⌉₊ = 2 := by norm_num [Nat.ceil_eq_iff]
  obtain ⟨hquota, hkept⟩ := diversify_within_quota hfactor "/d/a.md" hsims
  rw [htwo] at hquota
  obtain ⟨-, hbest⟩ := hkept _ List.mem_cons_self rfl (by norm_num)
  exact ⟨hfactor, hsims, hquota, hbest hdescending⟩

end Quota

section Turned
variable {factor : Rat} {hits : List (Hit Rat)} {hit : Hit Rat}

/-- Close to the whole a penalty leaves too little of any similarity, on either side. -/
theorem score_le_of_near {similarity penalty : Rat} (hlow : -1 ≤ similarity)
    (hone : similarity ≤ 1) (hbelow : 9 / 10 ≤ penalty) (habove : penalty ≤ 11 / 10) :
    similarity * (1 - penalty) ≤ 1 / 10 := by
  have habs : |similarity * (1 - penalty)| ≤ 1 * (1 / 10) := by
    rw [abs_mul]
    apply mul_le_mul (abs_le.mpr ⟨hlow, hone⟩) _ (abs_nonneg _) zero_le_one
    exact abs_le.mpr ⟨by linarith, by linarith⟩
  linarith [le_abs_self (similarity * (1 - penalty))]

/-- What scores above the threshold though it is not above it is negative, and the penalty has
turned its sign. -/
theorem turned_of_rescued {similarity penalty : Rat} (hpenalty : 0 ≤ penalty)
    (hdropped : similarity ≤ 1 / 10) (h : 1 / 10 < similarity * (1 - penalty)) :
    similarity < 0 ∧ 1 < penalty := by
  have hneg : similarity < 0 := by
    by_contra hnonneg
    have hle : similarity * (1 - penalty) ≤ similarity * 1 :=
      mul_le_mul_of_nonneg_left (by linarith) (not_lt.mp hnonneg)
    linarith
  refine ⟨hneg, ?_⟩
  by_contra hle
  have hscore : similarity * (1 - penalty) ≤ 0 :=
    mul_nonpos_of_nonpos_of_nonneg hneg.le (by linarith)
  linarith

theorem penalty_nonneg (hfactor : factor < 1) (n : Nat) : 0 ≤ (n : Rat) * (1 - factor) :=
  mul_nonneg n.cast_nonneg (sub_nonneg.mpr hfactor.le)

/-- A file does not get past a multiple that leaves about nothing. -/
theorem countP_keep_le_of_near {n : Nat} (hbelow : 9 / 10 ≤ (n : Rat) * (1 - factor))
    (habove : (n : Rat) * (1 - factor) ≤ 11 / 10) (file : String)
    (hsims : ∀ hit ∈ hits, -1 ≤ hit.similarity ∧ hit.similarity ≤ 1) :
    (keep factor hits).countP (Hit.isOf file) ≤ n := by
  apply countP_keep_le_of_full
  rintro kept hcount hit hmem rfl
  obtain ⟨hlow, hone⟩ := hsims hit hmem
  apply eq_false_of_ne_true
  intro hkeeps
  rw [keeps_iff, hcount] at hkeeps
  exact absurd hkeeps (not_lt.mpr (score_le_of_near hlow hone hbelow habove))

/-- Hits of similarity one fill the quota of their file. -/
theorem keep_replicate (hfactor : factor < 1) (hone : hit.similarity = 1) {n : Nat}
    (hquota : n ≤ quota factor) : keep factor (List.replicate n hit) = List.replicate n hit := by
  induction n with
  | zero => rfl
  | succ n ih =>
    have hkept := ih (Nat.le_of_succ_le hquota)
    have hlt : (n : Rat) * (1 - factor) < 9 / 10 := (lt_quota_iff hfactor).mp hquota
    rw [List.replicate_succ', keep_concat_of_keeps, hkept]
    rw [hkept, keeps_iff, List.countP_replicate, if_pos hit.isOf_self, hone]
    linarith

/-- A hit that would be dropped as the first of its file is kept only behind so many others that
the penalty has turned its similarity around. -/
theorem turned_of_mem_keep (hfactor : factor < 1) (hmem : hit ∈ keep factor hits)
    (hdropped : hit.similarity ≤ 1 / 10) :
    hit.similarity < 0 ∧ ∃ before after, hits = before ++ hit :: after ∧
      1 < ((keep factor before).countP (Hit.isOf hit.chunk.filePath) : Rat) * (1 - factor) := by
  obtain ⟨before, after, hsplit, hkeeps⟩ := exists_keeps_of_mem factor hmem
  obtain ⟨hneg, hturned⟩ :=
    turned_of_rescued (penalty_nonneg hfactor _) hdropped (keeps_iff.mp hkeeps)
  exact ⟨hneg, before, after, hsplit, hturned⟩

theorem above_of_mem_keep (hfactor : factor < 1) {n : Nat}
    (hbelow : 9 / 10 ≤ (n : Rat) * (1 - factor)) (habove : (n : Rat) * (1 - factor) ≤ 11 / 10)
    (hsims : ∀ hit ∈ hits, -1 ≤ hit.similarity ∧ hit.similarity ≤ 1)
    (hmem : hit ∈ keep factor hits) : 1 / 10 < hit.similarity := by
  obtain ⟨before, after, rfl, hkeeps⟩ := exists_keeps_of_mem factor hmem
  obtain ⟨hbefore, hrest⟩ := List.forall_mem_append.mp hsims
  obtain ⟨hlow, hone⟩ := hrest hit List.mem_cons_self
  have hcount := countP_keep_le_of_near hbelow habove hit.chunk.filePath hbefore
  have hpenalty : ((keep factor before).countP (Hit.isOf hit.chunk.filePath) : Rat) *
      (1 - factor) ≤ 11 / 10 :=
    le_trans (mul_le_mul_of_nonneg_right (Nat.cast_le.mpr hcount) (sub_nonneg.mpr hfactor.le))
      habove
  have hscore := keeps_iff.mp hkeeps
  by_contra hdropped
  obtain ⟨-, hturned⟩ :=
    turned_of_rescued (penalty_nonneg hfactor _) (not_lt.mp hdropped) hscore
  exact absurd hscore (not_lt.mpr (score_le_of_near hlow hone (by linarith) hpenalty))

/-- If no multiple is close to one, a file that is full keeps the worst of all hits. -/
theorem rescued_behind_quota (hfactor : factor < 1)
    (hfar : ∀ n : Nat, 9 / 10 ≤ (n : Rat) * (1 - factor) → 11 / 10 < (n : Rat) * (1 - factor))
    (best worst : Hit Rat) (hbest : best.similarity = 1) (hworst : worst.similarity = -1)
    (hfile : best.chunk.filePath = worst.chunk.filePath) :
    worst ∈ keep factor (List.replicate (quota factor) best ++ [worst]) := by
  have hfull : 9 / 10 ≤ (quota factor : Rat) * (1 - factor) :=
    not_lt.mp fun hlt => lt_irrefl _ ((lt_quota_iff hfactor).mpr hlt)
  have hturned := hfar _ hfull
  apply mem_keep_of_keeps
  rw [keep_replicate hfactor hbest le_rfl, keeps_iff, List.countP_replicate,
    if_pos (Hit.isOf_iff.mpr hfile), hworst]
  linarith

/-- A hit of one and the same file, at any similarity. -/
def repeated (id : Int) (similarity : Rat) : Hit Rat :=
  ⟨⟨id, 1, "fish", "/d/a.md", 1, 1, "text", "md", "h1", 4⟩, similarity⟩

/-- The penalty for repeated files keeps no hit that would be dropped without it, if and only if
some number of hits makes a penalty within a tenth of the whole. A hit that is kept so is negative
and comes behind so many of its file that the penalty is more than the whole. -/
theorem none_rescued_iff_multiple_near_one (hfactor : factor < 1) :
    ((∀ hits : List (Hit Rat), (∀ hit ∈ hits, -1 ≤ hit.similarity ∧ hit.similarity ≤ 1) →
        ∀ hit ∈ diversify factor hits, 1 / 10 < hit.similarity) ↔
      ∃ n : Nat, 9 / 10 ≤ (n : Rat) * (1 - factor) ∧ (n : Rat) * (1 - factor) ≤ 11 / 10) ∧
    ∀ hits : List (Hit Rat), ∀ hit ∈ diversify factor hits, hit.similarity ≤ 1 / 10 →
      hit.similarity < 0 ∧ ∃ before after, hits = before ++ hit :: after ∧
        1 < ((keep factor before).countP (Hit.isOf hit.chunk.filePath) : Rat) * (1 - factor) := by
  refine ⟨⟨?_, ?_⟩, ?_⟩
  · intro hnever
    by_contra hnone
    have hfar : ∀ n : Nat, 9 / 10 ≤ (n : Rat) * (1 - factor) → 11 / 10 < (n : Rat) * (1 - factor) :=
      fun n hbelow => not_le.mp fun hle => hnone ⟨n, hbelow, hle⟩
    have hmem := rescued_behind_quota hfactor hfar (repeated 1 1) (repeated 2 (-1)) rfl rfl rfl
    have hsims : ∀ hit ∈ List.replicate (quota factor) (repeated 1 1) ++ [repeated 2 (-1)],
        -1 ≤ hit.similarity ∧ hit.similarity ≤ 1 := by
      intro hit hhit
      rcases List.mem_append.mp hhit with hhit | hhit
      · rw [List.eq_of_mem_replicate hhit]
        norm_num [repeated]
      · rw [List.mem_singleton.mp hhit]
        norm_num [repeated]
    have habove := hnever _ hsims _ ((mem_diversify hfactor).mpr hmem)
    norm_num [repeated] at habove
  · rintro ⟨n, hbelow, habove⟩ hits hsims hit hmem
    exact above_of_mem_keep hfactor hbelow habove hsims ((mem_diversify hfactor).mp hmem)
  · intro hits hit hmem hdropped
    exact turned_of_mem_keep hfactor ((mem_diversify hfactor).mp hmem) hdropped

/-- At four fifths five hits of a file make a penalty of exactly one, and no hit is rescued. -/
theorem none_rescued_at_four_fifths : (4 / 5 : Rat) < 1 ∧
    ∀ hits : List (Hit Rat), (∀ hit ∈ hits, -1 ≤ hit.similarity ∧ hit.similarity ≤ 1) →
      ∀ hit ∈ diversify (4 / 5) hits, 1 / 10 < hit.similarity := by
  have hfactor : (4 / 5 : Rat) < 1 := by norm_num
  refine ⟨hfactor, (none_rescued_iff_multiple_near_one hfactor).1.mpr ⟨5, ?_⟩⟩
  norm_num

/-- Two hits of a file that are like the query and one that is unlike it. -/
def unlikeThird : List (Hit Rat) :=
  [repeated 1 (9 / 10), repeated 2 (8 / 10), repeated 3 (-9 / 10)]

/-- At two fifths the third hit of a file is penalized by six fifths, so one that would be dropped
alone is kept. -/
theorem third_rescued_at_two_fifths : (0 : Rat) ≤ 2 / 5 ∧ (2 / 5 : Rat) < 1 ∧
    (∀ hit ∈ unlikeThird, -1 ≤ hit.similarity ∧ hit.similarity ≤ 1) ∧
    repeated 3 (-9 / 10) ∈ diversify (2 / 5) unlikeThird ∧
    diversify (2 / 5) [repeated 3 (-9 / 10)] = [] ∧
    ¬ 1 / 10 < (repeated 3 (-9 / 10)).similarity := by
  have hfactor : (2 / 5 : Rat) < 1 := by norm_num
  have hkept : keep (2 / 5) unlikeThird = unlikeThird :=
    (keep_sublist (2 / 5) unlikeThird).eq_of_length (by decide +kernel)
  have hdropped : (keep (2 / 5) [repeated 3 (-9 / 10)]).length = 0 := by decide +kernel
  refine ⟨by norm_num, hfactor, by norm_num [unlikeThird, repeated], ?_, ?_,
    by norm_num [repeated]⟩
  · rw [mem_diversify hfactor, hkept, unlikeThird]
    simp
  · have hlength := (perm_diversify hfactor [repeated 3 (-9 / 10)]).length_eq
    exact List.eq_nil_of_length_eq_zero (hlength.trans hdropped)

end Turned

end Ranking

end CodeSearch
