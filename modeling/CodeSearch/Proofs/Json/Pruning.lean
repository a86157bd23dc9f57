import CodeSearch.Json.Record
import CodeSearch.Proofs.Json.Printing

/-!
# Values with keys taken out

Keys are taken out of the objects in a value, single ones or with all that is below them. Each field
that stays can be found as before, and a value that reads back as itself does so without them.
-/

set_option autoImplicit false

namespace CodeSearch.Json

mutual

/-- A value without the fields that are gone, each said by the keys that lead to it. -/
def prune (gone : List String → Bool) : Json → Json
  | object fields => object (pruneFields gone fields)
  | j => j

def pruneFields (gone : List String → Bool) : List (String × Json) → List (String × Json)
  | [] => []
  | (name, value) :: fields =>
    if gone [name] then pruneFields gone fields
    else (name, value.prune fun below => gone (name :: below)) :: pruneFields gone fields

end

variable {gone : List String → Bool}

theorem prune_object (gone : List String → Bool) (fields : List (String × Json)) :
    (object fields).prune gone = object (pruneFields gone fields) := by
  rw [prune]

theorem prune_nothing (j : Json) : j.prune (fun _ => false) = j := by
  induction j using induct with
  | object fields ih =>
    rw [prune_object]
    congr 1
    induction fields with
    | nil => rfl
    | cons f fields ihfields =>
      obtain ⟨hf, hfields⟩ := List.forall_mem_cons.mp ih
      rw [pruneFields, if_neg (by simp), hf, ihfields hfields]
  | null | bool | integer | real | string | unreadable | array => rfl

theorem countP_pruneFields_le (gone : List String → Bool) (name : String)
    (fields : List (String × Json)) :
    ((pruneFields gone fields).countP fun f => f.1 == name) ≤
      fields.countP fun f => f.1 == name := by
  induction fields with
  | nil => exact Nat.le_refl 0
  | cons f fields ih =>
    rw [pruneFields]
    split
    · exact ih.trans (List.countP_cons ▸ Nat.le_add_right ..)
    · rw [List.countP_cons, List.countP_cons]
      exact Nat.add_le_add_right ih _

theorem field?_prune (gone : List String → Bool) (name : String) (fields : List (String × Json)) :
    ((object fields).prune gone).field? name =
      if gone [name] then none
      else ((object fields).field? name).map (prune fun below => gone (name :: below)) := by
  rw [prune_object, field?, field?]
  induction fields with
  | nil => simp [pruneFields]
  | cons f fields ih =>
    by_cases hname : f.1 = name
    · subst hname
      by_cases hgone : gone [f.1] = true
      · rw [pruneFields, if_pos hgone, ih, if_pos hgone, if_pos hgone]
      · simp [pruneFields, hgone]
    · rw [List.find?_cons_of_neg (by simpa using hname), ← ih, pruneFields]
      split
      · rfl
      · rw [List.find?_cons_of_neg (by simpa using hname)]

/-- The fields of a record that is written with no key twice and then loses some. -/
theorem record?_prune {names : List String} {fields : List (String × Json)}
    (hnodup : (fields.map Prod.fst).Nodup) :
    record? names ((object fields).prune gone) =
      some (names.map fun name => if gone [name] then none
        else ((object fields).field? name).map (prune fun below => gone (name :: below))) := by
  have honce : ∀ name, ((pruneFields gone fields).countP fun f => f.1 == name) ≤ 1 := by
    intro name
    refine (countP_pruneFields_le gone name fields).trans ?_
    have hcount := List.nodup_iff_count_le_one.mp hnodup name
    rwa [List.count, List.countP_map] at hcount
  rw [prune_object, record?, if_neg, ← prune_object]
  · simp only [field?_prune]
  · simpa using fun name _ => honce name

theorem reread_prune {j : Json} (h : j.reread = j) : (j.prune gone).reread = j.prune gone := by
  induction j using induct generalizing gone with
  | object fields ih =>
    rw [reread, object.injEq] at h
    rw [prune_object, reread]
    congr 1
    induction fields with
    | nil => rfl
    | cons f fields ihfields =>
      rw [rereadFields, List.cons.injEq, Prod.ext_iff] at h
      obtain ⟨hf, hfields⟩ := List.forall_mem_cons.mp ih
      have hrest := ihfields hfields h.2
      rw [pruneFields]
      split
      · exact hrest
      · rw [rereadFields, hrest, hf h.1.2]
  | null | bool | integer | real | string | unreadable | array => exact h

/-- A value whose text reads as the value still does so when keys are taken out. -/
theorem parse?_pretty_prune {j : Json} (h : parse? j.pretty = some j) :
    parse? (j.prune gone).pretty = some (j.prune gone) := by
  rw [parse?_pretty, Option.some.injEq] at h
  rw [parse?_pretty, reread_prune h]

end CodeSearch.Json
