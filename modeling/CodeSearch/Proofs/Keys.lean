import Mathlib.Data.List.Nodup

/-!
# Items told apart by a key

Rows of the store have ids, names and paths of their own, and entries of a directory have names.
-/

set_option autoImplicit false

namespace CodeSearch
variable {α κ : Type} {key : α → κ} {items : List α}

theorem nodup_map_concat {x : α} (h : (items.map key).Nodup)
    (hx : ∀ y ∈ items, key y ≠ key x) : ((items ++ [x]).map key).Nodup := by
  rw [List.map_append, List.map_singleton, List.nodup_append]
  refine ⟨h, List.nodup_singleton _, ?_⟩
  intro a ha b hb
  obtain ⟨y, hy, rfl⟩ := List.mem_map.mp ha
  rw [List.mem_singleton.mp hb]
  exact hx y hy

theorem find?_key_iff [BEq κ] [LawfulBEq κ] (hnodup : (items.map key).Nodup) {k : κ} {x : α} :
    (items.find? fun y => key y == k) = some x ↔ x ∈ items ∧ key x = k := by
  constructor
  · intro hfound
    have hkey : (key x == k) = true := List.find?_some (p := fun y => key y == k) hfound
    exact ⟨List.mem_of_find?_eq_some hfound, beq_iff_eq.mp hkey⟩
  · rintro ⟨hx, rfl⟩
    cases hfound : items.find? fun y => key y == key x with
    | none =>
      have hmiss := List.find?_eq_none.mp hfound x hx
      exact absurd (beq_self_eq_true (key x)) hmiss
    | some y =>
      have hkey : (key y == key x) = true := List.find?_some (p := fun y => key y == key x) hfound
      have hy := List.mem_of_find?_eq_some hfound
      rw [List.inj_on_of_nodup_map hnodup hy hx (beq_iff_eq.mp hkey)]

/-- What stands behind a key is smaller than the list, for recursion into it. -/
theorem sizeOf_entry_lt [SizeOf α] {entries : List (String × α)} {e : String × α}
    (he : e ∈ entries) : sizeOf e.2 < 1 + sizeOf entries := by
  have hentry := List.sizeOf_lt_of_mem he
  have hvalue : sizeOf e.2 < sizeOf e := by
    cases e
    simp only [Prod.mk.sizeOf_spec]
    omega
  omega

end CodeSearch
