import CodeSearch.Text.Utf8
import Mathlib.Data.List.Basic

/-!
# Bytes of a text

An encoded text says which characters it is of. Characters of one byte stand for themselves and do
not occur in the bytes of any other, so a text can be cut at them as its bytes can.
-/

set_option autoImplicit false

namespace CodeSearch.Text
variable {a c : Char}

theorem utf8_injective {xs ys : List Char} (h : utf8 xs = utf8 ys) : xs = ys := by
  have hbytes : xs.utf8Encode = ys.utf8Encode := congrArg List.toByteArray h
  rw [← String.toByteArray_ofList, ← String.toByteArray_ofList] at hbytes
  exact String.ofList_injective (String.toByteArray_inj.mp hbytes)

theorem utf8EncodeChar_of_lt (h : a.val.toNat < 128) :
    String.utf8EncodeChar a = [UInt8.ofNat a.val.toNat] := by
  unfold String.utf8EncodeChar
  dsimp only
  rw [if_pos (by omega)]

/-- The bytes of a longer character have their top bit set. -/
theorem eq_of_mem_utf8EncodeChar (ha : a.val.toNat < 128)
    (h : UInt8.ofNat a.val.toNat ∈ String.utf8EncodeChar c) : c = a := by
  have hbyte : ∀ n : Nat, UInt8.ofNat a.val.toNat = UInt8.ofNat n → a.val.toNat = n % 256 := by
    intro n hn
    have hmod := congrArg UInt8.toNat hn
    rw [UInt8.toNat_ofNat', UInt8.toNat_ofNat', Nat.mod_eq_of_lt (by omega)] at hmod
    exact hmod
  unfold String.utf8EncodeChar at h
  dsimp only at h
  split at h
  · rename_i hshort
    have hval := hbyte _ (List.mem_singleton.mp h)
    exact Char.ext (UInt32.toNat_inj.mp (by omega))
  · exfalso
    split at h
    · simp only [List.mem_cons, List.not_mem_nil, or_false] at h
      rcases h with h | h <;> have hval := hbyte _ h <;> omega
    · split at h
      · simp only [List.mem_cons, List.not_mem_nil, or_false] at h
        rcases h with h | h | h <;> have hval := hbyte _ h <;> omega
      · simp only [List.mem_cons, List.not_mem_nil, or_false] at h
        rcases h with h | h | h | h <;> have hval := hbyte _ h <;> omega

theorem zero_notMem_utf8 {cs : List Char} (h : '\x00' ∉ cs) : 0 ∉ utf8 cs := by
  intro hmem
  obtain ⟨c, hc, hzero⟩ := List.mem_flatMap.mp hmem
  obtain rfl := eq_of_mem_utf8EncodeChar (a := '\x00') (by decide) hzero
  exact h hc

/-- Where the byte of a short character stands, that character stands. -/
theorem exists_of_utf8_eq_append (ha : a.val.toNat < 128) {cs : List Char} {front back : List UInt8}
    (h : utf8 cs = front ++ UInt8.ofNat a.val.toNat :: back) :
    ∃ xs ys, cs = xs ++ a :: ys ∧ utf8 xs = front ∧ utf8 ys = back := by
  induction cs generalizing front with
  | nil => simp [utf8] at h
  | cons c cs ih =>
    have hcons : String.utf8EncodeChar c ++ utf8 cs =
        front ++ UInt8.ofNat a.val.toNat :: back := h
    by_cases hc : c = a
    · subst hc
      rw [utf8EncodeChar_of_lt ha] at hcons
      cases front with
      | nil => exact ⟨[], cs, rfl, rfl, (List.cons.inj hcons).2⟩
      | cons b front =>
        obtain ⟨rfl, hrest⟩ := List.cons.inj hcons
        obtain ⟨xs, ys, rfl, rfl, rfl⟩ := ih hrest
        refine ⟨c :: xs, ys, rfl, ?_, rfl⟩
        rw [utf8, List.flatMap_cons, utf8EncodeChar_of_lt ha]
        rfl
    · -- The byte is not one of the first character's, which lie in front of it.
      obtain ⟨rest, rfl, hrest⟩ : ∃ rest, front = String.utf8EncodeChar c ++ rest ∧
          utf8 cs = rest ++ UInt8.ofNat a.val.toNat :: back := by
        rcases List.append_eq_append_iff.mp hcons with ⟨rest, hfront, hrest⟩ | ⟨rest, hfirst, hrest⟩
        · exact ⟨rest, hfront, hrest⟩
        · cases rest with
          | nil =>
            rw [List.append_nil] at hfirst
            exact ⟨[], by rw [hfirst, List.append_nil], hrest.symm⟩
          | cons b rest =>
            obtain ⟨rfl, -⟩ := List.cons.inj hrest
            exact absurd (eq_of_mem_utf8EncodeChar ha (hfirst ▸ by simp)) hc
      obtain ⟨xs, ys, rfl, rfl, rfl⟩ := ih hrest
      exact ⟨c :: xs, ys, rfl, rfl, rfl⟩

end CodeSearch.Text
