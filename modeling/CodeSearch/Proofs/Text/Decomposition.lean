import CodeSearch.Proofs.Text.Tables
import CodeSearch.Text.Decomposition
import Mathlib.Data.List.Basic

/-!
# Decomposition character by character

A reading of a text that does not see in which order marks stand can be taken from the parts of its
characters one by one, although the marks of the decomposed text are put in order.
-/

set_option autoImplicit false

namespace CodeSearch.Text

section Order
variable {β : Type} {f : Char → List β}

/-- Marks may change places for the reading. -/
def Unordered (f : Char → List β) : Prop :=
  ∀ c d, combiningClass c ≠ 0 → combiningClass d ≠ 0 → f c ++ f d = f d ++ f c

theorem mem_insertMark {c m : Char} {marks : List Char} (h : m ∈ insertMark c marks) :
    m = c ∨ m ∈ marks := by
  induction marks with
  | nil => exact Or.inl (List.mem_singleton.mp h)
  | cons n marks ih =>
    rw [insertMark] at h
    split at h
    · rcases List.mem_cons.mp h with rfl | h
      · exact Or.inr List.mem_cons_self
      · exact (ih h).imp_right (List.mem_cons_of_mem n)
    · exact List.mem_cons.mp h

theorem flatMap_insertMark (hf : Unordered f) {c : Char} {marks : List Char}
    (hc : combiningClass c ≠ 0) (hmarks : ∀ m ∈ marks, combiningClass m ≠ 0) :
    (insertMark c marks).reverse.flatMap f = marks.reverse.flatMap f ++ f c := by
  induction marks with
  | nil => exact List.append_nil (f c)
  | cons m marks ih =>
    obtain ⟨hm, hmarks⟩ := List.forall_mem_cons.mp hmarks
    rw [insertMark]
    split
    · simp only [List.reverse_cons, List.flatMap_append, List.flatMap_singleton, ih hmarks,
        List.append_assoc, hf c m hc hm]
    · simp only [List.reverse_cons, List.flatMap_append, List.flatMap_singleton]

theorem flatMap_orderMarks (hf : Unordered f) {marks : List Char}
    (hmarks : ∀ m ∈ marks, combiningClass m ≠ 0) (out cs : List Char) :
    (orderMarks out marks cs).flatMap f =
      out.reverse.flatMap f ++ marks.reverse.flatMap f ++ cs.flatMap f := by
  induction cs generalizing out marks with
  | nil =>
    rw [orderMarks, List.reverse_append, List.flatMap_append, List.flatMap_nil, List.append_nil]
  | cons c cs ih =>
    rw [orderMarks]
    split
    · rw [ih (List.forall_mem_nil _)]
      simp only [List.reverse_cons, List.reverse_append, List.flatMap_append, List.reverse_nil,
        List.flatMap_nil, List.append_nil, List.flatMap_cons, List.append_assoc]
    · rename_i hclass
      rw [beq_iff_eq] at hclass
      have hmore : ∀ m ∈ insertMark c marks, combiningClass m ≠ 0 := by
        intro m hm
        rcases mem_insertMark hm with rfl | hm
        · exact hclass
        · exact hmarks m hm
      rw [ih hmore, flatMap_insertMark hf hclass hmarks, List.flatMap_cons]
      simp only [List.append_assoc]

theorem flatMap_decompose (hf : Unordered f) (cs : List Char) :
    (decompose cs).flatMap f = cs.flatMap fun c => (decomposeChar c).flatMap f := by
  rw [decompose, flatMap_orderMarks hf (List.forall_mem_nil _), List.flatMap_assoc]
  rfl

end Order

section Basic

theorem decomposeChar_of_lt {c : Char} (h : c.toNat < 0xC0) : decomposeChar c = [c] := by
  unfold decomposeChar
  simp only [h, if_true]

theorem combiningClass_of_lt {c : Char} (h : c.toNat < 0x300) : combiningClass c = 0 := by
  unfold combiningClass
  rw [if_pos h]

theorem orderMarks_of_class_zero {cs : List Char} (h : ∀ c ∈ cs, combiningClass c = 0)
    (out : List Char) : orderMarks out [] cs = out.reverse ++ cs := by
  induction cs generalizing out with
  | nil => rw [orderMarks, List.nil_append, List.append_nil]
  | cons c cs ih =>
    obtain ⟨hc, hcs⟩ := List.forall_mem_cons.mp h
    rw [orderMarks, hc]
    simp only [beq_self_eq_true, if_true, List.nil_append]
    rw [ih hcs, List.reverse_cons, List.append_assoc, List.singleton_append]

theorem decompose_eq_self {cs : List Char} (h : ∀ c ∈ cs, c.toNat < 0xC0) : decompose cs = cs := by
  have hflat : cs.flatMap decomposeChar = cs := by
    rw [List.flatMap_congr fun c hc => decomposeChar_of_lt (h c hc)]
    exact List.flatMap_singleton' cs
  unfold decompose
  rw [hflat]
  apply orderMarks_of_class_zero
  intro c hc
  apply combiningClass_of_lt
  have := h c hc
  omega

end Basic

section Tables

/-- A row that speaks of no mark of the first block, or takes one apart into such marks. -/
def keepsBlock (row : TableRow) : Bool :=
  clearOf [(0x300, 0x36F)] row || row.entry.all fun n => Nat.ble 0x300 n && Nat.ble n 0x36F

theorem decompositionTable_keepsBlock :
    ∀ row ∈ decompositionTable.rows.toList, keepsBlock row = true := by
  apply Table.forall_ofPoints
  repeat' first
    | exact List.forall_mem_nil _
    | refine List.forall_mem_cons.mpr ⟨by rw [String.toList_ofList]; decide +kernel, ?_⟩

theorem combiningTable_clearOfKelvin :
    ∀ row ∈ combiningTable.rows.toList, clearOf [(0x212A, 0x212A)] row = true := by
  apply Table.forall_ofRanges
  repeat' first
    | exact List.forall_mem_nil _
    | refine List.forall_mem_cons.mpr ⟨by rw [String.toList_ofList]; decide +kernel, ?_⟩

end Tables

end CodeSearch.Text
