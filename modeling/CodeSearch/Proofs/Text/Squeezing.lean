import CodeSearch.Text.WhiteSpace
import Mathlib.Data.List.Chain
import Mathlib.Data.List.DropRight

/-!
# Squeezing and trimming

Squeezing leaves no two characters of the squeezed kind side by side, and leaves a text alone in
which there are none. What it puts in place of a run does not bring other characters together.
-/

set_option autoImplicit false

namespace CodeSearch.Text
variable {p : Char → Bool} {r : Char}

theorem trimWhere_eq (p : Char → Bool) (cs : List Char) :
    trimWhere p cs = (cs.dropWhile p).rdropWhile p := rfl

theorem trimWhere_isInfix (p : Char → Bool) (cs : List Char) : trimWhere p cs <:+: cs := by
  have hfront : cs.dropWhile p <:+ cs := List.dropWhile_suffix p
  have hback : (cs.dropWhile p).rdropWhile p <+: cs.dropWhile p := List.rdropWhile_prefix p _
  rw [trimWhere_eq]
  exact hback.isInfix.trans hfront.isInfix

/-- Of several characters of the kind in a row there is none left. -/
def Lone (p : Char → Bool) (a b : Char) : Prop := ¬ (p a = true ∧ p b = true)

theorem mem_squeezeFrom {inRun : Bool} {cs : List Char} {c : Char}
    (h : c ∈ squeezeFrom p r inRun cs) : c = r ∨ c ∈ cs ∧ p c = false := by
  induction cs generalizing inRun with
  | nil => cases h
  | cons d cs ih =>
    have hrest : ∀ {inRun}, c ∈ squeezeFrom p r inRun cs → c = r ∨ c ∈ d :: cs ∧ p c = false :=
      fun hc => (ih hc).imp_right (And.imp_left (List.mem_cons_of_mem d))
    rw [squeezeFrom] at h
    split at h
    · split at h
      · exact hrest h
      · rcases List.mem_cons.mp h with rfl | h
        · exact Or.inl rfl
        · exact hrest h
    · rename_i hd
      rcases List.mem_cons.mp h with rfl | h
      · exact Or.inr ⟨List.mem_cons_self, eq_false_of_ne_true hd⟩
      · exact hrest h

/-- `prev` is what stands in front; if it is of the kind, a run is under way. -/
theorem isChain_lone_squeezeFrom {inRun : Bool} {prev : Char} (hprev : p prev = true → inRun = true)
    (cs : List Char) : (prev :: squeezeFrom p r inRun cs).IsChain (Lone p) := by
  induction cs generalizing inRun prev with
  | nil => exact List.isChain_singleton _
  | cons c cs ih =>
    rw [squeezeFrom]
    split
    · split
      · exact ih fun _ => rfl
      · rename_i hrun
        have hlone : Lone p prev r := fun h => hrun (hprev h.1)
        exact (ih fun _ => rfl).cons_cons hlone
    · rename_i hc
      have hlone : Lone p prev c := fun h => hc h.2
      exact (ih fun h => absurd h hc).cons_cons hlone

theorem isChain_lone_squeeze (cs : List Char) : (squeeze p r cs).IsChain (Lone p) := by
  cases cs with
  | nil => exact List.isChain_nil
  | cons c cs =>
    rw [squeeze, squeezeFrom]
    split
    · exact isChain_lone_squeezeFrom (fun _ => rfl) cs
    · rename_i hc
      exact isChain_lone_squeezeFrom (fun h => absurd h hc) cs

/-- What may stand on either side of `r` keeps its neighbours, or gets `r` for one. -/
theorem isChain_squeezeFrom {R : Char → Char → Prop} (hleft : ∀ c, R r c) (hright : ∀ c, R c r)
    {inRun : Bool} {prev : Char} (hprev : inRun = true → prev = r) {cs : List Char}
    (h : (prev :: cs).IsChain R) : (prev :: squeezeFrom p r inRun cs).IsChain R := by
  induction cs generalizing inRun prev with
  | nil => exact List.isChain_singleton _
  | cons c cs ih =>
    obtain ⟨hpc, hcs⟩ := List.isChain_cons_cons.mp h
    have hr : (r :: cs).IsChain R := by
      cases cs with
      | nil => exact List.isChain_singleton _
      | cons d cs => exact hcs.tail.cons_cons (hleft d)
    rw [squeezeFrom]
    split
    · split
      · rename_i hrun
        rw [hprev hrun]
        exact ih (fun _ => rfl) hr
      · exact (ih (fun _ => rfl) hr).cons_cons (hright prev)
    · have hnone : false = true → c = r := fun h => by cases h
      exact (ih hnone hcs).cons_cons hpc

theorem isChain_squeeze {R : Char → Char → Prop} (hleft : ∀ c, R r c) (hright : ∀ c, R c r)
    {cs : List Char} (h : cs.IsChain R) : (squeeze p r cs).IsChain R := by
  have hr : (r :: cs).IsChain R := by
    cases cs with
    | nil => exact List.isChain_singleton _
    | cons c cs => exact h.cons_cons (hleft c)
  have hnone : false = true → r = r := fun _ => rfl
  exact (isChain_squeezeFrom hleft hright hnone hr).tail

theorem squeeze_eq_self {cs : List Char} (hchars : ∀ c ∈ cs, p c = true → c = r)
    (hchain : cs.IsChain (Lone p)) : squeeze p r cs = cs := by
  have hfrom : ∀ inRun, (inRun = true → ∀ c ∈ cs.head?, p c = false) →
      squeezeFrom p r inRun cs = cs := by
    induction cs with
    | nil => exact fun _ _ => rfl
    | cons c cs ih =>
      obtain ⟨hc, hcs⟩ := List.forall_mem_cons.mp hchars
      intro inRun hhead
      rw [squeezeFrom]
      split
      · rename_i hpc
        have hnext : ∀ d ∈ cs.head?, p d = false := by
          intro d hd
          have hlone := (List.isChain_cons.mp hchain).1 d hd
          exact eq_false_of_ne_true fun hpd => hlone ⟨hpc, hpd⟩
        split
        · rename_i hrun
          have := hhead hrun c rfl
          rw [hpc] at this
          cases this
        · rw [ih hcs hchain.tail true fun _ => hnext, hc hpc]
      · rw [ih hcs hchain.tail false fun hfalse => nomatch hfalse]
  exact hfrom false fun hfalse => nomatch hfalse

end CodeSearch.Text
