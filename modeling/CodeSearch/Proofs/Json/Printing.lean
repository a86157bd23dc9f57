import CodeSearch.Proofs.Json.Driving
import CodeSearch.Proofs.Keys

/-!
# What printed JSON reads as

Printed with one item or field per line, every value reads back, as itself except for numbers: a
number reads as what its text is read as, and what has no text reads as null.
-/

set_option autoImplicit false

namespace CodeSearch.Json

open Decimal (Literal Stops)

section Induction

theorem sizeOf_item_lt {items : List Json} {v : Json} (h : v ∈ items) :
    sizeOf v < 1 + sizeOf items := by
  have := List.sizeOf_lt_of_mem h
  omega

/-- Induction over a value with the claim for each item and each field at hand. -/
theorem induct {motive : Json → Prop} (null : motive null) (bool : ∀ b, motive (bool b))
    (integer : ∀ n, motive (integer n)) (real : ∀ x, motive (real x))
    (string : ∀ s, motive (string s)) (unreadable : motive unreadable)
    (array : ∀ items, (∀ v ∈ items, motive v) → motive (array items))
    (object : ∀ fields, (∀ f ∈ fields, motive f.2) → motive (object fields)) : ∀ j, motive j
  | .null => null
  | .bool b => bool b
  | .integer n => integer n
  | .real x => real x
  | .string s => string s
  | .unreadable => unreadable
  | .array items => array items fun v hv =>
    have := sizeOf_item_lt hv
    induct null bool integer real string unreadable array object v
  | .object fields => object fields fun f hf =>
    have := sizeOf_entry_lt hf
    induct null bool integer real string unreadable array object f.2
termination_by j => sizeOf j

end Induction

/-! ## Reading again -/

/-- What the text of a number is read as. -/
def rereadNumber (text : List Char) : Json :=
  match readNumber? text with
  | some (v, _) => v
  | none => null

mutual

/-- What a value is after it has been printed and read. -/
def reread : Json → Json
  | null | unreadable => null
  | bool b => bool b
  | integer n => rereadNumber (toString n).toList
  | real x => if x.isNaN || x.isInf then null else rereadNumber (Decimal.shortestText x).toList
  | string s => string s
  | array items => array (rereadItems items)
  | object fields => object (rereadFields fields)

def rereadItems : List Json → List Json
  | [] => []
  | item :: items => item.reread :: rereadItems items

def rereadFields : List (String × Json) → List (String × Json)
  | [] => []
  | (name, value) :: fields => (name, value.reread) :: rereadFields fields

end

theorem rereadItems_eq_map (items : List Json) : rereadItems items = items.map reread := by
  induction items with
  | nil => rfl
  | cons v items ih => rw [rereadItems, ih, List.map_cons]

theorem rereadFields_eq_map (fields : List (String × Json)) :
    rereadFields fields = fields.map fun f => (f.1, f.2.reread) := by
  induction fields with
  | nil => rfl
  | cons f fields ih => rw [rereadFields, ih, List.map_cons]

theorem prettyItems_eq_map (depth : Nat) (items : List Json) :
    prettyItems depth items = items.map fun v => indent depth ++ prettyAt (depth + 1) v := by
  induction items with
  | nil => rfl
  | cons v items ih => rw [prettyItems, ih, List.map_cons]

theorem prettyFields_eq_map (depth : Nat) (fields : List (String × Json)) :
    prettyFields depth fields = fields.map fun f =>
      indent depth ++ quoted f.1 ++ ": " ++ prettyAt (depth + 1) f.2 := by
  induction fields with
  | nil => rfl
  | cons f fields ih => rw [prettyFields, ih, List.map_cons]

/-- Where a value is awaited, the text is read as this one. -/
def Reads (text : List Char) (v : Json) : Prop :=
  ∀ m : Machine, m.awaitsValue = true → m.Drives Stops text (m.complete v)

section Scalars

theorem step?_scalar {m : Machine} (h : m.awaitsValue = true) (v : Json) :
    m.step? (.scalar v) = some (m.complete v) := by
  rw [Machine.step?, if_pos h]

theorem reads_null : Reads "null".toList null :=
  fun _ hm => Machine.drives_token rfl (fun _ _ _ _ => rfl) (step?_scalar hm _)

theorem reads_bool (b : Bool) : Reads (if b then "true" else "false").toList (bool b) := by
  intro m hm
  cases b with
  | true => exact Machine.drives_token rfl (fun _ _ _ _ => rfl) (step?_scalar hm _)
  | false => exact Machine.drives_token rfl (fun _ _ _ _ => rfl) (step?_scalar hm _)

theorem reads_quoted (s : String) : Reads (quoted s).toList (string s) :=
  fun _ hm => Machine.drives_string (step?_scalar hm _)

theorem reads_literal {l : Literal} (h : l.Proper) : Reads l.text (rereadNumber l.text) := by
  intro m hm
  have hread := readNumber?_text h Decimal.stops_nil
  rw [List.append_nil] at hread
  rw [rereadNumber, hread]
  exact Machine.drives_literal h (step?_scalar hm _)

theorem reads_integer (n : Int) : Reads (toString n).toList (integer n).reread := by
  rw [reread, ← Literal.text_ofInt]
  exact reads_literal (Literal.proper_ofInt n)

theorem reads_real (x : Float) : Reads (realText x).toList (real x).reread := by
  rw [realText, reread]
  split
  · exact reads_null
  · obtain ⟨l, hproper, htext⟩ := Literal.exists_shortestText x
    rw [← htext]
    exact reads_literal hproper

end Scalars

/-! ## Arrays and objects -/

section Lines
variable {frames : List Frame} {result : Json}

theorem stops_after_value {c : Char} (h : c = ',' ∨ c = '\n') (rest : List Char) :
    Stops (c :: rest) := by
  rcases h with rfl | rfl <;>
    exact Decimal.stops_cons rfl (by decide) (by decide) (by decide)

theorem drives_indent {follow : List Char → Prop} (m : Machine) (depth : Nat) :
    m.Drives follow (indent depth).toList m := by
  apply Machine.drives_blanks
  intro c hc
  rw [indent, String.toList_ofList] at hc
  rw [List.eq_of_mem_replicate hc]
  rfl

/-- A token of one character, and blanks behind it. -/
theorem drives_mark {follow : List Char → Prop} {c : Char} {t : Token} {blanks : List Char}
    {m m' : Machine} (hblank : isBlankChar c = false)
    (hread : ∀ fuel cs, readToken? fuel c cs = some (t, cs)) (hstep : m.step? t = some m')
    (hblanks : ∀ c ∈ blanks, isBlankChar c = true) : m.Drives follow (c :: blanks) m' := by
  have hmark : m.Drives (fun _ => True) [c] m' :=
    Machine.drives_token hblank (fun rest _ fuel _ => hread fuel rest) hstep
  exact hmark.append (Machine.drives_blanks hblanks) fun _ _ => trivial

/-- Entries divided by commas. `after` has what has been read of them, newest first. -/
theorem drives_separated {α : Type} (text : α → List Char) (after between : List α → Machine)
    {start : Machine} {x : α} {xs done : List α}
    (hfirst : start.Drives Stops (text x) (after (x :: done)))
    (hcomma : ∀ done, (after done).step? .comma = some (between done))
    (hnext : ∀ y ∈ xs, ∀ done, (between done).Drives Stops (text y) (after (y :: done))) :
    start.Drives Stops ([',', '\n'].intercalate ((x :: xs).map text))
      (after ((x :: xs).reverse ++ done)) := by
  induction xs generalizing x done start with
  | nil => simpa [List.intercalate_singleton] using hfirst
  | cons y xs ih =>
    obtain ⟨hy, hrest⟩ := List.forall_mem_cons.mp hnext
    have hbreak : (after (x :: done)).Drives (fun _ => True) [',', '\n'] (between (x :: done)) :=
      drives_mark rfl (fun _ _ => rfl) (hcomma _) (by simp [isBlankChar])
    have hothers := hbreak.append (ih (hy _) hrest) fun _ _ => trivial
    have hall := hfirst.append hothers fun _ _ => stops_after_value (Or.inl rfl) _
    simpa [List.intercalate_cons_cons] using hall

theorem complete_awaiting (frames : List Frame) (a b : Awaiting) (v : Json) :
    (⟨frames, a, result⟩ : Machine).complete v = (⟨frames, b, result⟩ : Machine).complete v := by
  cases frames with
  | nil => rfl
  | cons f frames => cases f <;> rfl

def block (c d : Char) (depth : Nat) (lines : List (List Char)) : List Char :=
  c :: '\n' :: ([',', '\n'].intercalate lines ++ '\n' :: ((indent depth).toList ++ [d]))

theorem drives_block {c d : Char} {t u : Token} {m opened filled m' : Machine} {depth : Nat}
    {lines : List (List Char)} (hmarks : isBlankChar c = false ∧ isBlankChar d = false)
    (hread : ∀ fuel cs, readToken? fuel c cs = some (t, cs) ∧ readToken? fuel d cs = some (u, cs))
    (hopen : m.step? t = some opened)
    (hlines : opened.Drives Stops ([',', '\n'].intercalate lines) filled)
    (hclose : filled.step? u = some m') : m.Drives Stops (block c d depth lines) m' := by
  have hfirst : m.Drives (fun _ => True) [c, '\n'] opened :=
    drives_mark hmarks.1 (fun fuel cs => (hread fuel cs).1) hopen (by simp [isBlankChar])
  have hbreak : filled.Drives (fun _ => True) ['\n'] filled :=
    Machine.drives_blanks (by simp [isBlankChar])
  have hindent : filled.Drives (fun _ => True) (indent depth).toList filled :=
    drives_indent filled depth
  have hlast : filled.Drives Stops [d] m' :=
    drives_mark hmarks.2 (fun fuel cs => (hread fuel cs).2) hclose (List.forall_mem_nil _)
  have hbehind := hbreak.append (hindent.append hlast fun _ _ => trivial) fun _ _ => trivial
  have hrest := hlines.append hbehind fun _ _ => stops_after_value (Or.inr rfl) _
  exact hfirst.append hrest fun _ _ => trivial

def itemLine (depth : Nat) (v : Json) : List Char := (indent depth ++ prettyAt (depth + 1) v).toList

theorem toList_prettyAt_array (depth : Nat) (v : Json) (items : List Json) :
    (prettyAt depth (array (v :: items))).toList =
      block '[' ']' (depth - 1) ((v :: items).map (itemLine depth)) := by
  have hlines : (prettyItems depth (v :: items)).map String.toList =
      (v :: items).map (itemLine depth) := by
    rw [prettyItems_eq_map, List.map_map]
    rfl
  rw [prettyAt, block, ← hlines]
  · simp [String.toList_append, String.toList_intercalate]
  · exact List.cons_ne_nil v items

theorem reads_array {depth : Nat} {v : Json} {items : List Json}
    (h : ∀ w ∈ v :: items, Reads (prettyAt (depth + 1) w).toList w.reread) :
    Reads (prettyAt depth (array (v :: items))).toList (array (v :: items)).reread := by
  rintro ⟨frames, awaiting, result⟩ hm
  let after (done : List Json) : Machine :=
    ⟨.array (done.map reread) :: frames, .commaOrClose, result⟩
  let between (done : List Json) : Machine := ⟨.array (done.map reread) :: frames, .value, result⟩
  have hline : ∀ w ∈ v :: items, ∀ (m : Machine) (done : List Json), m.awaitsValue = true →
      m.complete w.reread = after (w :: done) →
      m.Drives Stops (itemLine depth w) (after (w :: done)) := by
    intro w hw m done hvalue hcomplete
    have hindent : m.Drives (fun _ => True) (indent depth).toList m := drives_indent m depth
    rw [itemLine, String.toList_append, ← hcomplete]
    exact hindent.append (h w hw m hvalue) fun _ _ => trivial
  obtain ⟨hv, hitems⟩ := List.forall_mem_cons.mp hline
  have hlines := drives_separated (itemLine depth) after between
    (hv ⟨.array [] :: frames, .valueOrClose, result⟩ [] rfl rfl) (fun _ => rfl)
    fun w hw done => hitems w hw (between done) done rfl rfl
  rw [toList_prettyAt_array, reread, rereadItems_eq_map,
    complete_awaiting frames awaiting .commaOrClose]
  refine drives_block ⟨rfl, rfl⟩ (fun _ _ => ⟨rfl, rfl⟩) (if_pos hm) hlines ?_
  simp [after, Machine.step?, Machine.close?]

def fieldLine (depth : Nat) (f : String × Json) : List Char :=
  (indent depth ++ quoted f.1 ++ ": " ++ prettyAt (depth + 1) f.2).toList

theorem toList_prettyAt_object (depth : Nat) (f : String × Json) (fields : List (String × Json)) :
    (prettyAt depth (object (f :: fields))).toList =
      block '\x7b' '\x7d' (depth - 1) ((f :: fields).map (fieldLine depth)) := by
  have hlines : (prettyFields depth (f :: fields)).map String.toList =
      (f :: fields).map (fieldLine depth) := by
    rw [prettyFields_eq_map, List.map_map]
    rfl
  rw [prettyAt, block, ← hlines]
  · simp [String.toList_append, String.toList_intercalate]
  · exact List.cons_ne_nil f fields

theorem reads_object {depth : Nat} {f : String × Json} {fields : List (String × Json)}
    (h : ∀ g ∈ f :: fields, Reads (prettyAt (depth + 1) g.2).toList g.2.reread) :
    Reads (prettyAt depth (object (f :: fields))).toList (object (f :: fields)).reread := by
  rintro ⟨frames, awaiting, result⟩ hm
  let read (done : List (String × Json)) : List (String × Json) :=
    done.map fun g => (g.1, g.2.reread)
  -- The key that the frame keeps is that of the field read last.
  let frame (done : List (String × Json)) : Frame :=
    .object (read done) ((done.map Prod.fst).headD "") true
  let after (done : List (String × Json)) : Machine := ⟨frame done :: frames, .commaOrClose, result⟩
  let between (done : List (String × Json)) : Machine := ⟨frame done :: frames, .key, result⟩
  have hline : ∀ g ∈ f :: fields, ∀ done a, a = Awaiting.key ∨ a = Awaiting.keyOrClose →
      (⟨frame done :: frames, a, result⟩ : Machine).Drives Stops (fieldLine depth g)
        (after (g :: done)) := by
    intro g hg done a ha
    let start : Machine := ⟨frame done :: frames, a, result⟩
    let named : Machine := ⟨.object (read done) g.1 true :: frames, .colon, result⟩
    let awaited : Machine := ⟨.object (read done) g.1 true :: frames, .value, result⟩
    have hindent : start.Drives (fun _ => True) (indent depth).toList start :=
      drives_indent start depth
    have hkey : start.Drives (fun _ => True) (quoted g.1).toList named := by
      apply Machine.drives_string
      rcases ha with rfl | rfl <;> rfl
    have hcolon : named.Drives (fun _ => True) [':', ' '] awaited :=
      drives_mark rfl (fun _ _ => rfl) rfl (by simp [isBlankChar])
    have hvalue : awaited.Drives Stops (prettyAt (depth + 1) g.2).toList (after (g :: done)) :=
      h g hg awaited rfl
    have hfield := hkey.append (hcolon.append hvalue fun _ _ => trivial) fun _ _ => trivial
    have hall := hindent.append hfield fun _ _ => trivial
    simpa [fieldLine, String.toList_append] using hall
  obtain ⟨hf, hfields⟩ := List.forall_mem_cons.mp hline
  have hlines := drives_separated (fieldLine depth) after between
    (hf [] .keyOrClose (Or.inr rfl)) (fun _ => rfl)
    fun g hg done => hfields g hg done .key (Or.inl rfl)
  rw [toList_prettyAt_object, reread, rereadFields_eq_map,
    complete_awaiting frames awaiting .commaOrClose]
  refine drives_block ⟨rfl, rfl⟩ (fun _ _ => ⟨rfl, rfl⟩) (if_pos hm) hlines ?_
  simp [after, frame, read, Machine.step?, Machine.close?]

theorem drives_brackets {c d : Char} {t u : Token} {m opened m' : Machine}
    (hmarks : isBlankChar c = false ∧ isBlankChar d = false)
    (hread : ∀ fuel cs, readToken? fuel c cs = some (t, cs) ∧ readToken? fuel d cs = some (u, cs))
    (hopen : m.step? t = some opened) (hclose : opened.step? u = some m') :
    m.Drives Stops [c, d] m' := by
  have hfirst : m.Drives (fun _ => True) [c] opened :=
    drives_mark hmarks.1 (fun fuel cs => (hread fuel cs).1) hopen (List.forall_mem_nil _)
  have hlast : opened.Drives Stops [d] m' :=
    drives_mark hmarks.2 (fun fuel cs => (hread fuel cs).2) hclose (List.forall_mem_nil _)
  exact hfirst.append hlast fun _ _ => trivial

theorem reads_emptyArray : Reads "[]".toList (array []) := by
  rintro ⟨frames, awaiting, result⟩ hm
  rw [complete_awaiting frames awaiting .valueOrClose]
  exact drives_brackets ⟨rfl, rfl⟩ (fun _ _ => ⟨rfl, rfl⟩) (if_pos hm) rfl

theorem reads_emptyObject : Reads "\x7b\x7d".toList (object []) := by
  rintro ⟨frames, awaiting, result⟩ hm
  rw [complete_awaiting frames awaiting .keyOrClose]
  exact drives_brackets ⟨rfl, rfl⟩ (fun _ _ => ⟨rfl, rfl⟩) (if_pos hm) rfl

end Lines

/-- Wherever a value is awaited, the text of a value reads as that value read again. -/
theorem reads_prettyAt (j : Json) : ∀ depth, Reads (prettyAt depth j).toList j.reread := by
  induction j using induct with
  | null => exact fun _ => reads_null
  | bool b => exact fun _ => reads_bool b
  | integer n => exact fun _ => reads_integer n
  | real x => exact fun _ => reads_real x
  | string s => exact fun _ => reads_quoted s
  | unreadable => exact fun _ => reads_null
  | array items ih =>
    intro depth
    cases items with
    | nil => exact reads_emptyArray
    | cons v items => exact reads_array fun w hw => ih w hw (depth + 1)
  | object fields ih =>
    intro depth
    cases fields with
    | nil => exact reads_emptyObject
    | cons f fields => exact reads_object fun g hg => ih g hg (depth + 1)

/-- Printed and read, a value comes back with its numbers read again. -/
theorem parse?_pretty (j : Json) : parse? j.pretty = some j.reread := by
  exact Machine.parse?_of_drives (reads_prettyAt j 1 {} rfl) rfl

end CodeSearch.Json
