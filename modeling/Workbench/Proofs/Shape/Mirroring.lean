import Mathlib.Data.Option.Basic
import Mathlib.Data.Option.NAry
import Workbench.Config.Basic
import Workbench.Proofs.Shape.Decoding
import Workbench.Shape.Text

/-!
# Two shapes that read the same texts

What a text says can be asked in more than one way: a record with standard values for what is left
out forgets what was left out, and a record of the same fields without standard values does not.  A
shape mirrors another one if it reads every text that the other reads, up to the same place, and to
a related value.

* `Shape.Mirrors` is that for two shapes and a relation of their values;
* `Fields.Mirror` is what it takes for two records, field by field: the same names, shapes that
  mirror each other, and related standard values;
* `Shape.Mirrors.record`: **records mirror each other if their fields do**, whether they are given
  as objects or as lists;
* `Shape.mirrors_keys`: a record is mirrored by its keys, which tell of each field whether the text
  has it.
-/

namespace Workbench

open Json (Fault)

/-! ## 1. Shapes -/

/-- Whatever `s` reads from a text, `s'` reads from it too, and the values are related. -/
def Shape.Mirrors (s s' : Shape) (R : s.Value → s'.Value → Prop) : Prop :=
  ∀ depth cs v rest, s.read depth cs = .ok (v, rest) →
    ∃ v', s'.read depth cs = .ok (v', rest) ∧ R v v'

namespace Shape

theorem skipSpace_idem (cs : List Char) :
    Json.skipSpace (Json.skipSpace cs) = Json.skipSpace cs := by
  induction cs with
  | nil => rfl
  | cons c cs ih =>
    cases hc : Json.isSpace c with
    | true => simpa only [Json.skipSpace, List.dropWhile_cons, hc, if_true] using ih
    | false =>
      simp only [Json.skipSpace, List.dropWhile_cons, hc, Bool.false_eq_true, if_false]

section Scalars

variable {α : Type} {isStart : Char → Bool} {expected : String}
  {decode : Json → Except Mismatch α} {cs rest : List Char} {v : α}

/-- A scalar is read from its first character on, and decoded. -/
theorem readOne_eq_ok (h : readOne isStart expected decode cs = .ok (v, rest)) :
    ∃ c r, Json.skipSpace cs = c :: r ∧ isStart c = true ∧
      readOne isStart expected decode (c :: r) = .ok (v, rest) ∧ ∃ j, decode j = .ok v := by
  have hread := h
  unfold readOne at h
  split at h
  · cases h
  · rename_i c r hcs
    split at h
    · rename_i hstart
      split at h
      · cases h
      · split at h <;> cases h
        refine ⟨c, r, hcs, hstart, ?_, _, ‹_›⟩
        rw [← hcs, readOne, skipSpace_idem]
        exact hread
    · cases h

end Scalars

section Options

variable {s : Shape} {depth : Nat} {cs rest : List Char}

/-- **A value that may be null** is read as nothing where null stands, and otherwise as a value. -/
theorem read_option_eq_ok_iff {v : Option s.Value} :
    (Shape.option s).read depth cs = .ok (v, rest) ↔
      (v = none ∧ ∃ r, Json.skipSpace cs = 'n' :: r ∧
        Json.readWord "ull".toList r = .ok ((), rest)) ∨
      ((∀ r, Json.skipSpace cs ≠ 'n' :: r) ∧ ∃ w, v = some w ∧
        s.read depth (Json.skipSpace cs) = .ok (w, rest)) := by
  rw [Shape.read.eq_def]
  dsimp only
  split
  · rename_i r hcs
    rw [hcs]
    constructor
    · intro h
      split at h <;> cases h
      exact Or.inl ⟨rfl, r, rfl, ‹_›⟩
    · rintro (⟨rfl, r', hr, hword⟩ | ⟨hother, -⟩)
      · cases hr
        rw [hword]
      · exact absurd rfl (hother r)
  · rename_i hother
    constructor
    · intro h
      split at h <;> cases h
      exact Or.inr ⟨hother, _, rfl, ‹_›⟩
    · rintro (⟨-, r, hr, -⟩ | ⟨-, w, rfl, hvalue⟩)
      · exact absurd hr (hother r)
      · rw [hvalue]

/-- A value that does not begin as null does is read as a value that may be null. -/
theorem read_option_of_read {v : s.Value} {c : Char} {r : List Char}
    (hcs : Json.skipSpace cs = c :: r) (hc : c ≠ 'n')
    (h : s.read depth (Json.skipSpace cs) = .ok (v, rest)) :
    (Shape.option s).read depth cs = .ok (some v, rest) := by
  refine read_option_eq_ok_iff.mpr (Or.inr ⟨fun r' hn => ?_, v, rfl, h⟩)
  rw [hcs] at hn
  cases hn
  exact hc rfl

end Options

/-- No text for null is read as a value of the shape: what is read can be decoded, and it is read
alike as a value that may be null. -/
def Bare (s : Shape) : Prop :=
  s.Mirrors (.option s) fun v given => given = some v ∧ ∃ j, s.decode j = .ok v

theorem bare_of_readOne {s : Shape} {isStart : Char → Bool} {expected : String}
    (hread : ∀ depth cs, s.read depth cs = readOne isStart expected (fun j => s.decode j) cs)
    (hn : isStart 'n' = false) : s.Bare := by
  intro depth cs v rest h
  rw [hread] at h
  obtain ⟨c, r, hcs, hstart, hvalue, hdecode⟩ := readOne_eq_ok h
  have hne : c ≠ 'n' := by
    rintro rfl
    exact Bool.false_ne_true (hn.symm.trans hstart)
  refine ⟨some v, read_option_of_read hcs hne ?_, rfl, hdecode⟩
  rw [hcs, hread]
  exact hvalue

theorem bare_natural (kind : NaturalKind) : (Shape.natural kind).Bare :=
  bare_of_readOne (fun _ _ => Shape.read.eq_def _ _ _) rfl

theorem bare_text : Shape.text.Bare :=
  bare_of_readOne (fun _ _ => Shape.read.eq_def _ _ _) rfl

theorem Mirrors.refl (s : Shape) : s.Mirrors s fun v v' => v' = v :=
  fun _ _ v _ h => ⟨v, h, rfl⟩

theorem Mirrors.mono {s s' : Shape} {R R' : s.Value → s'.Value → Prop} (h : s.Mirrors s' R)
    (himp : ∀ v v', R v v' → R' v v') : s.Mirrors s' R' := by
  intro depth cs v rest hread
  obtain ⟨v', hread', hR⟩ := h depth cs v rest hread
  exact ⟨v', hread', himp v v' hR⟩

/-- Values that may be null are related if both are null, or neither and the values are. -/
theorem Mirrors.option {s s' : Shape} {R : s.Value → s'.Value → Prop} (h : s.Mirrors s' R) :
    (Shape.option s).Mirrors (.option s') (Option.Rel R) := by
  intro depth cs v rest hread
  rcases read_option_eq_ok_iff.mp hread with ⟨rfl, hnull⟩ | ⟨hother, w, rfl, hvalue⟩
  · exact ⟨none, read_option_eq_ok_iff.mpr (Or.inl ⟨rfl, hnull⟩), .none⟩
  · obtain ⟨w', hw', hR⟩ := h _ _ _ _ hvalue
    exact ⟨some w', read_option_eq_ok_iff.mpr (Or.inr ⟨hother, w', rfl, hw'⟩), .some hR⟩

end Shape

/-! ## 2. Fields -/

/-- Two fields with standard values and the same names: the shapes mirror each other, and so do the
standard values. -/
structure Field.Mirrors (f f' : Field) (s s' : Shape) (R : s.Value → s'.Value → Prop) : Prop where
  accepts : ∀ key, f.accepts key = f'.accepts key
  shape : s.Mirrors s' R
  standard : ∃ d d', f.presence = .default d ∧ f'.presence = .default d' ∧
    ∀ v, s.decode d = .ok v → ∃ v', s'.decode d' = .ok v' ∧ R v v'

/-- Two lists of fields that mirror each other one by one, with the relation of their values and
that of what has been met of them so far. -/
inductive Fields.Mirror : (fields fields' : Fields) → (fields.Values → fields'.Values → Prop) →
    (fields.Slots → fields'.Slots → Prop) → Prop where
  | nil : Mirror .nil .nil (fun _ _ => True) fun _ _ => True
  | cons {f f' : Field} {s s' : Shape} {rest rest' : Fields} {R : s.Value → s'.Value → Prop}
      {Q : rest.Values → rest'.Values → Prop} {S : rest.Slots → rest'.Slots → Prop}
      (head : f.Mirrors f' s s' R) (tail : Mirror rest rest' Q S) :
      Mirror (.cons f s rest) (.cons f' s' rest') (fun v v' => R v.1 v'.1 ∧ Q v.2 v'.2)
        fun x x' => Option.Rel R x.1 x'.1 ∧ S x.2 x'.2

namespace Field

variable {f f' : Field} {s s' : Shape} {R : s.Value → s'.Value → Prop}

/-- What is left out has related values. -/
theorem Mirrors.absent (h : f.Mirrors f' s s' R) {v : s.Value}
    (hv : f.absent (fun j => s.decode j) = .ok v) :
    ∃ v', f'.absent (fun j => s'.decode j) = .ok v' ∧ R v v' := by
  obtain ⟨d, d', hd, hd', hstandard⟩ := h.standard
  simp only [Field.absent, hd] at hv
  simp only [Field.absent, hd']
  exact hstandard v hv

/-- So it has at the end of a list. -/
theorem Mirrors.fromItems (h : f.Mirrors f' s s' R) {short : Mismatch} (short' : Mismatch)
    {v : s.Value} (hv : f.fromItems (fun j => s.decode j) short [] = .ok v) :
    ∃ v', f'.fromItems (fun j => s'.decode j) short' [] = .ok v' ∧ R v v' := by
  obtain ⟨d, d', hd, hd', hstandard⟩ := h.standard
  simp only [Field.fromItems, hd] at hv
  simp only [Field.fromItems, hd']
  exact hstandard v hv

theorem Mirrors.fromSlot (h : f.Mirrors f' s s' R) {x : Option s.Value} {x' : Option s'.Value}
    (hx : Option.Rel R x x') {v : s.Value} (hv : f.fromSlot (fun j => s.decode j) x = .ok v) :
    ∃ v', f'.fromSlot (fun j => s'.decode j) x' = .ok v' ∧ R v v' := by
  cases hx with
  | none => exact h.absent hv
  | some hR =>
    cases hv
    exact ⟨_, rfl, hR⟩

end Field

namespace Fields

variable {fields fields' : Fields} {Q : fields.Values → fields'.Values → Prop}
  {S : fields.Slots → fields'.Slots → Prop}

/-- At first nothing has been met of either. -/
theorem Mirror.noSlots (h : Mirror fields fields' Q S) : S fields.noSlots fields'.noSlots := by
  induction h with
  | nil => trivial
  | cons head tail ih => exact ⟨.none, ih⟩

/-- **A member is read into the same field of both.** -/
theorem Mirror.readMember (h : Mirror fields fields' Q S) {depth : Nat} {key : String}
    {cs rest : List Char} {slots slots₁ : fields.Slots} {slots' : fields'.Slots}
    (hs : S slots slots') (hread : fields.readMember depth key cs slots = .ok (slots₁, rest)) :
    ∃ slots₁', fields'.readMember depth key cs slots' = .ok (slots₁', rest) ∧
      S slots₁ slots₁' := by
  induction h with
  | nil =>
    refine ⟨slots', ?_, trivial⟩
    simp only [Fields.readMember] at hread ⊢
    split at hread
    · cases hread
    · split at hread <;> cases hread
      rfl
  | @cons f f' s s' others others' R Q S head tail ih =>
    obtain ⟨slot, slots⟩ := slots
    obtain ⟨slot', slots'⟩ := slots'
    obtain ⟨hslot, hslots⟩ := hs
    simp only [Fields.readMember] at hread ⊢
    rw [← head.accepts key]
    split at hread
    · rename_i hacc
      rw [if_pos hacc]
      cases hslot with
      | some hR => cases hread
      | none =>
        dsimp only at hread ⊢
        split at hread
        · cases hread
        · split at hread
          · cases hread
          · rename_i hvalue
            cases hread
            obtain ⟨v', hv', hR⟩ := head.shape _ _ _ _ hvalue
            rw [hv']
            exact ⟨_, rfl, .some hR, hslots⟩
    · rename_i hacc
      rw [if_neg hacc]
      split at hread
      · cases hread
      · rename_i hmember
        cases hread
        obtain ⟨slots₁', hread', hS⟩ := ih hslots hmember
        rw [hread']
        exact ⟨_, rfl, hslot, hS⟩

/-- All members are. -/
theorem Mirror.readMembers (h : Mirror fields fields' Q S) {depth : Nat} (n : Nat) :
    ∀ {first : Bool} {slots slots₁ : fields.Slots} {slots' : fields'.Slots} {cs rest : List Char},
      S slots slots' →
      Shape.readMembers (fun key cs slots => fields.readMember depth key cs slots) n
        first slots cs = .ok (slots₁, rest) →
      ∃ slots₁', Shape.readMembers (fun key cs slots => fields'.readMember depth key cs slots) n
        first slots' cs = .ok (slots₁', rest) ∧ S slots₁ slots₁' := by
  induction n with
  | zero =>
    intro first slots slots₁ slots' cs rest hs hread
    cases hread
  | succ n ih =>
    intro first slots slots₁ slots' cs rest hs hread
    simp only [Shape.readMembers] at hread ⊢
    split at hread
    · cases hread
    · cases hread
      exact ⟨slots', rfl, hs⟩
    · split at hread
      · cases hread
      · rename_i hmember
        obtain ⟨slots₂', hread', hS⟩ := h.readMember hs hmember
        rw [hread']
        exact ih hS hread

/-- What has been met of both is filled up alike. -/
theorem Mirror.fill (h : Mirror fields fields' Q S) {slots : fields.Slots} {slots' : fields'.Slots}
    (hs : S slots slots') {vs : fields.Values} (hfill : fields.fill slots = .ok vs) :
    ∃ vs', fields'.fill slots' = .ok vs' ∧ Q vs vs' := by
  induction h with
  | nil => exact ⟨(), rfl, trivial⟩
  | @cons f f' s s' others others' R Q S head tail ih =>
    obtain ⟨slot, slots⟩ := slots
    obtain ⟨slot', slots'⟩ := slots'
    obtain ⟨hslot, hslots⟩ := hs
    simp only [Fields.fill] at hfill ⊢
    split at hfill
    · cases hfill
    · rename_i hv
      split at hfill <;> cases hfill
      rename_i hvs
      obtain ⟨v', hv', hR⟩ := head.fromSlot hslot hv
      obtain ⟨vs', hvs', hQ⟩ := ih hslots hvs
      rw [hv', hvs']
      exact ⟨_, rfl, hR, hQ⟩

/-- **A list of fields is read into the same fields of both.** -/
theorem Mirror.readItems (h : Mirror fields fields' Q S) {name : String} (name' : String)
    {size : Nat} (size' : Nat) {depth : Nat} :
    ∀ {index : Nat} {cs rest : List Char} {vs : fields.Values},
      Fields.readItems name size index depth fields cs = .ok (vs, rest) →
      ∃ vs', Fields.readItems name' size' index depth fields' cs = .ok (vs', rest) ∧ Q vs vs' := by
  induction h with
  | nil =>
    intro index cs rest vs hread
    cases hread
    exact ⟨(), rfl, trivial⟩
  | @cons f f' s s' others others' R Q S head tail ih =>
    intro index cs rest vs hread
    simp only [Fields.readItems] at hread ⊢
    split at hread
    · cases hread
    · split at hread
      · cases hread
      · rename_i hv
        split at hread <;> cases hread
        rename_i hvs
        obtain ⟨v', hv', hR⟩ := head.shape _ _ _ _ hv
        obtain ⟨vs', hvs', hQ⟩ := ih hvs
        refine ⟨(v', vs'), ?_, hR, hQ⟩
        simp only [hv', hvs']
    · split at hread
      · cases hread
      · rename_i hv
        split at hread <;> cases hread
        rename_i hvs
        obtain ⟨v', hv', hR⟩ := head.fromItems
          (.wrongLength index (Shape.elementsLabel name' size')) hv
        obtain ⟨vs', hvs', hQ⟩ := ih hvs
        refine ⟨(v', vs'), ?_, hR, hQ⟩
        simp only [hv', hvs']

end Fields

/-! ## 3. Records -/

/-- **Records mirror each other if their fields do**, whether they are given as objects or as
lists. -/
theorem Shape.Mirrors.record {fields fields' : Fields} {Q : fields.Values → fields'.Values → Prop}
    {S : fields.Slots → fields'.Slots → Prop} (h : Fields.Mirror fields fields' Q S)
    (name name' : String) : (Shape.record name fields).Mirrors (.record name' fields') Q := by
  intro depth cs v rest hread
  rw [Shape.read.eq_def] at hread ⊢
  dsimp only at hread ⊢
  split at hread
  · cases hread
  · rename_i c r hcs
    split at hread
    · rename_i hbrace
      cases depth with
      | zero => cases hread
      | succ depth =>
        dsimp only at hread
        split at hread
        · cases hread
        · rename_i slots r' hmembers
          split at hread
          · cases hread
          · rename_i hfill
            split at hread <;> cases hread
            rename_i hend
            obtain ⟨slots', hmembers', hS⟩ := h.readMembers _ h.noSlots hmembers
            obtain ⟨vs', hfill', hQ⟩ := h.fill hS hfill
            refine ⟨vs', ?_, hQ⟩
            simp only [hbrace, if_true, hmembers', hfill', hend]
    · rename_i hbrace
      split at hread
      · rename_i hbracket
        cases depth with
        | zero => cases hread
        | succ depth =>
          dsimp only at hread
          split at hread
          · cases hread
          · rename_i hitems
            split at hread <;> cases hread
            rename_i hend
            obtain ⟨vs', hitems', hQ⟩ := h.readItems name' fields'.length hitems
            refine ⟨vs', ?_, hQ⟩
            rw [if_neg hbrace, if_pos hbracket]
            simp only [hitems', hend]
      · cases hread

/-! ## 4. Keys -/

namespace Field

/-- The field, which need not be there. -/
def key (f : Field) : Field := { f with presence := .default .null }

/-- The value can be decoded, and it is the one that is given, or else the one that holds in the
absence of the field. -/
structure Completes {α : Type} (f : Field) (decode : Json → Except Mismatch α) (v : α)
    (given : Option α) : Prop where
  source : ∃ j, decode j = .ok v
  absent : given = none → f.absent decode = .ok v
  given : ∀ w, given = some w → v = w

theorem Completes.eq_getD {α : Type} {f : Field} {decode : Json → Except Mismatch α} {v d : α}
    {given : Option α} (h : f.Completes decode v given) (hd : f.absent decode = .ok d) :
    v = given.getD d := by
  cases given with
  | some w => exact h.given w rfl
  | none =>
    have hv := h.absent rfl
    rw [hd] at hv
    cases hv
    rfl

/-- A section that may be absent is mirrored by a section of the same name. -/
theorem mirrors_section (name : String) {s s' : Shape}
    {R : (Shape.option s).Value → (Shape.option s').Value → Prop}
    (h : (Shape.option s).Mirrors (.option s') R) (hnone : R none none) :
    (Field.section name).Mirrors (Field.section name) (.option s) (.option s') R where
  accepts := fun _ => rfl
  shape := h
  standard := by
    refine ⟨.null, .null, rfl, rfl, fun v hv => ?_⟩
    rw [Shape.decode_option_null] at hv
    cases hv
    exact ⟨none, Shape.decode_option_null s', hnone⟩

/-- A field with a standard value is mirrored by its key. -/
theorem mirrors_key {f : Field} {s : Shape} {d : Json} (hd : f.presence = .default d)
    (hs : s.Bare) :
    f.Mirrors f.key s (.option s) (f.Completes fun j => s.decode j) where
  accepts := fun _ => rfl
  shape := by
    refine hs.mono fun v given hgiven => ?_
    obtain ⟨rfl, hsource⟩ := hgiven
    refine ⟨hsource, nofun, fun w hw => ?_⟩
    cases hw
    rfl
  standard := by
    refine ⟨d, .null, hd, rfl, fun v hv => ⟨none, Shape.decode_option_null s, ⟨d, hv⟩, ?_, nofun⟩⟩
    intro _
    rw [Field.absent, hd]
    exact hv

end Field

namespace Fields

/-- The same fields, of which none need be there. -/
def keys : Fields → Fields
  | nil => nil
  | cons f s rest => cons f.key (.option s) rest.keys

/-- All fields have standard values, and none is read from null. -/
def Keyed : Fields → Prop
  | nil => True
  | cons f s rest => (∃ d, f.presence = .default d) ∧ s.Bare ∧ rest.Keyed

/-- The values are those that are given, or else those that hold in the absence of their fields. -/
def Completes : (fields : Fields) → fields.Values → fields.keys.Values → Prop
  | nil => fun _ _ => True
  | cons f s rest => fun v given =>
    f.Completes (fun j => s.decode j) v.1 given.1 ∧ rest.Completes v.2 given.2

/-- What has been met of the fields and of their keys so far. -/
def SlotsComplete : (fields : Fields) → fields.Slots → fields.keys.Slots → Prop
  | nil => fun _ _ => True
  | cons f s rest => fun slot given =>
    Option.Rel (f.Completes fun j => s.decode j) slot.1 given.1 ∧
      rest.SlotsComplete slot.2 given.2

theorem mirror_keys : {fields : Fields} → fields.Keyed →
    Mirror fields fields.keys fields.Completes fields.SlotsComplete
  | nil, _ => .nil
  | cons _ _ _, ⟨⟨_, hd⟩, hs, hrest⟩ => .cons (Field.mirrors_key hd hs) (mirror_keys hrest)

end Fields

/-- The record, of whose fields none need be there. -/
def Shape.keys : Shape → Shape
  | .record name fields => .record name fields.keys
  | s => s

/-- **A record is mirrored by its keys**, if all its fields have standard values. -/
theorem Shape.mirrors_keys (name : String) {fields : Fields} (h : fields.Keyed) :
    (Shape.record name fields).Mirrors (Shape.record name fields).keys fields.Completes :=
  .record (Fields.mirror_keys h) name name

/-! ## 5. Types of the library -/

/-- Whatever is read as an `α` is read as a `β` too, and the two are related. -/
def Mirrored (α β : Type) [Shaped α] [Shaped β] (R : α → β → Prop) : Prop :=
  (Shaped.shape α).Mirrors (Shaped.shape β) fun v w => R (Shaped.ofValue v) (Shaped.ofValue w)

section

variable {α β : Type} [Shaped α] [Shaped β] {R : α → β → Prop}

theorem Mirrored.option (h : Mirrored α β R) :
    (Shape.option (Shaped.shape α)).Mirrors (.option (Shaped.shape β)) fun v w =>
      Option.Rel R (Option.map (fun x => Shaped.ofValue x) v)
        (Option.map (fun x => Shaped.ofValue x) w) := by
  refine (Shape.Mirrors.option h).mono fun v w hvw => ?_
  cases hvw with
  | none => exact .none
  | some hR => exact .some hR

/-- **Whole texts** are read alike. -/
theorem Mirrored.readText (h : Mirrored α β R) {text : String} {a : α}
    (hread : Workbench.readText α text = .ok a) :
    ∃ b, Workbench.readText β text = .ok b ∧ R a b := by
  unfold Workbench.readText at hread ⊢
  split at hread
  · cases hread
  · rename_i hvalue
    split at hread <;> cases hread
    rename_i hend
    obtain ⟨w, hw, hR⟩ := h _ _ _ _ hvalue
    refine ⟨Shaped.ofValue w, ?_, hR⟩
    simp only [hw, hend]

end

section

variable {α β : Type} {R : α → β → Prop} {x : Option α} {y : Option β}

/-- Values that may be absent, of which one tells the other. -/
theorem eq_map_of_rel {tell : β → α} (hR : ∀ a b, R a b → a = tell b) (h : Option.Rel R x y) :
    x = y.map tell := by
  cases h with
  | none => rfl
  | some hab => exact congrArg some (hR _ _ hab)

/-- What holds of related values holds of those that may be absent. -/
theorem forall_mem_of_rel {P : α → Prop} (hR : ∀ a b, R a b → P a) (h : Option.Rel R x y) :
    ∀ a ∈ x, P a := by
  cases h with
  | none => nofun
  | some hab =>
    intro a ha
    cases ha
    exact hR _ _ hab

end

end Workbench
