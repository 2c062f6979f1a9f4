import Mathlib.Algebra.Group.Nat.Defs
import Mathlib.Data.List.Forall2
import Workbench.Proofs.Json.Members
import Workbench.Shape.Decode
import Workbench.Shape.Encode

/-!
# What values decode to

For each shape, which JSON values decode and to what: `decode_text_eq_ok_iff` and its like say it
for the simple shapes.  A record is decoded member by member; what comes out can be said field by
field.

* `Field.Stands` says what the members of one field make of it: nothing but the value for an absent
  field if there is none, the value of the member if there is one, and no value at all if there are
  more;
* `decode_obj_eq_ok_iff`: **a record decodes to the values for which its fields stand**, if no two
  of its fields share a name;
* `Stand.perm` and `decode_obj_known`: neither the order of the members nor members under other
  names have an influence;
* `stand_members`: what a record is written as stands for the record.
-/

namespace Workbench

/-! ## 1. Simple shapes -/

/-- A list of values is decoded value by value. -/
theorem mapM_eq_ok_iff {α β ε : Type} {f : α → Except ε β} {items : List α} {results : List β} :
    items.mapM f = .ok results ↔ List.Forall₂ (fun a b => f a = .ok b) items results := by
  induction items generalizing results with
  | nil =>
    rw [List.mapM_nil, List.forall₂_nil_left_iff]
    exact ⟨fun h => by cases h; rfl, fun h => h ▸ rfl⟩
  | cons a rest ih =>
    rw [List.mapM_cons, List.forall₂_cons_left_iff]
    constructor
    · intro h
      cases hf : f a with
      | error e =>
        rw [hf] at h
        cases h
      | ok b =>
        cases hrest : rest.mapM f with
        | error e =>
          rw [hf, hrest] at h
          cases h
        | ok others =>
          rw [hf, hrest] at h
          cases h
          exact ⟨b, others, rfl, ih.mp hrest, rfl⟩
    · rintro ⟨b, others, hb, hothers, rfl⟩
      rw [hb, ih.mpr hothers]
      rfl

namespace Shape

theorem decode_text_eq_ok_iff {j : Json} {v : String} :
    Shape.text.decode j = .ok v ↔ j = .str v := by
  rw [Shape.decode.eq_def]
  cases j <;> constructor <;> intro h <;> cases h <;> rfl

theorem decode_flag_eq_ok_iff {j : Json} {v : Bool} :
    Shape.flag.decode j = .ok v ↔ j = .bool v := by
  rw [Shape.decode.eq_def]
  cases j <;> constructor <;> intro h <;> cases h <;> rfl

theorem decode_any (j : Json) : Shape.any.decode j = .ok j := Shape.decode.eq_def _ _

/-- A natural number is decoded exactly when it is an integer of 64 bits without a sign. -/
theorem decodeNatural_eq_ok_iff {kind : NaturalKind} {n : Number} {v : Nat} :
    decodeNatural kind n = .ok v ↔ n = .int v ∧ v < 2 ^ 64 := by
  match n with
  | .double _ => simp only [decodeNatural, reduceCtorEq, false_and]
  | .int (.negSucc _) =>
    refine iff_of_false (fun h => by cases h) ?_
    rintro ⟨h, -⟩
    cases h
  | .int (.ofNat n) =>
    simp only [decodeNatural]
    split
    · rename_i hlt
      constructor
      · intro h
        cases h
        exact ⟨rfl, hlt⟩
      · rintro ⟨h, -⟩
        cases h
        rfl
    · rename_i hge
      refine iff_of_false (fun h => by cases h) ?_
      rintro ⟨h, hlt⟩
      cases h
      exact hge hlt

theorem decode_natural_eq_ok_iff {kind : NaturalKind} {j : Json} {v : Nat} :
    (Shape.natural kind).decode j = .ok v ↔ j = Json.nat v ∧ v < 2 ^ 64 := by
  rw [Shape.decode.eq_def]
  match j with
  | .num n =>
    rw [Json.nat, Json.num.injEq]
    exact decodeNatural_eq_ok_iff
  | .null | .bool _ | .str _ | .arr _ | .obj _ => simp only [Json.nat, reduceCtorEq, false_and]

theorem decode_list_eq_ok_iff {s : Shape} {j : Json} {vs : List s.Value} :
    (Shape.list s).decode j = .ok vs ↔
      ∃ items, j = .arr items ∧ List.Forall₂ (fun i v => s.decode i = .ok v) items vs := by
  rw [Shape.decode.eq_def]
  match j with
  | .arr items =>
    exact mapM_eq_ok_iff.trans ⟨fun h => ⟨items, rfl, h⟩, fun ⟨_, hj, h⟩ => by cases hj; exact h⟩
  | .null | .bool _ | .num _ | .str _ | .obj _ =>
    refine iff_of_false (fun h => by cases h) ?_
    rintro ⟨items, h, -⟩
    cases h

theorem decode_option_null (s : Shape) : (Shape.option s).decode .null = .ok none :=
  Shape.decode.eq_def _ _

theorem decode_option_eq_ok_iff {s : Shape} {j : Json} (hj : j ≠ .null) {v : Option s.Value} :
    (Shape.option s).decode j = .ok v ↔ ∃ w, v = some w ∧ s.decode j = .ok w := by
  have hdecode : (Shape.option s).decode j = (s.decode j).map some := by
    rw [Shape.decode.eq_def]
    cases j with
    | null => exact absurd rfl hj
    | _ =>
      dsimp only
      cases s.decode _ <;> rfl
  rw [hdecode]
  cases s.decode j with
  | error m => simp only [Except.map, reduceCtorEq, and_false, exists_false]
  | ok w =>
    constructor
    · intro h
      cases h
      exact ⟨w, rfl, rfl⟩
    · rintro ⟨_, rfl, h⟩
      cases h
      rfl

end Shape

/-! ## 2. The members of a field -/

namespace Field

/-- The names under which a field is read. -/
def spellings (f : Field) : List String := f.name :: f.aliases

theorem accepts_iff {f : Field} {key : String} : f.accepts key = true ↔ key ∈ f.spellings := by
  simp only [accepts, spellings, Bool.or_eq_true, beq_iff_eq, List.contains_eq_mem,
    decide_eq_true_eq, List.mem_cons]

/-- The members that are read into a field. -/
def membersOf (f : Field) (members : List (String × Json)) : List (String × Json) :=
  members.filter fun m => f.accepts m.1

theorem mem_membersOf {f : Field} {members : List (String × Json)} {m : String × Json} :
    m ∈ f.membersOf members ↔ m ∈ members ∧ m.1 ∈ f.spellings := by
  rw [membersOf, List.mem_filter, accepts_iff]

theorem membersOf_concat (f : Field) (members : List (String × Json)) (m : String × Json) :
    f.membersOf (members ++ [m]) =
      f.membersOf members ++ if f.accepts m.1 then [m] else [] := by
  simp only [membersOf, List.filter_append, List.filter_cons, List.filter_nil]

theorem membersOf_cons_own {f : Field} {m : String × Json} (h : m.1 ∈ f.spellings)
    (members : List (String × Json)) : f.membersOf (m :: members) = m :: f.membersOf members :=
  List.filter_cons_of_pos (p := fun m : String × Json => f.accepts m.1) (accepts_iff.mpr h)

theorem membersOf_cons_foreign {f : Field} {m : String × Json} (h : m.1 ∉ f.spellings)
    (members : List (String × Json)) : f.membersOf (m :: members) = f.membersOf members :=
  List.filter_cons_of_neg (p := fun m : String × Json => f.accepts m.1) (mt accepts_iff.mp h)

theorem membersOf_eq_nil {f : Field} {members : List (String × Json)}
    (h : ∀ m ∈ members, m.1 ∉ f.spellings) : f.membersOf members = [] := by
  refine List.filter_eq_nil_iff.mpr fun m hm hacc => ?_
  exact h m hm (accepts_iff.mp hacc)

variable {α : Type}

/-- What the members of a field put into its slot. -/
def Holds (decode : Json → Except Mismatch α) : List (String × Json) → Option α → Prop
  | [], slot => slot = none
  | [m], slot => ∃ v, decode m.2 = .ok v ∧ slot = some v
  | _ :: _ :: _, _ => False

/-- **The value that the members of a field stand for.** -/
def Stands (f : Field) (decode : Json → Except Mismatch α) : List (String × Json) → α → Prop
  | [], v => f.absent decode = .ok v
  | [m], v => decode m.2 = .ok v
  | _ :: _ :: _, _ => False

/-- One more member needs an empty slot. -/
theorem holds_concat {decode : Json → Except Mismatch α} {members : List (String × Json)}
    {m : String × Json} {slot : Option α} :
    Holds decode (members ++ [m]) slot ↔
      Holds decode members none ∧ ∃ v, decode m.2 = .ok v ∧ slot = some v := by
  match members with
  | [] => simp only [List.nil_append, Holds, true_and]
  | [n] => simp only [List.cons_append, List.nil_append, Holds, reduceCtorEq, and_false,
      exists_false, false_and]
  | _ :: _ :: _ => simp only [List.cons_append, Holds, false_and]

theorem stands_iff {f : Field} {decode : Json → Except Mismatch α}
    {members : List (String × Json)} {v : α} :
    f.Stands decode members v ↔
      ∃ slot, Holds decode members slot ∧ f.fromSlot decode slot = .ok v := by
  match members with
  | [] => simp only [Stands, Holds, exists_eq_left, fromSlot]
  | [m] =>
    constructor
    · exact fun h => ⟨some v, ⟨v, h, rfl⟩, rfl⟩
    · rintro ⟨-, ⟨w, hw, rfl⟩, hv⟩
      cases hv
      exact hw
  | _ :: _ :: _ => simp only [Stands, Holds, false_and, exists_false]

/-- At most one member is read into a field that stands for a value. -/
theorem Stands.length_le {f : Field} {decode : Json → Except Mismatch α}
    {members : List (String × Json)} {v : α} (h : f.Stands decode members v) :
    members.length ≤ 1 := by
  match members with
  | [] => exact Nat.zero_le _
  | [_] => exact Nat.le_refl _
  | _ :: _ :: _ => exact h.elim

/-- A single member has no order. -/
theorem Stands.perm {f : Field} {decode : Json → Except Mismatch α}
    {members members' : List (String × Json)} {v : α} (h : f.Stands decode members v)
    (hperm : members.Perm members') : f.Stands decode members' v := by
  match members with
  | [] => rwa [hperm.nil_eq] at h
  | [m] => rwa [List.singleton_perm.mp hperm] at h
  | _ :: _ :: _ => exact h.elim

end Field

/-! ## 3. The members of all fields -/

namespace Fields

/-- All names under which one of the fields is read. -/
def spellings : Fields → List String
  | nil => []
  | cons f _ rest => f.spellings ++ rest.spellings

/-- No two fields share a name. -/
def Distinct (fields : Fields) : Prop := fields.spellings.Nodup

instance (fields : Fields) : Decidable fields.Distinct :=
  inferInstanceAs (Decidable fields.spellings.Nodup)

theorem Distinct.rest {f : Field} {s : Shape} {rest : Fields} (h : (cons f s rest).Distinct) :
    rest.Distinct :=
  (List.nodup_append.mp h).2.1

theorem Distinct.apart {f : Field} {s : Shape} {rest : Fields} (h : (cons f s rest).Distinct)
    {key : String} (hkey : key ∈ f.spellings) : key ∉ rest.spellings :=
  fun hrest => (List.nodup_append.mp h).2.2 key hkey key hrest rfl

/-- What the members put into the slots of the fields. -/
def Holds (members : List (String × Json)) : (fields : Fields) → fields.Slots → Prop
  | nil, _ => True
  | cons f s rest, (slot, slots) =>
    Field.Holds (fun j => s.decode j) (f.membersOf members) slot ∧ rest.Holds members slots

/-- **The values that the members stand for**, field by field. -/
def Stand (members : List (String × Json)) : (fields : Fields) → fields.Values → Prop
  | nil, _ => True
  | cons f s rest, (v, vs) =>
    f.Stands (fun j => s.decode j) (f.membersOf members) v ∧ rest.Stand members vs

theorem holds_nil : (fields : Fields) → (slots : fields.Slots) →
    (fields.Holds [] slots ↔ slots = fields.noSlots)
  | nil, () => iff_of_true trivial rfl
  | cons f s rest, (slot, slots) => by
    simp only [Holds, noSlots, Field.membersOf, List.filter_nil, Field.Holds, holds_nil rest slots]
    exact Prod.mk.injEq slot slots none rest.noSlots ▸ Iff.rfl

/-- A member under a name of none of the fields changes nothing. -/
theorem holds_concat_foreign {members : List (String × Json)} {m : String × Json} :
    {fields : Fields} → {slots : fields.Slots} → m.1 ∉ fields.spellings →
    (fields.Holds (members ++ [m]) slots ↔ fields.Holds members slots)
  | nil, _, _ => Iff.rfl
  | cons f s rest, (slot, slots), h => by
    obtain ⟨hf, hrest⟩ := not_or.mp (mt List.mem_append.mpr h)
    have hacc : f.accepts m.1 = false :=
      Bool.eq_false_iff.mpr fun hacc => hf (Field.accepts_iff.mp hacc)
    simp only [Holds, Field.membersOf_concat, hacc, Bool.false_eq_true, if_false, List.append_nil,
      holds_concat_foreign hrest]

/-- **One more member is put into the slot of its field.** -/
theorem holds_concat {members : List (String × Json)} {m : String × Json} :
    {fields : Fields} → fields.Distinct → {slots' : fields.Slots} →
    (fields.Holds (members ++ [m]) slots' ↔
      ∃ slots, fields.Holds members slots ∧ fields.place m.1 m.2 slots = .ok slots')
  | nil, _, () => iff_of_true trivial ⟨(), trivial, rfl⟩
  | cons f s rest, hdis, (slot', slots') => by
    by_cases hacc : f.accepts m.1 = true
    · have hforeign : m.1 ∉ rest.spellings := hdis.apart (Field.accepts_iff.mp hacc)
      simp only [Holds, Field.membersOf_concat, hacc, if_true, Field.holds_concat,
        holds_concat_foreign hforeign]
      constructor
      · rintro ⟨⟨hnone, v, hv, rfl⟩, hrest⟩
        refine ⟨(none, slots'), ⟨hnone, hrest⟩, ?_⟩
        simp only [place, hacc, if_true, hv]
      · rintro ⟨⟨slot, slots⟩, ⟨hslot, hrest⟩, hplace⟩
        simp only [place, hacc, if_true] at hplace
        cases slot with
        | some v => cases hplace
        | none =>
          cases hv : s.decode m.2 with
          | error e =>
            rw [hv] at hplace
            cases hplace
          | ok v =>
            rw [hv] at hplace
            cases hplace
            exact ⟨⟨hslot, v, rfl, rfl⟩, hrest⟩
    · have hacc : f.accepts m.1 = false := Bool.eq_false_iff.mpr hacc
      simp only [Holds, Field.membersOf_concat, hacc, Bool.false_eq_true, if_false,
        List.append_nil, holds_concat hdis.rest]
      constructor
      · rintro ⟨hslot, slots, hrest, hplace⟩
        refine ⟨(slot', slots), ⟨hslot, hrest⟩, ?_⟩
        simp only [place, hacc, Bool.false_eq_true, if_false, hplace]
      · rintro ⟨⟨slot, slots⟩, ⟨hslot, hrest⟩, hplace⟩
        simp only [place, hacc, Bool.false_eq_true, if_false] at hplace
        cases hp : rest.place m.1 m.2 slots with
        | error e =>
          rw [hp] at hplace
          cases hplace
        | ok placed =>
          rw [hp] at hplace
          cases hplace
          exact ⟨hslot, slots, hrest, hp⟩

/-- All members, one after the other. -/
theorem foldlM_place_eq_ok_iff {fields : Fields} (hdis : fields.Distinct)
    (members : List (String × Json)) (slots : fields.Slots) :
    members.foldlM (fun slots m => fields.place m.1 m.2 slots) fields.noSlots = .ok slots ↔
      fields.Holds members slots := by
  induction members using List.reverseRecOn generalizing slots with
  | nil =>
    rw [holds_nil, List.foldlM_nil]
    exact ⟨fun h => by cases h; rfl, fun h => h ▸ rfl⟩
  | append_singleton members m ih =>
    rw [holds_concat hdis, List.foldlM_append]
    cases hfold : members.foldlM (fun slots m => fields.place m.1 m.2 slots) fields.noSlots with
    | error e =>
      constructor
      · intro h
        cases h
      · rintro ⟨before, hbefore, -⟩
        have hok := (ih before).mpr hbefore
        rw [hfold] at hok
        cases hok
    | ok before =>
      have hplace : (do
          let slots ← (.ok before : Except Mismatch fields.Slots)
          [m].foldlM (fun slots m => fields.place m.1 m.2 slots) slots) =
            fields.place m.1 m.2 before := by
        show [m].foldlM (fun slots m => fields.place m.1 m.2 slots) before = _
        rw [List.foldlM_cons]
        cases fields.place m.1 m.2 before <;> rfl
      rw [hplace]
      constructor
      · exact fun h => ⟨before, (ih before).mp hfold, h⟩
      · rintro ⟨slots', hslots', h⟩
        have hsame := (ih slots').mpr hslots'
        rw [hfold] at hsame
        cases hsame
        exact h

/-- Slots are filled with what their members stand for. -/
theorem stand_iff {members : List (String × Json)} :
    {fields : Fields} → {vs : fields.Values} →
    (fields.Stand members vs ↔
      ∃ slots, fields.Holds members slots ∧ fields.fill slots = .ok vs)
  | nil, () => iff_of_true trivial ⟨(), trivial, rfl⟩
  | cons f s rest, (v, vs) => by
    simp only [Stand, Field.stands_iff, @stand_iff members rest]
    constructor
    · rintro ⟨⟨slot, hslot, hv⟩, slots, hslots, hvs⟩
      refine ⟨(slot, slots), ⟨hslot, hslots⟩, ?_⟩
      simp only [fill, hv, hvs]
    · rintro ⟨⟨slot, slots⟩, ⟨hslot, hslots⟩, hfill⟩
      simp only [fill] at hfill
      cases hv : f.fromSlot (fun j => s.decode j) slot with
      | error e =>
        rw [hv] at hfill
        cases hfill
      | ok w =>
        rw [hv] at hfill
        cases hvs : rest.fill slots with
        | error e =>
          rw [hvs] at hfill
          cases hfill
        | ok ws =>
          rw [hvs] at hfill
          cases hfill
          exact ⟨⟨slot, hslot, hv⟩, slots, hslots, hvs⟩

/-! ## 4. Order and foreign members -/

/-- The order of the members has no influence on what they stand for. -/
theorem Stand.perm {members members' : List (String × Json)} (hperm : members.Perm members') :
    {fields : Fields} → {vs : fields.Values} → fields.Stand members vs → fields.Stand members' vs
  | nil, _, _ => trivial
  | cons _ _ _, (_, _), ⟨hv, hvs⟩ => ⟨hv.perm (hperm.filter _), Stand.perm hperm hvs⟩

/-- The fields have a field that is read under a name. -/
def knows (fields : Fields) (key : String) : Bool := fields.spellings.contains key

theorem place_foreign {key : String} (j : Json) : {fields : Fields} → fields.knows key = false →
    (slots : fields.Slots) → fields.place key j slots = .ok slots
  | nil, _, () => rfl
  | cons f s rest, h, (slot, slots) => by
    have hkey : key ∉ f.spellings ++ rest.spellings := fun hmem =>
      Bool.false_ne_true (h.symm.trans (List.contains_iff_mem.mpr hmem))
    obtain ⟨hf, hrest⟩ := not_or.mp (mt List.mem_append.mpr hkey)
    have hacc : f.accepts key = false :=
      Bool.eq_false_iff.mpr fun hacc => hf (Field.accepts_iff.mp hacc)
    have hknows : rest.knows key = false :=
      Bool.eq_false_iff.mpr fun hknows => hrest (List.contains_iff_mem.mp hknows)
    simp only [place, hacc, Bool.false_eq_true, if_false, place_foreign j hknows slots]

theorem foldlM_place_known {fields : Fields} (members : List (String × Json))
    (slots : fields.Slots) :
    members.foldlM (fun slots m => fields.place m.1 m.2 slots) slots =
      (members.filter fun m => fields.knows m.1).foldlM
        (fun slots m => fields.place m.1 m.2 slots) slots := by
  induction members generalizing slots with
  | nil => rfl
  | cons m members ih =>
    cases hm : fields.knows m.1 with
    | false =>
      rw [List.filter_cons_of_neg (p := fun m : String × Json => fields.knows m.1)
        (Bool.eq_false_iff.mp hm), List.foldlM_cons, place_foreign m.2 hm slots]
      exact ih slots
    | true =>
      rw [List.filter_cons_of_pos (p := fun m : String × Json => fields.knows m.1) hm,
        List.foldlM_cons, List.foldlM_cons]
      exact congrArg _ (funext ih)

/-! ## 5. Written and read again -/

/-- The names of the members of a record are those of its fields. -/
theorem mem_spellings_of_mem_members {key : String} {j : Json} : {fields : Fields} →
    {vs : fields.Values} → (key, j) ∈ fields.members vs → key ∈ fields.spellings
  | cons f s rest, (v, vs), h => by
    have hrest (hmem : (key, j) ∈ rest.members vs) : key ∈ (cons f s rest).spellings :=
      List.mem_append_right _ (mem_spellings_of_mem_members hmem)
    simp only [members] at h
    split at h
    · exact hrest h
    · rcases List.mem_cons.mp h with heq | hmem
      · cases heq
        exact List.mem_append_left _ List.mem_cons_self
      · exact hrest hmem

/-- The keys under which a record is written are different. -/
theorem nodup_keys_members : {fields : Fields} → fields.Distinct → (vs : fields.Values) →
    (Json.keys (fields.members vs)).Nodup
  | nil, _, _ => List.nodup_nil
  | cons f s rest, hdis, (v, vs) => by
    have ih := nodup_keys_members hdis.rest vs
    simp only [members]
    split
    · exact ih
    · refine List.nodup_cons.mpr ⟨fun hmem => ?_, ih⟩
      obtain ⟨⟨key, j⟩, hj, hkey⟩ := List.mem_map.mp hmem
      refine hdis.apart (List.mem_cons_self (a := f.name) (l := f.aliases)) ?_
      cases hkey
      exact mem_spellings_of_mem_members hj

/-- Each value can be read again from what it is written as, and where null is left out, from its
absence. -/
def Restored : (fields : Fields) → fields.Values → Prop
  | nil, _ => True
  | cons f s rest, (v, vs) =>
    s.decode (s.encode v) = .ok v ∧
      (f.omitNull = true → s.encode v = .null → f.absent (fun j => s.decode j) = .ok v) ∧
      rest.Restored vs

/-- A member under a name of none of the fields stands for nothing. -/
theorem stand_cons_foreign {members : List (String × Json)} {m : String × Json} :
    {fields : Fields} → {vs : fields.Values} → m.1 ∉ fields.spellings →
    (fields.Stand (m :: members) vs ↔ fields.Stand members vs)
  | nil, _, _ => Iff.rfl
  | cons f s rest, (v, vs), h => by
    obtain ⟨hf, hrest⟩ := not_or.mp (mt List.mem_append.mpr h)
    simp only [Stand, Field.membersOf_cons_foreign hf, stand_cons_foreign hrest]

/-- **What a record is written as stands for the record.** -/
theorem stand_members : {fields : Fields} → fields.Distinct → {vs : fields.Values} →
    fields.Restored vs → fields.Stand (fields.members vs) vs
  | nil, _, _, _ => trivial
  | cons f s rest, hdis, (v, vs), ⟨hv, hnull, hvs⟩ => by
    have hname : f.name ∈ f.spellings := List.mem_cons_self
    have hnone : f.membersOf (rest.members vs) = [] := by
      refine Field.membersOf_eq_nil fun m hm hmem => ?_
      exact hdis.apart hmem (mem_spellings_of_mem_members (j := m.2) hm)
    have ih : rest.Stand (rest.members vs) vs := stand_members hdis.rest hvs
    simp only [members]
    split
    · rename_i homit
      obtain ⟨homit, hjson⟩ := Bool.and_eq_true_iff.mp homit
      refine ⟨?_, ih⟩
      rw [hnone]
      exact hnull homit (beq_iff_eq.mp hjson)
    · refine ⟨?_, (stand_cons_foreign (hdis.apart hname)).mpr ih⟩
      rw [Field.membersOf_cons_own hname, hnone]
      exact hv

end Fields

/-! ## 6. Records -/

namespace Shape

theorem decode_obj (name : String) (fields : Fields) (members : List (String × Json)) :
    (Shape.record name fields).decode (.obj members) =
      match members.foldlM (fun slots m => fields.place m.1 m.2 slots) fields.noSlots with
      | .error m => .error m
      | .ok slots => fields.fill slots :=
  Shape.decode.eq_def _ _

/-- **A record decodes to the values for which its fields stand.** -/
theorem decode_obj_eq_ok_iff {name : String} {fields : Fields} (hdis : fields.Distinct)
    {members : List (String × Json)} {vs : fields.Values} :
    (Shape.record name fields).decode (.obj members) = .ok vs ↔ fields.Stand members vs := by
  rw [decode_obj, Fields.stand_iff]
  cases hfold : members.foldlM (fun slots m => fields.place m.1 m.2 slots) fields.noSlots with
  | error e =>
    refine iff_of_false (fun h => by cases h) ?_
    rintro ⟨slots, hslots, -⟩
    have hok := (Fields.foldlM_place_eq_ok_iff hdis members slots).mpr hslots
    rw [hfold] at hok
    cases hok
  | ok slots =>
    constructor
    · exact fun h => ⟨slots, (Fields.foldlM_place_eq_ok_iff hdis members slots).mp hfold, h⟩
    · rintro ⟨slots', hslots', h⟩
      have hsame := (Fields.foldlM_place_eq_ok_iff hdis members slots').mpr hslots'
      rw [hfold] at hsame
      cases hsame
      exact h

/-- **Members under other names have no influence**, also on what is wrong. -/
theorem decode_obj_known (name : String) (fields : Fields) (members : List (String × Json)) :
    (Shape.record name fields).decode (.obj members) =
      (Shape.record name fields).decode (.obj (members.filter fun m => fields.knows m.1)) := by
  rw [decode_obj, decode_obj, Fields.foldlM_place_known]

/-- What a record is written as decodes to the record. -/
theorem decode_object_members {name : String} {fields : Fields} (hdis : fields.Distinct)
    {vs : fields.Values} (h : fields.Restored vs) :
    (Shape.record name fields).decode (Json.object (fields.members vs)) = .ok vs := by
  refine (decode_obj_eq_ok_iff hdis).mpr ?_
  have hperm := Json.sortMembers_perm (Fields.nodup_keys_members hdis vs)
  exact (Fields.stand_members hdis h).perm hperm.symm

end Shape

/-! ## 7. Types of the library -/

theorem decode_eq_ok_iff {α : Type} [Shaped α] {j : Json} {a : α} :
    decode α j = .ok a ↔ (Shaped.shape α).decode j = .ok (Shaped.toValue a) := by
  rw [decode]
  cases (Shaped.shape α).decode j with
  | error m => simp only [reduceCtorEq]
  | ok v =>
    constructor
    · intro h
      cases h
      rw [Shaped.toValue_ofValue]
    · intro h
      cases h
      exact congrArg Except.ok (Shaped.ofValue_toValue a)

theorem exists_decode_iff {α : Type} [Shaped α] {j : Json} :
    (∃ a, decode α j = .ok a) ↔ ∃ v, (Shaped.shape α).decode j = .ok v := by
  constructor
  · rintro ⟨a, h⟩
    exact ⟨_, decode_eq_ok_iff.mp h⟩
  · rintro ⟨v, h⟩
    exact ⟨Shaped.ofValue v, decode_eq_ok_iff.mpr ((Shaped.toValue_ofValue v).symm ▸ h)⟩

end Workbench
