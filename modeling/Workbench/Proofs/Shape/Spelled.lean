import Workbench.Proofs.Json.Rereading
import Workbench.Proofs.Shape.Mirroring

/-!
# What a text is read as

A text is read in one pass, and not as a value that is decoded afterwards.  Both come to the same
where records are given as objects whose members are all known (`Shape.Expects`).

* `Shape.follows`: **every text of a value is read as what the value decodes to**, if the shape
  expects the value and it is not nested too deeply;
* `Shape.Denotes` is what it takes that a JSON value stands for a value and can be read from its
  texts, and `Shape.denotes_record` builds it up from the members of an object;
* `readText_of_spells` is the main statement for whole texts and types of the library.
-/

namespace Workbench

open Json (Blank Ends)

/-! ## 1. Values that a shape expects -/

mutual

/-- The shape is made of lists and records as the value is, and knows all its members.  What is kept
or decoded as a whole value has its own objects in order. -/
def Shape.Expects : Shape → Json → Prop
  | .text, _ | .natural _, _ | .flag, _ | .time, _ => True
  | .any, j | .object, j | .choice _, j => j.Sorted
  | .option s, j => j = .null ∨ s.Expects j
  | .list s, .arr items => ∀ i ∈ items, s.Expects i
  | .record _ fields, .obj members => ∀ m ∈ members, fields.Expects m.1 m.2
  | _, _ => False

/-- The member is that of a field whose shape expects the value. -/
def Fields.Expects : Fields → String → Json → Prop
  | .nil, _, _ => False
  | .cons f s rest, key, j => if f.accepts key = true then s.Expects j else rest.Expects key j

end

/-! ## 2. Scalars and whole values -/

namespace Shape

section Scalars

variable {α : Type} {isStart : Char → Bool} {expected : String}
  {decode : Json → Except Mismatch α} {gap rest : List Char} {v : α}

theorem readOne_of_readScalar {cs r : List Char} {c : Char} {j : Json}
    (hcs : Json.skipSpace cs = c :: r) (hstart : isStart c = true)
    (hread : Json.readScalar c r = .ok (j, rest)) (hdecode : decode j = .ok v) :
    readOne isStart expected decode cs = .ok (v, rest) := by
  simp only [readOne, hcs, hstart, if_true, hread, hdecode]

theorem readOne_string {t : String} (hgap : Blank gap) (hstart : isStart '"' = true)
    (hdecode : decode (.str t) = .ok v) :
    readOne isStart expected decode (gap ++ (Json.stringChars t ++ rest)) = .ok (v, rest) := by
  refine readOne_of_readScalar ?_ hstart (Json.readScalar_string t rest) hdecode
  rw [Json.skipSpace_blank hgap, Json.stringChars_append, Json.skipSpace_cons (by decide)]

theorem readOne_number {i : Int} (hgap : Blank gap) (hi : Json.IsWhole i) (hends : Ends rest)
    (hdecode : decode (.num (.int i)) = .ok v) :
    readOne startsNumber expected decode (gap ++ ((Number.int i).text.toList ++ rest)) =
      .ok (v, rest) := by
  obtain ⟨c, more, htext, hc⟩ := Json.head_number i
  have hstart : startsNumber c = true ∧ Json.isSpace c = false := by
    rcases hc with hdigit | rfl
    · exact ⟨by simp only [startsNumber, hdigit, Bool.or_true], (Json.digit_is_no_mark hdigit).1⟩
    · exact ⟨by decide, by decide⟩
  have htext' : (Number.int i).text.toList ++ rest = c :: (more ++ rest) := by
    rw [htext, List.cons_append]
  refine readOne_of_readScalar ?_ hstart.1 (Json.readScalar_number hi hends htext') hdecode
  rw [Json.skipSpace_blank hgap, htext', Json.skipSpace_cons hstart.2]

theorem readOne_flag {b : Bool} (hgap : Blank gap) (hdecode : decode (.bool b) = .ok v) :
    readOne (fun c => c == 't' || c == 'f') expected decode
      (gap ++ ((if b then "true" else "false").toList ++ rest)) = .ok (v, rest) := by
  cases b with
  | true =>
    refine readOne_of_readScalar ?_ (by decide) (Json.readScalar_true rest) hdecode
    rw [Json.skipSpace_blank hgap]
    rfl
  | false =>
    refine readOne_of_readScalar ?_ (by decide) (Json.readScalar_false rest) hdecode
    rw [Json.skipSpace_blank hgap]
    rfl

end Scalars

section Whole

variable {depth : Nat} {j : Json} {gap cs rest : List Char}

theorem readValue_of_spells (hsorted : j.Sorted) (hcs : j.Spells cs) (hdepth : j.depth ≤ depth)
    (hgap : Blank gap) (hends : Ends rest) :
    Json.readValue depth (gap ++ (cs ++ rest)) = .ok (j, rest) := by
  refine Json.readValueFrom_spells j hsorted hcs hdepth ?_ hends ?_
  · simp only [List.length_append]
    omega
  · rw [Json.skipSpace_blank hgap, Json.skipSpace_spells hcs]

theorem readWhole_of_spells {α : Type} {decode : Json → Except Mismatch α} {v : α}
    (hsorted : j.Sorted) (hdecode : decode j = .ok v) (hcs : j.Spells cs)
    (hdepth : j.depth ≤ depth) (hgap : Blank gap) (hends : Ends rest) :
    readWhole depth decode (gap ++ (cs ++ rest)) = .ok (v, rest) := by
  simp only [readWhole, readValue_of_spells hsorted hcs hdepth hgap hends, hdecode]

end Whole

/-! ## 3. Lists and objects -/

/-- Whatever text a value of the shape has, behind any blanks, it is read as what the value decodes
to. -/
def Follows (s : Shape) (depth : Nat) : Prop :=
  ∀ {j : Json} {v : s.Value} {gap cs rest : List Char}, s.Expects j → s.decode j = .ok v →
    j.Spells cs → j.depth ≤ depth → Blank gap → Ends rest →
    s.read depth (gap ++ (cs ++ rest)) = .ok (v, rest)

end Shape

/-- Whatever text a member has, it is read into the slot that it is put into. -/
def Fields.Follow (fields : Fields) (depth : Nat) : Prop :=
  ∀ {key : String} {j : Json} {slots slots' : fields.Slots} {gap cs rest : List Char},
    fields.Expects key j → fields.place key j slots = .ok slots' → j.Spells cs →
    j.depth ≤ depth → Blank gap → Ends rest →
    fields.readMember depth key (':' :: (gap ++ (cs ++ rest))) slots = .ok (slots', rest)

namespace Shape

/-- **The items of a list are read one by one.** -/
theorem readItems_of_spells {s : Shape} {depth : Nat} (hs : s.Follows depth)
    {items : List Json} : ∀ {vs acc : List s.Value} {first : Bool} {cs gap rest : List Char}
      {n : Nat}, (∀ i ∈ items, s.Expects i) →
      List.Forall₂ (fun i v => s.decode i = .ok v) items vs → Json.SpellsItems items cs →
      Json.depthItems items ≤ depth → Blank gap → items.length < n →
      readItems (fun cs => s.read depth cs) n first acc
          (Json.lead (first || items.isEmpty) ++ (cs ++ (gap ++ ']' :: rest))) =
        .ok (acc.reverse ++ vs, ']' :: rest) := by
  induction items with
  | nil =>
    intro vs acc first cs gap rest n _ hvs hcs _ hgap hn
    obtain ⟨n, rfl⟩ := Nat.exists_eq_add_one.mpr (Nat.zero_lt_of_lt hn)
    cases hvs
    obtain rfl : cs = [] := hcs
    have hend : Json.nextItem first (gap ++ ']' :: rest) = .ok (false, ']' :: rest) :=
      Json.nextItem_end first (by rw [Json.skipSpace_blank hgap, Json.skipSpace_cons (by decide)])
    simp only [List.isEmpty_nil, Bool.or_true, Json.lead, if_true, List.nil_append,
      List.append_nil, readItems, hend]
  | cons j items ih =>
    intro vs acc first cs gap rest n hexp hvs hcs hdepth hgap hn
    obtain ⟨n, rfl⟩ := Nat.exists_eq_add_one.mpr (Nat.zero_lt_of_lt hn)
    obtain ⟨v, others, hv, htail, rfl⟩ := List.forall₂_cons_left_iff.mp hvs
    obtain ⟨before, value, more, hbefore, hvalue, hmore, rfl⟩ := hcs
    obtain ⟨hfirst, hothers⟩ := Nat.max_le.mp hdepth
    -- what stands behind the first item
    let behind := Json.lead items.isEmpty ++ (more ++ (gap ++ ']' :: rest))
    have hends : Ends behind :=
      Json.ends_behind (by rintro rfl; exact hmore) hgap (Json.ends_bracket rest)
    have hread : s.read depth (value ++ behind) = .ok (v, behind) :=
      hs (hexp j List.mem_cons_self) hv hvalue hfirst Json.blank_nil hends
    have hnext : Json.nextItem first (Json.lead first ++ (before ++ (value ++ behind))) =
        .ok (true, value ++ behind) := by
      obtain ⟨c, r, rfl, hspace, hend, -⟩ := Json.head_of_spells hvalue
      exact Json.nextItem_item first hbefore hspace hend
    have htext : Json.lead (first || (j :: items).isEmpty) ++
        (before ++ (value ++ (Json.lead items.isEmpty ++ more)) ++ (gap ++ ']' :: rest)) =
        Json.lead first ++ (before ++ (value ++ behind)) := by
      simp only [List.isEmpty_cons, Bool.or_false, behind, List.append_assoc]
    rw [htext, readItems]
    simp only [hnext, hread]
    have hrest := @ih others (v :: acc) false more gap rest n
      (fun i hi => hexp i (List.mem_cons_of_mem _ hi)) htail hmore hothers hgap
      (Nat.lt_of_succ_lt_succ hn)
    rw [Bool.false_or] at hrest
    rw [hrest, List.reverse_cons, List.append_assoc]
    rfl

/-- **The members of an object are read one by one.** -/
theorem readMembers_of_spells {fields : Fields} {depth : Nat} (hfields : fields.Follow depth)
    {members : List (String × Json)} : ∀ {slots slots' : fields.Slots} {first : Bool}
      {cs gap rest : List Char} {n : Nat}, (∀ m ∈ members, fields.Expects m.1 m.2) →
      members.foldlM (fun slots m => fields.place m.1 m.2 slots) slots = .ok slots' →
      Json.SpellsMembers members cs → Json.depthMembers members ≤ depth → Blank gap →
      members.length < n →
      readMembers (fun key cs slots => fields.readMember depth key cs slots) n first slots
          (Json.lead (first || members.isEmpty) ++ (cs ++ (gap ++ '\x7d' :: rest))) =
        .ok (slots', '\x7d' :: rest) := by
  induction members with
  | nil =>
    intro slots slots' first cs gap rest n _ hplace hcs _ hgap hn
    obtain ⟨n, rfl⟩ := Nat.exists_eq_add_one.mpr (Nat.zero_lt_of_lt hn)
    cases hplace
    obtain rfl : cs = [] := hcs
    have hend : Json.nextKey first (gap ++ '\x7d' :: rest) = .ok (none, '\x7d' :: rest) :=
      Json.nextKey_end first (by rw [Json.skipSpace_blank hgap, Json.skipSpace_cons (by decide)])
    simp only [List.isEmpty_nil, Bool.or_true, Json.lead, if_true, List.nil_append, readMembers,
      hend]
  | cons m members ih =>
    intro slots slots' first cs gap rest n hexp hplace hcs hdepth hgap hn
    obtain ⟨n, rfl⟩ := Nat.exists_eq_add_one.mpr (Nat.zero_lt_of_lt hn)
    obtain ⟨key, j⟩ := m
    obtain ⟨before, before', value, more, hbefore, hbefore', hvalue, hmore, rfl⟩ := hcs
    obtain ⟨hfirst, hothers⟩ := Nat.max_le.mp hdepth
    rw [List.foldlM_cons] at hplace
    cases hput : fields.place key j slots with
    | error m =>
      rw [hput] at hplace
      cases hplace
    | ok slots₁ =>
      rw [hput] at hplace
      -- what stands behind the first member
      let behind := Json.lead members.isEmpty ++ (more ++ (gap ++ '\x7d' :: rest))
      have hends : Ends behind :=
        Json.ends_behind (by rintro rfl; exact hmore) hgap (Json.ends_brace rest)
      have hread : fields.readMember depth key (':' :: (before' ++ (value ++ behind))) slots =
          .ok (slots₁, behind) :=
        hfields (hexp (key, j) List.mem_cons_self) hput hvalue hfirst hbefore' hends
      have hnext : Json.nextKey first (Json.lead first ++ (before ++ (Json.stringChars key ++
          ':' :: (before' ++ (value ++ behind))))) =
          .ok (some key, ':' :: (before' ++ (value ++ behind))) :=
        Json.nextKey_key first hbefore key _
      have htext : Json.lead (first || ((key, j) :: members).isEmpty) ++
          (before ++ (Json.stringChars key ++ ':' :: (before' ++ (value ++
            (Json.lead members.isEmpty ++ more)))) ++ (gap ++ '\x7d' :: rest)) =
          Json.lead first ++ (before ++ (Json.stringChars key ++
            ':' :: (before' ++ (value ++ behind)))) := by
        simp only [List.isEmpty_cons, Bool.or_false, behind, List.append_assoc, List.cons_append]
      rw [htext, readMembers]
      simp only [hnext, hread]
      have hrest := @ih slots₁ slots' false more gap rest n
        (fun m hm => hexp m (List.mem_cons_of_mem _ hm)) hplace hmore hothers hgap
        (Nat.lt_of_succ_lt_succ hn)
      rwa [Bool.false_or] at hrest

end Shape

/-! ## 4. All shapes -/

mutual

/-- **Every text of a value is read as what the value decodes to.** -/
theorem Shape.follows : (s : Shape) → (depth : Nat) → s.Follows depth
  | .text, depth, j, v, gap, cs, rest, _, hdecode, hcs, _, hgap, _ => by
    obtain rfl := Shape.decode_text_eq_ok_iff.mp hdecode
    obtain rfl : cs = Json.stringChars v := hcs
    rw [Shape.read.eq_def]
    exact Shape.readOne_string hgap (by decide) hdecode
  | .natural kind, depth, j, v, gap, cs, rest, _, hdecode, hcs, _, hgap, hends => by
    obtain ⟨rfl, -⟩ := Shape.decode_natural_eq_ok_iff.mp hdecode
    obtain ⟨hi, rfl⟩ := hcs
    rw [Shape.read.eq_def]
    exact Shape.readOne_number hgap hi hends hdecode
  | .flag, depth, j, v, gap, cs, rest, _, hdecode, hcs, _, hgap, _ => by
    obtain rfl := Shape.decode_flag_eq_ok_iff.mp hdecode
    cases hcs
    rw [Shape.read.eq_def]
    exact Shape.readOne_flag hgap hdecode
  | .time, depth, j, v, gap, cs, rest, _, hdecode, hcs, _, hgap, _ => by
    cases j with
    | str t =>
      obtain rfl : cs = Json.stringChars t := hcs
      rw [Shape.read.eq_def]
      exact Shape.readOne_string hgap (by decide) hdecode
    | _ =>
      rw [Shape.decode.eq_def] at hdecode
      cases hdecode
  | .any, depth, j, v, gap, cs, rest, hexp, hdecode, hcs, hdepth, hgap, hends => by
    rw [Shape.decode_any] at hdecode
    cases hdecode
    rw [Shape.read.eq_def]
    exact Shape.readValue_of_spells hexp hcs hdepth hgap hends
  | .object, depth, j, v, gap, cs, rest, hexp, hdecode, hcs, hdepth, hgap, hends => by
    rw [Shape.read.eq_def]
    exact Shape.readWhole_of_spells hexp hdecode hcs hdepth hgap hends
  | .choice variants, depth, j, v, gap, cs, rest, hexp, hdecode, hcs, hdepth, hgap, hends => by
    rw [Shape.read.eq_def]
    exact Shape.readWhole_of_spells hexp hdecode hcs hdepth hgap hends
  | .option s, depth, j, v, gap, cs, rest, hexp, hdecode, hcs, hdepth, hgap, hends => by
    have hskip : Json.skipSpace (gap ++ (cs ++ rest)) = cs ++ rest := by
      rw [Json.skipSpace_blank hgap, Json.skipSpace_spells hcs]
    by_cases hj : j = .null
    · subst hj
      rw [Shape.decode_option_null] at hdecode
      cases hdecode
      obtain rfl : cs = "null".toList := hcs
      have hnull : Json.skipSpace (gap ++ ("null".toList ++ rest)) =
          'n' :: ("ull".toList ++ rest) := hskip
      exact Shape.read_option_eq_ok_iff.mpr
        (Or.inl ⟨rfl, _, hnull, Json.readWord_append "ull".toList rest⟩)
    · obtain ⟨w, rfl, hw⟩ := (Shape.decode_option_eq_ok_iff hj).mp hdecode
      have hread := Shape.follows s depth (hexp.resolve_left hj) hw hcs hdepth Json.blank_nil hends
      obtain ⟨c, r, hhead, -, -, hn⟩ := Json.head_of_spells hcs
      refine Shape.read_option_of_read (c := c) (r := r ++ rest) ?_ (fun hc => hj (hn hc)) ?_
      · rw [hskip, hhead, List.cons_append]
      · rw [hskip]
        exact hread
  | .list s, depth, .arr items, vs, gap, cs, rest, hexp, hdecode, hcs, hdepth, hgap, _ => by
    obtain ⟨items', hitems', hvs⟩ := Shape.decode_list_eq_ok_iff.mp hdecode
    cases hitems'
    obtain ⟨inside, gap', hinside, hgap', rfl⟩ := hcs
    obtain ⟨depth, rfl, hinner⟩ := Json.exists_level hdepth
    have hskip : Json.skipSpace (gap ++ ('[' :: (inside ++ (gap' ++ [']'])) ++ rest)) =
        '[' :: (inside ++ (gap' ++ ']' :: rest)) := by
      rw [Json.skipSpace_blank hgap, List.cons_append, Json.skipSpace_cons (by decide)]
      simp only [List.append_assoc, List.cons_append, List.nil_append]
    have hsteps : items.length < (inside ++ (gap' ++ ']' :: rest)).length + 1 := by
      have := Json.length_le_of_spellsItems hinside
      rw [List.length_append]
      omega
    have hread : Shape.readItems (fun cs => s.read depth cs)
        ((inside ++ (gap' ++ ']' :: rest)).length + 1) true [] (inside ++ (gap' ++ ']' :: rest)) =
          .ok (vs, ']' :: rest) :=
      Shape.readItems_of_spells (Shape.follows s depth) hexp hvs hinside hinner hgap' hsteps
    rw [Shape.read.eq_def]
    dsimp only
    rw [hskip]
    simp only [beq_self_eq_true, if_true, hread, Json.endList_bracket]
  | .record name fields, depth, .obj members, vs, gap, cs, rest, hexp, hdecode, hcs, hdepth, hgap,
      _ => by
    obtain ⟨inside, gap', hinside, hgap', rfl⟩ := hcs
    obtain ⟨depth, rfl, hinner⟩ := Json.exists_level hdepth
    have hskip : Json.skipSpace (gap ++ ('\x7b' :: (inside ++ (gap' ++ ['\x7d'])) ++ rest)) =
        '\x7b' :: (inside ++ (gap' ++ '\x7d' :: rest)) := by
      rw [Json.skipSpace_blank hgap, List.cons_append, Json.skipSpace_cons (by decide)]
      simp only [List.append_assoc, List.cons_append, List.nil_append]
    have hsteps : members.length < (inside ++ (gap' ++ '\x7d' :: rest)).length + 1 := by
      have := Json.length_le_of_spellsMembers hinside
      rw [List.length_append]
      omega
    rw [Shape.decode_obj] at hdecode
    split at hdecode
    · cases hdecode
    · rename_i slots hslots
      have hread : Shape.readMembers (fun key cs slots => fields.readMember depth key cs slots)
          ((inside ++ (gap' ++ '\x7d' :: rest)).length + 1) true fields.noSlots
          (inside ++ (gap' ++ '\x7d' :: rest)) = .ok (slots, '\x7d' :: rest) :=
        Shape.readMembers_of_spells (Fields.follow fields depth) hexp hslots hinside hinner hgap'
          hsteps
      rw [Shape.read.eq_def]
      dsimp only
      rw [hskip]
      simp only [beq_self_eq_true, if_true, hread, hdecode, Json.endObject_brace]

theorem Fields.follow : (fields : Fields) → (depth : Nat) → fields.Follow depth
  | .cons f s others, depth, key, j, (slot, slots), (slot', slots'), gap, cs, rest, hexp, hplace,
      hcs, hdepth, hgap, hends => by
    simp only [Fields.place] at hplace
    simp only [Fields.Expects] at hexp
    simp only [Fields.readMember]
    by_cases hacc : f.accepts key = true
    · rw [if_pos hacc] at hplace hexp ⊢
      cases slot with
      | some _ => cases hplace
      | none =>
        dsimp only at hplace ⊢
        split at hplace <;> cases hplace
        have hread := Shape.follows s depth hexp ‹_› hcs hdepth hgap hends
        simp only [Json.readColon_colon, hread]
    · rw [if_neg hacc] at hplace hexp ⊢
      split at hplace <;> cases hplace
      have hread := Fields.follow others depth hexp ‹_› hcs hdepth hgap hends
      simp only [hread]

end

/-! ## 5. Values that are read from their texts -/

/-- The JSON value stands for the value, and whatever is written for it can be read: it has no more
containers around one another than are given. -/
structure Shape.Denotes (s : Shape) (j : Json) (v : s.Value) (levels : Nat) : Prop where
  expects : s.Expects j
  decode : s.decode j = .ok v
  whole : j.Whole
  depth : j.depth ≤ levels
  notNull : j ≠ .null

namespace Shape

theorem denotes_natural (kind : NaturalKind) {n : Nat} (hn : n < 2 ^ 64) :
    (Shape.natural kind).Denotes (Json.nat n) n 0 where
  expects := trivial
  decode := decode_natural_eq_ok_iff.mpr ⟨rfl, hn⟩
  whole := by
    show Json.IsWhole n
    exact ⟨by omega, by omega⟩
  depth := Nat.le_refl 0
  notNull := nofun

theorem denotes_text (t : String) : Shape.text.Denotes (.str t) t 0 where
  expects := trivial
  decode := decode_text_eq_ok_iff.mpr rfl
  whole := trivial
  depth := Nat.le_refl 0
  notNull := nofun

theorem Denotes.mono {s : Shape} {j : Json} {v : s.Value} {m n : Nat} (h : s.Denotes j v m)
    (hmn : m ≤ n) : s.Denotes j v n :=
  { h with depth := Nat.le_trans h.depth hmn }

/-- What stands for a value stands for it where it may be null. -/
theorem Denotes.option {s : Shape} {j : Json} {v : s.Value} {levels : Nat}
    (h : s.Denotes j v levels) : (Shape.option s).Denotes j (some v) levels :=
  { h with
    expects := Or.inr h.expects
    decode := (decode_option_eq_ok_iff h.notNull).mpr ⟨v, rfl, h.decode⟩ }

end Shape

/-- The member is that of a field, and stands for a value of it. -/
structure Fields.Admits (fields : Fields) (levels : Nat) (m : String × Json) : Prop where
  expects : fields.Expects m.1 m.2
  whole : m.2.Whole
  depth : m.2.depth ≤ levels

/-- A value of the first field. -/
theorem Fields.admits_own {f : Field} {s : Shape} {rest : Fields} {key : String} {j : Json}
    {v : s.Value} {levels : Nat} (hkey : f.accepts key = true) (h : s.Denotes j v levels) :
    (Fields.cons f s rest).Admits levels (key, j) where
  expects := by
    simp only [Fields.Expects, hkey, if_true]
    exact h.expects
  whole := h.whole
  depth := h.depth

/-- A value of a later field. -/
theorem Fields.Admits.later {f : Field} {s : Shape} {rest : Fields} {key : String} {j : Json}
    {levels : Nat} (h : rest.Admits levels (key, j)) (hkey : f.accepts key = false) :
    (Fields.cons f s rest).Admits levels (key, j) where
  expects := by
    simp only [Fields.Expects, hkey, Bool.false_eq_true, if_false]
    exact h.expects
  whole := h.whole
  depth := h.depth

/-- **An object stands for a record** if its members stand for the values of the fields. -/
theorem Shape.denotes_record {name : String} {fields : Fields} (hdis : fields.Distinct)
    {members : List (String × Json)} {vs : fields.Values} {levels : Nat}
    (hstand : fields.Stand members vs) (hadmits : ∀ m ∈ members, fields.Admits levels m) :
    (Shape.record name fields).Denotes (.obj members) vs (levels + 1) where
  expects := fun m hm => (hadmits m hm).expects
  decode := (decode_obj_eq_ok_iff hdis).mpr hstand
  whole := Json.wholeMembers_of_forall fun m hm => (hadmits m hm).whole
  depth := Nat.succ_le_succ (Json.depthMembers_le_of_forall fun m hm => (hadmits m hm).depth)
  notNull := nofun

/-- What each value of a record is written as stands for it. -/
def Fields.Written (levels : Nat) : (fields : Fields) → fields.Values → Prop
  | .nil, _ => True
  | .cons _ s rest, (v, vs) => s.Denotes (s.encode v) v levels ∧ rest.Written levels vs

namespace Fields

theorem Written.restored {levels : Nat} : {fields : Fields} → {vs : fields.Values} →
    fields.Written levels vs → fields.Restored vs
  | nil, _, _ => trivial
  | cons _ _ _, (_, _), ⟨hv, hvs⟩ =>
    ⟨hv.decode, fun _ hnull => absurd hnull hv.notNull, hvs.restored⟩

theorem Written.admits {levels : Nat} : {fields : Fields} → fields.Distinct →
    {vs : fields.Values} → fields.Written levels vs → {m : String × Json} →
    m ∈ fields.members vs → fields.Admits levels m
  | cons f s rest, hdis, (v, vs), ⟨hv, hvs⟩, m, hm => by
    obtain ⟨key, j⟩ := m
    have hlater (hm : (key, j) ∈ rest.members vs) : (cons f s rest).Admits levels (key, j) := by
      refine (hvs.admits hdis.rest hm).later (Bool.eq_false_iff.mpr fun hacc => ?_)
      exact hdis.apart (Field.accepts_iff.mp hacc) (mem_spellings_of_mem_members hm)
    simp only [members] at hm
    split at hm
    · exact hlater hm
    · rcases List.mem_cons.mp hm with heq | hm
      · cases heq
        exact admits_own (Field.accepts_iff.mpr List.mem_cons_self) hv
      · exact hlater hm

end Fields

/-- **So does an object with the members that a record is written as**, in whatever order. -/
theorem Shape.denotes_members {name : String} {fields : Fields} (hdis : fields.Distinct)
    {vs : fields.Values} {levels : Nat} (h : fields.Written levels vs)
    {members : List (String × Json)} (hperm : members.Perm (fields.members vs)) :
    (Shape.record name fields).Denotes (.obj members) vs (levels + 1) :=
  denotes_record hdis ((Fields.stand_members hdis h.restored).perm hperm.symm)
    fun _ hm => h.admits hdis (hperm.mem_iff.mp hm)

/-- **A text of what stands for a value is read as the value.** -/
theorem readText_of_spells {α : Type} [Shaped α] {j : Json} {a : α}
    (h : (Shaped.shape α).Denotes j (Shaped.toValue a) Json.maxDepth) {text : String}
    (htext : j.Spells text.toList) : readText α text = .ok a := by
  have hread := Shape.follows (Shaped.shape α) Json.maxDepth h.expects h.decode htext h.depth
    Json.blank_nil (show Ends [] from trivial)
  rw [List.nil_append, List.append_nil] at hread
  simp only [readText, hread, Shaped.ofValue_toValue]
  rfl

end Workbench
