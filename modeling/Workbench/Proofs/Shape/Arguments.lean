import Workbench.Proofs.Shape.Schemas

/-!
# Members and the schema of their record

`Conforms` says which members the schema of a record asks for, given no more of the record than the
names of its fields.

* `conforms_iff`: **members stand for the values of a record exactly when they conform to its
  schema**;
* `Fields.carry_of_stand`: the values are those of the members, and an option whose member is absent
  or null is nothing.
-/

namespace Workbench

/-! ## 1. Conformity -/

namespace Schema

/-- The schema of a property. -/
def property? (schema : Json) (name : String) : Option Json :=
  (schema.get? "properties").bind fun properties => properties.get? name

/-- The names of the properties that must be there. -/
def required (schema : Json) : List String :=
  match schema.get? "required" with
  | some (.arr names) => names.filterMap Json.str?
  | _ => []

end Schema

/-- **Members conform to the schema of a record** with the given fields. -/
structure Conforms (fields : List Field) (schema : Json) (members : List (String × Json)) :
    Prop where
  /-- At most one of the names of a field is there, and that once. -/
  once : ∀ f ∈ fields, (f.membersOf members).length ≤ 1
  /-- The value under it is admitted by the property that bears the name of the field. -/
  admitted : ∀ f ∈ fields, ∀ m ∈ f.membersOf members,
    ∃ property, Schema.property? schema f.name = some property ∧
      Schema.admits property m.2 = true
  /-- Whatever is required is there under one of the names of its field. -/
  complete : ∀ name ∈ Schema.required schema,
    ∃ f ∈ fields, f.name = name ∧ f.membersOf members ≠ []

/-- A field of arguments: either it must be there and is never null, or it may be left out. -/
def Field.isArgument (f : Field) (s : Shape) : Bool :=
  match f.presence with
  | .required => s.isItem
  | .optional => s.isOptional
  | .default _ => false

/-- All fields are fields of arguments. -/
def Fields.areArguments : Fields → Bool
  | .nil => true
  | .cons f s rest => f.isArgument s && rest.areArguments

/-! ## 2. One field -/

/-- What the schema of a record says of one of its fields. -/
def Field.property (f : Field) (s : Shape) : Json :=
  Json.object (match f.description with
    | some d => ("description", Json.str d) :: s.schemaMembers
    | none => s.schemaMembers)

theorem Field.cases_of_isArgument {f : Field} {s : Shape} (h : f.isArgument s = true) :
    f.presence = .required ∧ s.isItem = true ∨ f.presence = .optional ∧ s.isOptional = true := by
  unfold isArgument at h
  split at h
  · exact .inl ⟨‹_›, h⟩
  · exact .inr ⟨‹_›, h⟩
  · cases h

/-- The schema of an argument has different members, and no description of its own. -/
theorem Field.keys_of_isArgument {f : Field} {s : Shape} (h : f.isArgument s = true) :
    (Json.keys s.schemaMembers).Nodup ∧ "description" ∉ Json.keys s.schemaMembers := by
  rcases cases_of_isArgument h with ⟨-, hs⟩ | ⟨-, hs⟩
  · exact Shape.keys_of_isItem hs
  · rcases Shape.cases_of_isOptional hs with rfl | ⟨t, rfl, ht⟩
    · exact ⟨List.nodup_nil, List.not_mem_nil⟩
    · rw [Shape.schemaMembers, Shape.keys_orNull]
      exact Shape.keys_of_isItem ht

/-- The description changes nothing in what is admitted. -/
theorem Field.admits_property {f : Field} {s : Shape} (h : f.isArgument s = true) (j : Json) :
    Schema.admits (f.property s) j = Schema.admits s.schema j := by
  obtain ⟨hkeys, hdescription⟩ := keys_of_isArgument h
  refine Schema.admits_congr (fun key hkey => ?_) j
  rw [Shape.schema, Json.get?_object hkeys, property]
  cases hd : f.description with
  | none => exact Json.get?_object hkeys key
  | some d =>
    have hne : "description" ≠ key := by
      rintro rfl
      exact absurd hkey (by decide)
    have hnodup : (Json.keys (("description", Json.str d) :: s.schemaMembers)).Nodup :=
      List.nodup_cons.mpr ⟨hdescription, hkeys⟩
    refine (Json.get?_object hnodup key).trans ?_
    rw [Json.lookup, if_neg (mt beq_iff_eq.mp hne)]

/-- **An argument stands for a value exactly when its property admits it**, and it is there unless
it may be left out. -/
theorem Field.exists_stands_iff {f : Field} {s : Shape} (h : f.isArgument s = true)
    (members : List (String × Json)) :
    (∃ v, f.Stands (fun j => s.decode j) members v) ↔
      members.length ≤ 1 ∧ (∀ m ∈ members, Schema.admits (f.property s) m.2 = true) ∧
        (f.presence = .required → members ≠ []) := by
  have hdecodes (j : Json) :
      (∃ v, s.decode j = .ok v) ↔ Schema.admits (f.property s) j = true := by
    rw [admits_property h]
    rcases cases_of_isArgument h with ⟨-, hs⟩ | ⟨-, hs⟩
    · exact Shape.decodes_iff_admits_of_isItem hs j
    · exact Shape.decodes_iff_admits_of_isOptional hs j
  rcases members with _ | ⟨m, _ | ⟨_, _⟩⟩
  case cons.nil =>
    simp only [Stands, hdecodes, List.length_singleton, Nat.le_refl, List.mem_singleton,
      forall_eq, true_and, ne_eq, List.cons_ne_nil, not_false_eq_true, implies_true, and_true]
  case cons.cons =>
    simp only [Stands, exists_false, List.length_cons, false_iff, not_and]
    omega
  case nil =>
    simp only [Stands, List.length_nil, Nat.zero_le, List.not_mem_nil, false_implies, implies_true,
      ne_eq, not_true_eq_false, imp_false, true_and]
    rcases cases_of_isArgument h with ⟨hp, -⟩ | ⟨hp, hs⟩
    · refine iff_of_false ?_ (not_not_intro hp)
      rintro ⟨v, hv⟩
      rw [absent, hp] at hv
      cases hv
    · refine iff_of_true ?_ (by rw [hp]; exact Presence.noConfusion)
      obtain ⟨t, rfl⟩ : ∃ t, s = .option t := by
        rcases Shape.cases_of_isOptional hs with hs | ⟨t, hs, -⟩
        · exact ⟨_, hs⟩
        · exact ⟨t, hs⟩
      refine ⟨none, ?_⟩
      rw [absent, hp]
      exact Shape.decode_option_null t

/-! ## 3. All fields -/

namespace Fields

/-- The fields with their shapes. -/
def toList : Fields → List (Field × Shape)
  | nil => []
  | cons f s rest => (f, s) :: rest.toList

/-- The fields without their shapes. -/
def list (fields : Fields) : List Field := fields.toList.map Prod.fst

theorem isArgument_of_mem : {fields : Fields} → fields.areArguments = true →
    {p : Field × Shape} → p ∈ fields.toList → p.1.isArgument p.2 = true
  | cons f s rest, h, p, hp => by
    obtain ⟨hf, hrest⟩ := Bool.and_eq_true_iff.mp h
    rcases List.mem_cons.mp hp with rfl | hp
    · exact hf
    · exact isArgument_of_mem hrest hp

theorem spellings_of_mem : {fields : Fields} → {p : Field × Shape} → p ∈ fields.toList →
    ∀ key ∈ p.1.spellings, key ∈ fields.spellings
  | cons f s rest, p, hp, key, hkey => by
    rcases List.mem_cons.mp hp with rfl | hp
    · exact List.mem_append_left _ hkey
    · exact List.mem_append_right _ (spellings_of_mem hp key hkey)

/-- Two fields do not have one name. -/
theorem eq_of_name_eq : {fields : Fields} → fields.Distinct → {p q : Field × Shape} →
    p ∈ fields.toList → q ∈ fields.toList → p.1.name = q.1.name → p = q
  | cons f s rest, hdis, p, q, hp, hq, hname => by
    have hfirst : f.name ∈ f.spellings := List.mem_cons_self
    have happart {r : Field × Shape} (hr : r ∈ rest.toList) : f.name ≠ r.1.name := fun heq =>
      hdis.apart hfirst (heq ▸ spellings_of_mem hr _ List.mem_cons_self)
    rcases List.mem_cons.mp hp with rfl | hp <;> rcases List.mem_cons.mp hq with rfl | hq
    · rfl
    · exact absurd hname (happart hq)
    · exact absurd hname.symm (happart hp)
    · exact eq_of_name_eq hdis.rest hp hq hname

theorem properties_cons (f : Field) (s : Shape) (rest : Fields) :
    (cons f s rest).properties = (f.name, f.property s) :: rest.properties := rfl

theorem keys_properties : (fields : Fields) → Json.keys fields.properties = fields.names
  | nil => rfl
  | cons f s rest => by
    rw [properties_cons, Json.keys, List.map_cons, ← Json.keys, keys_properties rest]
    rfl

theorem mem_spellings_of_mem_names : {fields : Fields} → {name : String} → name ∈ fields.names →
    name ∈ fields.spellings
  | cons f s rest, name, h => by
    rcases List.mem_cons.mp h with rfl | h
    · exact List.mem_append_left _ List.mem_cons_self
    · exact List.mem_append_right _ (mem_spellings_of_mem_names h)

theorem nodup_names : {fields : Fields} → fields.Distinct → fields.names.Nodup
  | nil, _ => List.nodup_nil
  | cons f s rest, hdis => by
    refine List.nodup_cons.mpr ⟨fun hmem => ?_, nodup_names hdis.rest⟩
    exact hdis.apart List.mem_cons_self (mem_spellings_of_mem_names hmem)

/-- The property of a field is found under its name. -/
theorem lookup_properties : {fields : Fields} → fields.Distinct → {p : Field × Shape} →
    p ∈ fields.toList → Json.lookup p.1.name fields.properties = some (p.1.property p.2)
  | cons f s rest, hdis, p, hp => by
    rw [properties_cons, Json.lookup]
    rcases List.mem_cons.mp hp with rfl | hp
    · rw [if_pos (beq_self_eq_true _)]
    · have hne : f.name ≠ p.1.name := fun heq =>
        hdis.apart List.mem_cons_self (heq ▸ spellings_of_mem hp _ List.mem_cons_self)
      rw [if_neg (mt beq_iff_eq.mp hne), lookup_properties hdis.rest hp]

theorem mem_requiredNames : {fields : Fields} → {name : String} →
    (name ∈ fields.requiredNames ↔
      ∃ p ∈ fields.toList, p.1.presence = .required ∧ p.1.name = name)
  | nil, _ => iff_of_false List.not_mem_nil (fun ⟨_, hp, _⟩ => List.not_mem_nil hp)
  | cons f s rest, name => by
    simp only [requiredNames, toList, List.exists_mem_cons_iff, ← @mem_requiredNames rest]
    cases hf : f.presence with
    | required => simp only [List.mem_cons, true_and, eq_comm]
    | optional => simp only [reduceCtorEq, false_and, false_or]
    | default _ => simp only [reduceCtorEq, false_and, false_or]

/-- The fields stand for values exactly when each of them does. -/
theorem exists_stand_iff {members : List (String × Json)} : {fields : Fields} →
    ((∃ vs, fields.Stand members vs) ↔ ∀ p ∈ fields.toList,
      ∃ v, p.1.Stands (fun j => p.2.decode j) (p.1.membersOf members) v)
  | nil => iff_of_true ⟨(), trivial⟩ (fun _ h => (List.not_mem_nil h).elim)
  | cons f s rest => by
    simp only [toList, List.forall_mem_cons, ← @exists_stand_iff members rest]
    constructor
    · rintro ⟨⟨v, vs⟩, hv, hvs⟩
      exact ⟨⟨v, hv⟩, vs, hvs⟩
    · rintro ⟨⟨v, hv⟩, vs, hvs⟩
      exact ⟨(v, vs), hv, hvs⟩

end Fields

namespace Shape

/-- The schema of a record has its members under different keys. -/
theorem nodup_keys_schemaMembers_record (name : String) (fields : Fields) :
    (Json.keys (Shape.record name fields).schemaMembers).Nodup := by
  simp only [schemaMembers]
  split <;> split <;> exact (by decide : ["title", "type", "properties", "required"].Nodup).sublist
    (by simp [Json.keys])

theorem get?_properties_record (name : String) (fields : Fields) :
    (Shape.record name fields).schema.get? "properties" =
      if fields.properties.isEmpty then none else some (Json.object fields.properties) := by
  refine (Json.get?_object (nodup_keys_schemaMembers_record name fields) _).trans ?_
  simp only [schemaMembers]
  split <;> split <;> rfl

theorem get?_required_record (name : String) (fields : Fields) :
    (Shape.record name fields).schema.get? "required" =
      if fields.requiredNames.isEmpty then none else some (Json.texts fields.requiredNames) := by
  refine (Json.get?_object (nodup_keys_schemaMembers_record name fields) _).trans ?_
  simp only [schemaMembers]
  split <;> split <;> rfl

theorem property?_record {name : String} {fields : Fields} (hdis : fields.Distinct)
    {p : Field × Shape} (hp : p ∈ fields.toList) :
    Schema.property? (Shape.record name fields).schema p.1.name = some (p.1.property p.2) := by
  have hlookup := Fields.lookup_properties hdis hp
  have hkeys : (Json.keys fields.properties).Nodup :=
    Fields.keys_properties fields ▸ Fields.nodup_names hdis
  have hsome : ¬ fields.properties.isEmpty = true := by
    intro hempty
    rw [List.isEmpty_iff.mp hempty] at hlookup
    cases hlookup
  rw [Schema.property?, get?_properties_record, if_neg hsome, Option.bind_some,
    Json.get?_object hkeys, hlookup]

theorem required_record (name : String) (fields : Fields) :
    Schema.required (Shape.record name fields).schema = fields.requiredNames := by
  have htexts (names : List String) : (names.map Json.str).filterMap Json.str? = names := by
    rw [List.filterMap_map]
    exact List.filterMap_some
  rw [Schema.required, get?_required_record]
  cases hnames : fields.requiredNames with
  | nil => rfl
  | cons name names => exact htexts (name :: names)

/-- **Members stand for the values of a record exactly when they conform to its schema.** -/
theorem conforms_iff {name : String} {fields : Fields} (hdis : fields.Distinct)
    (harg : fields.areArguments = true) (members : List (String × Json)) :
    (∃ vs, fields.Stand members vs) ↔
      Conforms fields.list (Shape.record name fields).schema members := by
  rw [Fields.exists_stand_iff]
  constructor
  · intro h
    have hfields (p : Field × Shape) (hp : p ∈ fields.toList) :=
      (Field.exists_stands_iff (Fields.isArgument_of_mem harg hp) _).mp (h p hp)
    refine ⟨List.forall_mem_map.mpr fun p hp => (hfields p hp).1,
      List.forall_mem_map.mpr fun p hp m hm => ?_, fun required hrequired => ?_⟩
    · exact ⟨_, property?_record hdis hp, (hfields p hp).2.1 m hm⟩
    · rw [required_record] at hrequired
      obtain ⟨p, hp, hpresence, hname⟩ := Fields.mem_requiredNames.mp hrequired
      exact ⟨p.1, List.mem_map_of_mem hp, hname, (hfields p hp).2.2 hpresence⟩
  · intro h p hp
    have hlist : p.1 ∈ fields.list := List.mem_map_of_mem hp
    refine (Field.exists_stands_iff (Fields.isArgument_of_mem harg hp) _).mpr
      ⟨h.once p.1 hlist, fun m hm => ?_, fun hpresence => ?_⟩
    · obtain ⟨property, hproperty, hadmits⟩ := h.admitted p.1 hlist m hm
      rw [property?_record hdis hp] at hproperty
      cases hproperty
      exact hadmits
    · have hrequired : p.1.name ∈ Schema.required (Shape.record name fields).schema := by
        rw [required_record]
        exact Fields.mem_requiredNames.mpr ⟨p, hp, hpresence, rfl⟩
      obtain ⟨f, hf, hname, hthere⟩ := h.complete _ hrequired
      obtain ⟨q, hq, rfl⟩ := List.mem_map.mp hf
      -- the names of fields are different, so this is the field itself
      rw [Fields.eq_of_name_eq hdis hp hq hname.symm]
      exact hthere

end Shape

/-! ## 4. What is read out of the members -/

namespace Shape

/-- **A value is that of a member**, if there is one: an option without a member or with null is
nothing, and every other value is the one that is written as the member. -/
def Carries : (s : Shape) → Option Json → s.Value → Prop
  | .option s, j?, v =>
    match j? with
    | none | some .null => v = none
    | some j => ∃ w, v = some w ∧ s.encode w = j
  | s, j?, v => j? = some (s.encode v)

theorem map_eq_of_forall₂ {α β : Type} {R : α → β → Prop} {f : β → α}
    (h : ∀ a b, R a b → f b = a) {items : List α} {results : List β}
    (hall : List.Forall₂ R items results) : results.map f = items := by
  induction hall with
  | nil => rfl
  | cons hfirst _ ih => rw [List.map_cons, h _ _ hfirst, ih]

theorem encode_of_decode_isItem : {s : Shape} → s.isItem = true → {j : Json} → {v : s.Value} →
    s.decode j = .ok v → s.encode v = j
  | .text, _, _, _, hv => (decode_text_eq_ok_iff.mp hv).symm
  | .flag, _, _, _, hv => (decode_flag_eq_ok_iff.mp hv).symm
  | .natural _, _, _, _, hv => (decode_natural_eq_ok_iff.mp hv).1.symm
  | .list s, h, j, vs, hvs => by
    obtain ⟨items, rfl, hall⟩ := decode_list_eq_ok_iff.mp hvs
    have hitem : s.isItem = true := h
    exact congrArg Json.arr
      (map_eq_of_forall₂ (fun _ _ hv => encode_of_decode_isItem hitem hv) hall)

/-- An option that is decoded from a member carries its value. -/
theorem carries_option {s : Shape} (hs : ∀ j w, s.decode j = .ok w → s.encode w = j) {j : Json}
    {v : Option s.Value} (h : (Shape.option s).decode j = .ok v) :
    (Shape.option s).Carries (some j) v := by
  by_cases hj : j = .null
  · subst hj
    rw [decode_option_null] at h
    cases h
    rfl
  · obtain ⟨w, rfl, hw⟩ := (decode_option_eq_ok_iff hj).mp h
    cases j with
    | null => exact absurd rfl hj
    | bool _ | num _ | str _ | arr _ | obj _ => exact ⟨w, rfl, hs _ w hw⟩

theorem carries_of_isItem : {s : Shape} → s.isItem = true → {j : Json} → {v : s.Value} →
    s.decode j = .ok v → s.Carries (some j) v
  | .text, h, _, _, hv | .flag, h, _, _, hv | .natural _, h, _, _, hv | .list _, h, _, _, hv =>
    congrArg some (encode_of_decode_isItem h hv).symm

end Shape

/-- The value of the first of some members. -/
def firstValue? (members : List (String × Json)) : Option Json := members.head?.map Prod.snd

/-- The value that an argument stands for is that of its member. -/
theorem Field.carries_of_stands {f : Field} {s : Shape} (h : f.isArgument s = true)
    {members : List (String × Json)} {v : s.Value}
    (hv : f.Stands (fun j => s.decode j) members v) : s.Carries (firstValue? members) v := by
  rcases cases_of_isArgument h with ⟨hp, hs⟩ | ⟨hp, hs⟩
  · rcases members with _ | ⟨m, _ | ⟨_, _⟩⟩
    case nil =>
      rw [Stands, absent, hp] at hv
      cases hv
    case cons.nil => exact Shape.carries_of_isItem hs hv
    case cons.cons => exact hv.elim
  · obtain ⟨t, rfl, ht⟩ : ∃ t, s = .option t ∧ ∀ j w, t.decode j = .ok w → t.encode w = j := by
      rcases Shape.cases_of_isOptional hs with rfl | ⟨t, rfl, ht⟩
      · refine ⟨.any, rfl, fun j w hw => ?_⟩
        rw [Shape.decode_any] at hw
        cases hw
        rfl
      · exact ⟨t, rfl, fun _ _ hw => Shape.encode_of_decode_isItem ht hw⟩
    rcases members with _ | ⟨m, _ | ⟨_, _⟩⟩
    case nil =>
      rw [Stands, absent, hp] at hv
      have hnull : (Shape.option t).decode .null = .ok v := hv
      rw [Shape.decode_option_null] at hnull
      cases hnull
      rfl
    case cons.nil => exact Shape.carries_option ht hv
    case cons.cons => exact hv.elim

/-- **The values of the fields are those of their members.** -/
def Fields.Carry (members : List (String × Json)) : (fields : Fields) → fields.Values → Prop
  | .nil, _ => True
  | .cons f s rest, (v, vs) =>
    s.Carries (firstValue? (f.membersOf members)) v ∧ rest.Carry members vs

theorem Fields.carry_of_stand {members : List (String × Json)} : {fields : Fields} →
    fields.areArguments = true → {vs : fields.Values} → fields.Stand members vs →
    fields.Carry members vs
  | .nil, _, _, _ => trivial
  | .cons f s rest, h, (v, vs), ⟨hv, hvs⟩ => by
    obtain ⟨hf, hrest⟩ := Bool.and_eq_true_iff.mp h
    exact ⟨Field.carries_of_stands hf hv, carry_of_stand hrest hvs⟩

end Workbench
