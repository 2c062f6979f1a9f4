import Mathlib.Algebra.Group.Int.Defs
import Workbench.Proofs.Shape.Decoding
import Workbench.Shape.Schema

/-!
# Schemas and what they admit

The schemas of requests are published; the decoder does not look at them.  Here a schema is read by
itself, with no notion of shapes: `Schema.admits` says which values a schema admits.

* `decodes_iff_admits_of_isItem` and `decodes_iff_admits_of_isOptional`: **a value decodes exactly
  when the schema of its shape admits it**, for the shapes that the arguments of tools have.
-/

namespace Workbench

/-! ## 1. Reading a schema -/

namespace Schema

/-- The types that a schema allows; nothing if it does not say. -/
def types? (schema : Json) : Option (List String) :=
  match schema.get? "type" with
  | some (.str type) => some [type]
  | some (.arr types) => some (types.filterMap Json.str?)
  | _ => none

/-- The type of a value.  A number is an integer if it is written as one. -/
def typeOf : Json → String
  | .null => "null"
  | .bool _ => "boolean"
  | .num (.int _) => "integer"
  | .num (.double _) => "number"
  | .str _ => "string"
  | .arr _ => "array"
  | .obj _ => "object"

/-- A schema allows a type. -/
def allows (schema : Json) (type : String) : Bool :=
  match types? schema with
  | some types => types.contains type
  | none => true

/-- The least number that a schema admits. -/
def minimum? (schema : Json) : Option Int :=
  match schema.get? "minimum" with
  | some (.num (.int least)) => some least
  | _ => none

/-- The formats of the numbers that fit 64 bits. -/
def unsignedFormats : List String := ["uint64", "uint"]

/-- A number is not below the minimum of a schema, and fits 64 bits if the format of the schema is
that of such numbers. -/
def bounds (schema : Json) (i : Int) : Bool :=
  (minimum? schema).all (fun least => decide (least ≤ i)) &&
    (((schema.get? "format").bind Json.str?).all fun format =>
      !unsignedFormats.contains format || decide (i < 2 ^ 64))

/-- The schema of the items of a list; a value that says nothing if there is none. -/
def itemSchema (schema : Json) : Json := (schema.get? "items").getD .null

mutual

/-- **A schema admits a value**: the type is allowed, an integer is within its bounds, and the items
of a list are admitted by the schema of items. -/
def admits (schema : Json) : Json → Bool
  | .num (.int i) => allows schema "integer" && bounds schema i
  | .arr items => allows schema "array" && admitsAll (itemSchema schema) items
  | j => allows schema (typeOf j)

/-- A schema admits all values of a list. -/
def admitsAll (schema : Json) : List Json → Bool
  | [] => true
  | j :: rest => admits schema j && admitsAll schema rest

end

theorem admitsAll_iff {schema : Json} {items : List Json} :
    admitsAll schema items = true ↔ ∀ j ∈ items, admits schema j = true := by
  induction items with
  | nil => simp only [admitsAll, List.not_mem_nil, false_implies, implies_true]
  | cons j rest ih => simp only [admitsAll, Bool.and_eq_true, ih, List.forall_mem_cons]

/-- What a schema admits depends on four of its members only. -/
theorem admits_congr {schema other : Json}
    (h : ∀ key ∈ ["type", "minimum", "format", "items"], schema.get? key = other.get? key)
    (j : Json) : admits schema j = admits other j := by
  have htype : schema.get? "type" = other.get? "type" := h _ (by decide)
  have hminimum : schema.get? "minimum" = other.get? "minimum" := h _ (by decide)
  have hformat : schema.get? "format" = other.get? "format" := h _ (by decide)
  have hitems : schema.get? "items" = other.get? "items" := h _ (by decide)
  have hallows (type : String) : allows schema type = allows other type := by
    simp only [allows, types?, htype]
  match j with
  | .num (.int i) => simp only [admits, bounds, minimum?, hallows, hminimum, hformat]
  | .num (.double _) | .null | .bool _ | .str _ | .obj _ => simp only [admits, hallows]
  | .arr items => simp only [admits, itemSchema, hallows, hitems]

end Schema

/-! ## 2. The shapes of single arguments -/

namespace Shape

/-- The shape of a value that is never null. -/
def isItem : Shape → Bool
  | .text | .natural _ | .flag => true
  | .list s => s.isItem
  | _ => false

/-- The shape of a value that may be left out. -/
def isOptional : Shape → Bool
  | .option .any => true
  | .option s => s.isItem
  | _ => false

end Shape

/-! ## 3. The schema of a value -/

namespace Shape

theorem keys_orNull (members : List (String × Json)) :
    Json.keys (orNull members) = Json.keys members := by
  rw [Json.keys, Json.keys, orNull, List.map_map]
  refine List.map_congr_left fun m _ => ?_
  simp only [Function.comp_apply]
  split <;> rfl

theorem lookup_orNull (key : String) (members : List (String × Json)) :
    Json.lookup key (orNull members) =
      (Json.lookup key members).map fun j =>
        if key = "type" then .arr [j, .str "null"] else j := by
  induction members with
  | nil => rfl
  | cons m rest ih =>
    obtain ⟨k, j⟩ := m
    have hcons : orNull ((k, j) :: rest) =
        (k, if k = "type" then .arr [j, .str "null"] else j) :: orNull rest := by
      simp only [orNull, List.map_cons, beq_iff_eq]
      split <;> rfl
    rw [hcons, Json.lookup, Json.lookup]
    by_cases hk : k = key
    · rw [if_pos (beq_iff_eq.mpr hk), if_pos (beq_iff_eq.mpr hk), hk, Option.map_some]
    · rw [if_neg (mt beq_iff_eq.mp hk), if_neg (mt beq_iff_eq.mp hk), ih]

/-- The schema of an item has different members, and no description of its own. -/
theorem keys_of_isItem : {s : Shape} → s.isItem = true →
    (Json.keys s.schemaMembers).Nodup ∧ "description" ∉ Json.keys s.schemaMembers
  | .text, _ | .flag, _ => by decide
  | .natural .plain, _ | .natural .size, _ => by decide
  | .list _, _ => by simp [schemaMembers, Json.keys]

/-- The name that the schema of an item gives to its type. -/
def itemType : Shape → String
  | .text => "string"
  | .flag => "boolean"
  | .natural _ => "integer"
  | .list _ => "array"
  | _ => "null"

theorem lookup_type_of_isItem : {s : Shape} → s.isItem = true →
    Json.lookup "type" s.schemaMembers = some (.str s.itemType)
  | .text, _ | .flag, _ | .natural _, _ | .list _, _ => rfl

/-- What the schema of an item says under a key. -/
theorem get?_schema_of_isItem {s : Shape} (h : s.isItem = true) (key : String) :
    s.schema.get? key = Json.lookup key s.schemaMembers :=
  Json.get?_object (keys_of_isItem h).1 key

theorem get?_schema_option {s : Shape} (h : s.isItem = true) (key : String) :
    (Shape.option s).schema.get? key = Json.lookup key (orNull s.schemaMembers) := by
  refine Json.get?_object ?_ key
  rw [schemaMembers, keys_orNull]
  exact (keys_of_isItem h).1

end Shape

/-! ## 4. Decoded exactly when admitted -/

/-- A schema with one type allows no other. -/
theorem Schema.allows_of_type {schema : Json} {type : String}
    (h : schema.get? "type" = some (.str type)) (other : String) :
    Schema.allows schema other = (other == type) := by
  simp only [allows, types?, h, List.contains_cons, List.contains_nil, Bool.or_false]

/-- A list has results exactly when all of its items have. -/
theorem exists_forall₂_iff {α β : Type} {R : α → β → Prop} {items : List α} :
    (∃ results, List.Forall₂ R items results) ↔ ∀ a ∈ items, ∃ b, R a b := by
  induction items with
  | nil => exact iff_of_true ⟨[], .nil⟩ (fun _ h => (List.not_mem_nil h).elim)
  | cons a rest ih =>
    rw [List.forall_mem_cons, ← ih]
    constructor
    · rintro ⟨results, h⟩
      obtain ⟨b, others, hb, hothers, -⟩ := List.forall₂_cons_left_iff.mp h
      exact ⟨⟨b, hb⟩, others, hothers⟩
    · rintro ⟨⟨b, hb⟩, others, hothers⟩
      exact ⟨b :: others, .cons hb hothers⟩

namespace Shape

theorem exists_nat_of_bounds {i : Int} :
    (∃ v : Nat, i = v ∧ v < 2 ^ 64) ↔ 0 ≤ i ∧ i < 2 ^ 64 := by
  constructor
  · rintro ⟨v, rfl, hv⟩
    exact ⟨Int.natCast_nonneg v, by omega⟩
  · rintro ⟨hi, hlt⟩
    obtain ⟨v, rfl⟩ := Int.eq_ofNat_of_zero_le hi
    exact ⟨v, rfl, by omega⟩

theorem allows_of_isItem {s : Shape} (h : s.isItem = true) (type : String) :
    Schema.allows s.schema type = (type == s.itemType) :=
  Schema.allows_of_type ((get?_schema_of_isItem h "type").trans (lookup_type_of_isItem h)) type

/-- The bounds of a natural number. -/
theorem bounds_natural (kind : NaturalKind) (i : Int) :
    Schema.bounds (Shape.natural kind).schema i = true ↔ 0 ≤ i ∧ i < 2 ^ 64 := by
  have hminimum : (Shape.natural kind).schema.get? "minimum" = some (Json.nat 0) :=
    get?_schema_of_isItem rfl "minimum"
  have hformat : (Shape.natural kind).schema.get? "format" = some (.str kind.format) :=
    get?_schema_of_isItem rfl "format"
  have hknown : Schema.unsignedFormats.contains kind.format = true := by
    cases kind <;> decide
  have hleast : Schema.minimum? (Shape.natural kind).schema = some 0 := by
    rw [Schema.minimum?, hminimum]
    rfl
  simp only [Schema.bounds, hleast, hformat, Option.bind_some, Json.str?, Option.all_some, hknown,
    Bool.not_true, Bool.false_or, Bool.and_eq_true, decide_eq_true_eq]

theorem itemSchema_list {s : Shape} (h : s.isItem = true) :
    Schema.itemSchema (Shape.list s).schema = s.schema := by
  have hitems : (Shape.list s).schema.get? "items" = some s.schema :=
    get?_schema_of_isItem (s := .list s) h "items"
  rw [Schema.itemSchema, hitems, Option.getD_some]

/-- **An item is decoded exactly when its schema admits it.** -/
theorem decodes_iff_admits_of_isItem : {s : Shape} → s.isItem = true → (j : Json) →
    ((∃ v, s.decode j = .ok v) ↔ Schema.admits s.schema j = true)
  | .text, h, j => by
    have hallows (type : String) := allows_of_isItem h type
    have hdecode : (∃ v, Shape.text.decode j = .ok v) ↔ ∃ t, j = .str t :=
      exists_congr fun _ => decode_text_eq_ok_iff
    rw [hdecode]
    rcases j with _ | _ | (_ | _) | _ | _ | _ <;>
      simp [Schema.admits, hallows, Schema.typeOf, itemType]
  | .flag, h, j => by
    have hallows (type : String) := allows_of_isItem h type
    have hdecode : (∃ v, Shape.flag.decode j = .ok v) ↔ ∃ b, j = .bool b :=
      exists_congr fun _ => decode_flag_eq_ok_iff
    rw [hdecode]
    rcases j with _ | _ | (_ | _) | _ | _ | _ <;>
      simp [Schema.admits, hallows, Schema.typeOf, itemType]
  | .natural kind, h, j => by
    have hallows (type : String) := allows_of_isItem h type
    have hdecode : (∃ v, (Shape.natural kind).decode j = .ok v) ↔
        ∃ v : Nat, j = Json.nat v ∧ v < 2 ^ 64 :=
      exists_congr fun _ => decode_natural_eq_ok_iff
    rw [hdecode]
    rcases j with _ | _ | (i | _) | _ | _ | _
    case num.int =>
      simp only [Json.nat, Json.num.injEq, Number.int.injEq, exists_nat_of_bounds, Schema.admits,
        hallows, itemType, beq_self_eq_true, Bool.true_and, bounds_natural]
    all_goals simp [Schema.admits, hallows, Schema.typeOf, itemType, Json.nat]
  | .list s, h, j => by
    have hallows (type : String) := allows_of_isItem h type
    have hitem : s.isItem = true := h
    have hdecode : (∃ v, (Shape.list s).decode j = .ok v) ↔
        ∃ items, j = .arr items ∧ Schema.admitsAll s.schema items = true := by
      simp only [Schema.admitsAll_iff, ← decodes_iff_admits_of_isItem hitem,
        ← exists_forall₂_iff]
      constructor
      · rintro ⟨vs, hvs⟩
        obtain ⟨items, hj, hall⟩ := decode_list_eq_ok_iff.mp hvs
        exact ⟨items, hj, vs, hall⟩
      · rintro ⟨items, hj, vs, hall⟩
        exact ⟨vs, decode_list_eq_ok_iff.mpr ⟨items, hj, hall⟩⟩
    rw [hdecode]
    rcases j with _ | _ | (_ | _) | _ | items | _
    case arr =>
      simp only [Json.arr.injEq, exists_eq_left', Schema.admits, hallows, itemType,
        beq_self_eq_true, Bool.true_and, itemSchema_list hitem]
    all_goals simp [Schema.admits, hallows, Schema.typeOf, itemType]

end Shape

mutual

/-- A schema that says nothing admits everything. -/
theorem Schema.admits_silent : (j : Json) → Schema.admits .null j = true
  | .num (.int _) | .num (.double _) | .null | .bool _ | .str _ | .obj _ => rfl
  | .arr items => by
    have hitems : Schema.itemSchema .null = .null := rfl
    rw [Schema.admits, hitems, Schema.admitsAll_silent items]
    rfl

theorem Schema.admitsAll_silent : (items : List Json) → Schema.admitsAll .null items = true
  | [] => rfl
  | j :: rest => by
    rw [Schema.admitsAll, Schema.admits_silent j, Schema.admitsAll_silent rest, Bool.true_and]

end

namespace Shape

theorem get?_type_option {s : Shape} (h : s.isItem = true) :
    (Shape.option s).schema.get? "type" = some (.arr [.str s.itemType, .str "null"]) := by
  rw [get?_schema_option h, lookup_orNull, lookup_type_of_isItem h, Option.map_some, if_pos rfl]

/-- Apart from the type, the schema of an option is that of its values. -/
theorem get?_option {s : Shape} (h : s.isItem = true) {key : String} (hkey : key ≠ "type") :
    (Shape.option s).schema.get? key = s.schema.get? key := by
  rw [get?_schema_option h, lookup_orNull, get?_schema_of_isItem h]
  simp only [if_neg hkey, Option.map_id']

theorem allows_option {s : Shape} (h : s.isItem = true) (type : String) :
    Schema.allows (Shape.option s).schema type = (type == s.itemType || type == "null") := by
  have hnames : [Json.str s.itemType, .str "null"].filterMap Json.str? = [s.itemType, "null"] := rfl
  simp only [Schema.allows, Schema.types?, get?_type_option h, hnames, List.contains_cons,
    List.contains_nil, Bool.or_false]

/-- Besides null, the schema of an option admits what that of its values admits. -/
theorem admits_option {s : Shape} (h : s.isItem = true) {j : Json} (hj : j ≠ .null) :
    Schema.admits (Shape.option s).schema j = Schema.admits s.schema j := by
  have hallows {type : String} (htype : type ≠ "null") :
      Schema.allows (Shape.option s).schema type = Schema.allows s.schema type := by
    rw [allows_option h, allows_of_isItem h, beq_eq_false_iff_ne.mpr htype, Bool.or_false]
  have hminimum := get?_option h (show "minimum" ≠ "type" by decide)
  have hformat := get?_option h (show "format" ≠ "type" by decide)
  have hitems := get?_option h (show "items" ≠ "type" by decide)
  rcases j with _ | _ | (i | _) | _ | items | _
  case null => exact absurd rfl hj
  case num.int =>
    simp only [Schema.admits, Schema.bounds, Schema.minimum?, hminimum, hformat]
    rw [hallows (by decide)]
  case arr =>
    simp only [Schema.admits, Schema.itemSchema, hitems]
    rw [hallows (by decide)]
  all_goals exact hallows (by simp only [Schema.typeOf]; decide)

theorem cases_of_isOptional {s : Shape} (h : s.isOptional = true) :
    s = .option .any ∨ ∃ t, s = .option t ∧ t.isItem = true := by
  unfold isOptional at h
  split at h
  · exact .inl rfl
  · exact .inr ⟨_, rfl, h⟩
  · cases h

/-- **A value that may be left out is decoded exactly when its schema admits it.** -/
theorem decodes_iff_admits_of_isOptional {s : Shape} (h : s.isOptional = true) (j : Json) :
    (∃ v, s.decode j = .ok v) ↔ Schema.admits s.schema j = true := by
  rcases cases_of_isOptional h with rfl | ⟨t, rfl, ht⟩
  · have hempty : (Shape.option .any).schema = .obj [] := rfl
    have hsame (key : String) : (Json.obj []).get? key = Json.null.get? key := rfl
    rw [hempty, Schema.admits_congr (fun key _ => hsame key) j, Schema.admits_silent j]
    refine iff_of_true ?_ rfl
    by_cases hj : j = .null
    · exact ⟨none, hj ▸ decode_option_null .any⟩
    · exact ⟨some j, (decode_option_eq_ok_iff hj).mpr ⟨j, rfl, decode_any j⟩⟩
  · by_cases hj : j = .null
    · subst hj
      refine iff_of_true ⟨none, decode_option_null t⟩ ?_
      have hallows := allows_option ht "null"
      rw [beq_self_eq_true, Bool.or_true] at hallows
      exact hallows
    · rw [admits_option ht hj, ← decodes_iff_admits_of_isItem ht]
      constructor
      · rintro ⟨v, hv⟩
        obtain ⟨w, -, hw⟩ := (decode_option_eq_ok_iff hj).mp hv
        exact ⟨w, hw⟩
      · rintro ⟨w, hw⟩
        exact ⟨some w, (decode_option_eq_ok_iff hj).mpr ⟨w, rfl, hw⟩⟩

end Shape

end Workbench
