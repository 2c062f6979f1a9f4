import Workbench.Json.Basic
import Workbench.Time.Timestamp

/-!
# Shapes

A shape describes the values of a type as JSON: the decoder, the encoder, the reader of texts and
the published schema of a request are all functions of one shape.

* `Shape.Value s` is the type of the decoded values of the shape `s`;
* `Shaped α` fits a type of the library to a shape: `α` and `Shape.Value` correspond one to one.
-/

namespace Workbench

/-! ## 1. The type -/

/-- The two kinds of natural numbers below `2 ^ 64`: a plain one and the size of something. -/
inductive NaturalKind where
  | plain
  | size
  deriving DecidableEq, Repr

namespace NaturalKind

/-- The name in messages. -/
def label : NaturalKind → String
  | plain => "u64"
  | size => "usize"

/-- The name in schemas. -/
def format : NaturalKind → String
  | plain => "uint64"
  | size => "uint"

end NaturalKind

/-- What holds when a field is absent. -/
inductive Presence where
  /-- The field must be there. -/
  | required
  /-- An absent member counts as null; a list of fields must still reach the field. -/
  | optional
  /-- An absent field counts as the given value, also at the end of a list of fields. -/
  | default (value : Json)
  deriving DecidableEq, Repr

/-- A field of a record: its name, other names it is read under, what holds when it is absent,
whether null is left out when it is written, and its description in the schema. -/
structure Field where
  name : String
  aliases : List String
  presence : Presence
  omitNull : Bool
  description : Option String
  deriving DecidableEq, Repr

namespace Field

/-- A field that must be there. -/
def required (name : String) (aliases : List String) (description : String) : Field :=
  ⟨name, aliases, .required, false, some description⟩

/-- A field that may be absent. -/
def optional (name : String) (aliases : List String) (description : String) : Field :=
  ⟨name, aliases, .optional, false, some description⟩

/-- A field without other names and description that must be there. -/
def plain (name : String) : Field := ⟨name, [], .required, false, none⟩

/-- A field that may be absent and is left out when it is null. -/
def omitted (name : String) : Field := ⟨name, [], .optional, true, none⟩

/-- A field that counts as a given value when it is absent. -/
def withDefault (name : String) (value : Json) : Field := ⟨name, [], .default value, false, none⟩

/-- A field that may be absent anywhere and is left out when it is null. -/
def trailing (name : String) : Field := ⟨name, [], .default .null, true, none⟩

/-- The field is read under a name. -/
def accepts (f : Field) (key : String) : Bool := key == f.name || f.aliases.contains key

end Field

mutual

/-- A description of values. -/
inductive Shape where
  | text
  | natural (kind : NaturalKind)
  | flag
  /-- Any value at all. -/
  | any
  /-- Any object. -/
  | object
  | time
  /-- A value or null. -/
  | option (s : Shape)
  | list (s : Shape)
  /-- One of the given names. -/
  | choice (variants : List String)
  | record (name : String) (fields : Fields)

/-- The fields of a record, in order. -/
inductive Fields where
  | nil
  | cons (field : Field) (s : Shape) (rest : Fields)

end

namespace Fields

/-- The number of fields. -/
def length : Fields → Nat
  | nil => 0
  | cons _ _ rest => rest.length + 1

/-- The fields of a list of pairs. -/
def ofList : List (Field × Shape) → Fields
  | [] => nil
  | (f, s) :: r => cons f s (ofList r)

/-- The names of the fields. -/
def names : Fields → List String
  | nil => []
  | cons f _ rest => f.name :: rest.names

end Fields

/-! ## 2. Values -/

mutual

/-- The decoded values of a shape.  A choice is the place of the name. -/
def Shape.Value : Shape → Type
  | .text => String
  | .natural _ => Nat
  | .flag => Bool
  | .any => Json
  | .object => List (String × Json)
  | .time => Timestamp
  | .option s => Option s.Value
  | .list s => List s.Value
  | .choice variants => Fin variants.length
  | .record _ fields => fields.Values

/-- The decoded values of fields. -/
def Fields.Values : Fields → Type
  | .nil => Unit
  | .cons _ s rest => s.Value × rest.Values

end

/-- The values of fields that have been met so far. -/
def Fields.Slots : Fields → Type
  | .nil => Unit
  | .cons _ s rest => Option s.Value × rest.Slots

/-- No field met yet. -/
def Fields.noSlots : (fields : Fields) → fields.Slots
  | .nil => ()
  | .cons _ _ rest => (none, rest.noSlots)

/-! ## 3. Types of the library -/

/-- A type whose values are written with a shape. -/
class Shaped (α : Type) where
  /-- The shape. -/
  shape : Shape
  /-- A value as the shape sees it. -/
  toValue : α → shape.Value
  /-- The value that the shape sees so. -/
  ofValue : shape.Value → α
  /-- Nothing is lost on the way to the shape. -/
  ofValue_toValue : ∀ a, ofValue (toValue a) = a
  /-- Nothing is lost on the way back. -/
  toValue_ofValue : ∀ v, toValue (ofValue v) = v

namespace Shaped

variable {α : Type} [Shaped α]

@[simp] theorem map_ofValue_toValue (xs : List α) :
    (xs.map toValue).map (fun v => (ofValue v : α)) = xs := by
  simp [Function.comp_def, ofValue_toValue]

@[simp] theorem map_toValue_ofValue (vs : List (shape α).Value) :
    (vs.map (fun v => (ofValue v : α))).map toValue = vs := by
  simp [Function.comp_def, toValue_ofValue]

@[simp] theorem optionMap_ofValue_toValue (x : Option α) :
    (x.map toValue).map (fun v => (ofValue v : α)) = x := by
  cases x <;> simp [ofValue_toValue]

@[simp] theorem optionMap_toValue_ofValue (v : Option (shape α).Value) :
    (v.map (fun v => (ofValue v : α))).map toValue = v := by
  cases v <;> simp [toValue_ofValue]

end Shaped
end Workbench
