import Workbench.Shape.Basic
import Workbench.Shape.Mismatch

/-!
# Decoding

`Shape.decode` reads a JSON value as a value of a shape.

A record may be given as an object or as a list.  The members of an object are met in their order,
each under one of the names of its field; unknown members are ignored, a second member for a field
is a mismatch, and absent fields are looked at last, in the order of the fields.  A list gives the
fields in their order and must not be longer than they are.
-/

namespace Workbench

namespace Shape

/-- The place of a name among variants. -/
def variantAt? : (variants : List String) → String → Option (Fin variants.length)
  | [], _ => none
  | v :: vs, name =>
    if v == name then some ⟨0, Nat.succ_pos _⟩ else (variantAt? vs name).map Fin.succ

/-- A variant by its name. -/
def decodeVariant (variants : List String) (name : String) :
    Except Mismatch (Fin variants.length) :=
  match variantAt? variants name with
  | some i => .ok i
  | none => .error (.unknownVariant name variants)

/-- A variant, given by its name or as an object whose only member bears the name and is null. -/
def decodeChoice (variants : List String) : Json → Except Mismatch (Fin variants.length)
  | .str name => decodeVariant variants name
  | .obj [(name, value)] =>
    match decodeVariant variants name with
    | .error m => .error m
    | .ok i =>
      match value with
      | .null => .ok i
      | j => .error (.wrongType (.ofJson j) "unit")
  | .obj _ => .error (.wrongValue .object "map with a single key")
  | j => .error (.wrongType (.ofJson j) "string or map")

/-- A natural number below `2 ^ 64`. -/
def decodeNatural (kind : NaturalKind) : Number → Except Mismatch Nat
  | .int (.ofNat n) =>
    if n < Nat.pow 2 64 then .ok n else .error (.wrongValue (.integer n) kind.label)
  | .int (.negSucc n) => .error (.wrongValue (.integer (.negSucc n)) kind.label)
  | .double d => .error (.wrongType (.floating d) kind.label)

/-- A point in time. -/
def decodeTime (s : String) : Except Mismatch Timestamp :=
  match Timestamp.parse s with
  | .ok t => .ok t
  | .error f => .error (.badTime f)

/-- How a message names a point in time. -/
def timeLabel : String := "an RFC 3339 formatted date and time string"

/-- How a message names the length that a record has as a list. -/
def elementsLabel (name : String) (n : Nat) : String :=
  "struct " ++ name ++ " with " ++ toString n ++ (if n == 1 then " element" else " elements")

end Shape

namespace Field

/-- The value of a field that was not met. -/
def absent {α : Type} (f : Field) (decode : Json → Except Mismatch α) : Except Mismatch α :=
  match f.presence with
  | .required => .error (.missingField f.name)
  | .optional => decode .null
  | .default d => decode d

/-- The value of a field from its slot. -/
def fromSlot {α : Type} (f : Field) (decode : Json → Except Mismatch α) :
    Option α → Except Mismatch α
  | some v => .ok v
  | none => absent f decode

/-- The value of a field from what is left of a list of fields. -/
def fromItems {α : Type} (f : Field) (decode : Json → Except Mismatch α) (short : Mismatch) :
    List Json → Except Mismatch α
  | j :: _ => decode j
  | [] =>
    match f.presence with
    | .default d => decode d
    | _ => .error short

end Field

mutual

/-- The value of a shape that a JSON value stands for. -/
def Shape.decode : (s : Shape) → Json → Except Mismatch s.Value
  | .text, j =>
    match j with
    | .str t => .ok t
    | j => .error (.wrongType (.ofJson j) "a string")
  | .natural kind, j =>
    match j with
    | .num n => Shape.decodeNatural kind n
    | j => .error (.wrongType (.ofJson j) kind.label)
  | .flag, j =>
    match j with
    | .bool b => .ok b
    | j => .error (.wrongType (.ofJson j) "a boolean")
  | .any, j => .ok j
  | .object, j =>
    match j with
    | .obj members => .ok members
    | j => .error (.wrongType (.ofJson j) "a map")
  | .time, j =>
    match j with
    | .str t => Shape.decodeTime t
    | j => .error (.wrongType (.ofJson j) Shape.timeLabel)
  | .option s, j =>
    match j with
    | .null => .ok none
    | j =>
      match s.decode j with
      | .ok v => .ok (some v)
      | .error m => .error m
  | .list s, j =>
    match j with
    | .arr items => items.mapM fun i => s.decode i
    | j => .error (.wrongType (.ofJson j) "a sequence")
  | .choice variants, j => Shape.decodeChoice variants j
  | .record name fields, j =>
    match j with
    | .obj members =>
      match members.foldlM (fun slots m => fields.place m.1 m.2 slots) fields.noSlots with
      | .error m => .error m
      | .ok slots => fields.fill slots
    | .arr items => fields.decodeItems name fields.length items.length 0 items
    | j => .error (.wrongType (.ofJson j) ("struct " ++ name))

/-- Puts a member into the slot of its field. -/
def Fields.place : (fields : Fields) → String → Json → fields.Slots → Except Mismatch fields.Slots
  | .nil, _, _, slots => .ok slots
  | .cons f s rest, key, j, (slot, slots) =>
    if f.accepts key then
      match slot with
      | some _ => .error (.duplicateField f.name)
      | none =>
        match s.decode j with
        | .ok v => .ok (some v, slots)
        | .error m => .error m
    else
      match rest.place key j slots with
      | .ok slots => .ok (slot, slots)
      | .error m => .error m

/-- The values of all fields, given those that were met. -/
def Fields.fill : (fields : Fields) → fields.Slots → Except Mismatch fields.Values
  | .nil, _ => .ok ()
  | .cons f s rest, (slot, slots) =>
    match f.fromSlot (fun j => s.decode j) slot with
    | .error m => .error m
    | .ok v =>
      match rest.fill slots with
      | .ok vs => .ok (v, vs)
      | .error m => .error m

/-- The values of fields given as a list.  `size` is the number of fields of the whole record,
`given` the length of the whole list and `index` the place of the next field. -/
def Fields.decodeItems (name : String) (size given : Nat) :
    Nat → (fields : Fields) → List Json → Except Mismatch fields.Values
  | _, .nil, items =>
    if items.isEmpty then .ok ()
    else .error (.wrongLength given "fewer elements in array")
  | index, .cons f s rest, items =>
    match f.fromItems (fun j => s.decode j)
        (.wrongLength index (Shape.elementsLabel name size)) items with
    | .error m => .error m
    | .ok v =>
      match Fields.decodeItems name size given (index + 1) rest items.tail with
      | .ok vs => .ok (v, vs)
      | .error m => .error m

end

/-- The value of a type of the library that a JSON value stands for. -/
def decode (α : Type) [Shaped α] (j : Json) : Except Mismatch α :=
  match (Shaped.shape α).decode j with
  | .ok v => .ok (Shaped.ofValue v)
  | .error m => .error m

end Workbench
