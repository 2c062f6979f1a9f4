import Workbench.Shape.Basic

/-!
# Encoding

`Shape.encode` writes a value of a shape as JSON.  `Fields.members` gives the members of a record in
the order of its fields; in the object they stand in the order of their keys.
-/

namespace Workbench

mutual

/-- The JSON value that stands for a value of a shape. -/
def Shape.encode : (s : Shape) → s.Value → Json
  | .text, t => .str t
  | .natural _, n => Json.nat n
  | .flag, b => .bool b
  | .any, j => j
  | .object, members => .obj members
  | .time, t => .str (Timestamp.text t)
  | .option s, v =>
    match v with
    | none => .null
    | some v => s.encode v
  | .list s, vs => .arr (List.map (fun v => s.encode v) vs)
  | .choice variants, i => .str (variants.get i)
  | .record _ fields, vs => Json.object (fields.members vs)

/-- The members that stand for the values of fields, in the order of the fields. -/
def Fields.members : (fields : Fields) → fields.Values → List (String × Json)
  | .nil, _ => []
  | .cons f s rest, (v, vs) =>
    if f.omitNull && s.encode v == .null then rest.members vs
    else (f.name, s.encode v) :: rest.members vs

end

/-- The JSON value that stands for a value of a shape; the members of the outermost record stay in
the order of its fields. -/
def Shape.encodeInOrder : (s : Shape) → s.Value → Json
  | .record _ fields, vs => .obj (fields.members vs)
  | s, v => s.encode v

/-- The JSON value that stands for a value of a type of the library. -/
def encode {α : Type} [Shaped α] (a : α) : Json :=
  (Shaped.shape α).encode (Shaped.toValue a)

end Workbench
