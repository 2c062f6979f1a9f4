import Workbench.Shape.Basic

/-!
# Schemas

The JSON schema that publishes a shape.  A record lists the schemas of its fields as properties and
the names of those that must be there as required, in the order of the fields; either list is left
out when it is empty.
-/

namespace Workbench

/-- What a schema says when null is allowed besides: the type `T` becomes the list of `T` and
null. -/
def Shape.orNull (members : List (String × Json)) : List (String × Json) :=
  members.map fun m =>
    if m.1 == "type" then (m.1, .arr [m.2, .str "null"]) else m

mutual

/-- The members of the schema of a shape. -/
def Shape.schemaMembers : Shape → List (String × Json)
  | .text => [("type", .str "string")]
  | .natural kind =>
    [("format", .str kind.format), ("minimum", Json.nat 0), ("type", .str "integer")]
  | .flag => [("type", .str "boolean")]
  | .any => []
  | .object => [("type", .str "object")]
  | .time => [("format", .str "date-time"), ("type", .str "string")]
  | .option s => Shape.orNull s.schemaMembers
  | .list s => [("items", Json.object s.schemaMembers), ("type", .str "array")]
  | .choice variants => [("enum", Json.texts variants), ("type", .str "string")]
  | .record name fields =>
    let properties := fields.properties
    let required := fields.requiredNames
    [("title", .str name), ("type", .str "object")] ++
      (if properties.isEmpty then [] else [("properties", Json.object properties)]) ++
      (if required.isEmpty then [] else [("required", Json.texts required)])

/-- The schemas of fields under their names. -/
def Fields.properties : Fields → List (String × Json)
  | .nil => []
  | .cons f s rest =>
    let described :=
      match f.description with
      | some d => ("description", Json.str d) :: s.schemaMembers
      | none => s.schemaMembers
    (f.name, Json.object described) :: rest.properties

/-- The names of the fields that must be there. -/
def Fields.requiredNames : Fields → List String
  | .nil => []
  | .cons f _ rest =>
    match f.presence with
    | .required => f.name :: rest.requiredNames
    | _ => rest.requiredNames

end

/-- The schema of a shape. -/
def Shape.schema (s : Shape) : Json := Json.object s.schemaMembers

end Workbench
