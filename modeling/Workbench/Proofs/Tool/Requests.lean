import Workbench.Proofs.Shape.Arguments
import Workbench.Tool.Request

/-!
# The arguments of tools and their schemas

The schema of the arguments of a tool and the decoder of its request are made from one table of
fields, each in its own way.  `DecodedBySchema` says that they describe the same: which members are
decoded at all, which values come out, and which members do not matter.

* `isRequest_of_shape?`: the arguments of every tool are a record of arguments, and no two of its
  fields share a name;
* `decodedBySchema_of_shape?`: **the arguments of every tool are decoded as its schema says**.
-/

namespace Workbench

/-! ## 1. Requests -/

namespace Shape

/-- The fields of a record. -/
def fieldList : Shape → List Field
  | .record _ fields => fields.list
  | _ => []

/-- The values of the fields of a record are those of their members. -/
def CarriesMembers (members : List (String × Json)) : (s : Shape) → s.Value → Prop
  | .record _ fields, vs => fields.Carry members vs
  | _, _ => False

/-- The shape of a request: a record of arguments, no two of which share a name. -/
def IsRequest : Shape → Prop
  | .record _ fields => fields.Distinct ∧ fields.areArguments = true
  | _ => False

end Shape

theorem Fields.any_accepts (key : String) : (fields : Fields) →
    (fields.list.any fun f => f.accepts key) = fields.knows key
  | .nil => rfl
  | .cons f s rest => by
    have hcons : ((Fields.cons f s rest).list.any fun f => f.accepts key) =
        (f.accepts key || rest.list.any fun f => f.accepts key) := List.any_cons
    rw [hcons, any_accepts key rest, Bool.eq_iff_iff, Bool.or_eq_true, Field.accepts_iff]
    simp only [knows, spellings, List.contains_iff_mem, List.mem_append]

theorem Tool.isRequest_of_shape? {tool : String} {s : Shape} (h : Tool.shape? tool = some s) :
    s.IsRequest := by
  unfold Tool.shape? at h
  repeat' split at h
  all_goals cases h
  all_goals exact ⟨by decide, by decide⟩

/-- The shapes of all types of requests. -/
def Tool.requestShapes : List Shape :=
  [Shaped.shape EmptyParams, Shaped.shape CreateSessionRequest, Shaped.shape SessionRequest,
    Shaped.shape OpenProjectRequest, Shaped.shape CloseProjectRequest,
    Shaped.shape ListBlocksRequest, Shaped.shape ExportBlocksRequest,
    Shaped.shape ImportBlocksRequest, Shaped.shape ToolCatalogRequest,
    Shaped.shape ToolHelpRequest]

/-- Every type of requests is that of a tool. -/
theorem Tool.exists_shape? : ∀ s ∈ Tool.requestShapes, ∃ tool, Tool.shape? tool = some s := by
  simp only [Tool.requestShapes, List.forall_mem_cons]
  exact ⟨⟨"list_sessions", rfl⟩, ⟨"create_session", rfl⟩, ⟨"session_info", rfl⟩,
    ⟨"open_project", rfl⟩, ⟨"close_project", rfl⟩, ⟨"list_blocks", rfl⟩, ⟨"export_blocks", rfl⟩,
    ⟨"import_blocks", rfl⟩, ⟨"tool_catalog", rfl⟩, ⟨"tool_help", rfl⟩,
    fun _ h => (List.not_mem_nil h).elim⟩

/-! ## 2. Decoded as the schema says -/

/-- **A type of requests is decoded as a schema says**, whatever the members are. -/
structure DecodedBySchema (α : Type) [Shaped α] (schema : Json) (members : List (String × Json)) :
    Prop where
  /-- What conforms to the schema is decoded, and nothing else. -/
  decodes : (∃ a, decode α (.obj members) = .ok a) ↔
    Conforms (Shaped.shape α).fieldList schema members
  /-- What comes out are the values of the members. -/
  carries : ∀ a, decode α (.obj members) = .ok a →
    (Shaped.shape α).CarriesMembers members (Shaped.toValue a)
  /-- Members under other names have no influence, also on what is wrong. -/
  known : decode α (.obj members) =
    decode α (.obj (members.filter fun m => (Shaped.shape α).fieldList.any fun f => f.accepts m.1))

section Requests

variable (members : List (String × Json))

theorem Shape.decodes_iff_conforms : {s : Shape} → s.IsRequest →
    ((∃ v, s.decode (.obj members) = .ok v) ↔ Conforms s.fieldList s.schema members)
  | .record name fields, ⟨hdis, harg⟩ => by
    have hdecode : (∃ v, (Shape.record name fields).decode (.obj members) = .ok v) ↔
        ∃ vs, fields.Stand members vs :=
      exists_congr fun _ => decode_obj_eq_ok_iff hdis
    exact hdecode.trans (conforms_iff hdis harg members)

theorem Shape.carriesMembers_of_decode : {s : Shape} → s.IsRequest → {v : s.Value} →
    s.decode (.obj members) = .ok v → s.CarriesMembers members v
  | .record _ _, ⟨hdis, harg⟩, _, h => Fields.carry_of_stand harg ((decode_obj_eq_ok_iff hdis).mp h)

theorem Shape.decode_known : {s : Shape} → s.IsRequest → s.decode (.obj members) =
    s.decode (.obj (members.filter fun m => s.fieldList.any fun f => f.accepts m.1))
  | .record name fields, _ => by
    simp only [fieldList, Fields.any_accepts]
    exact decode_obj_known name fields members

end Requests

/-- **The arguments of every tool are decoded as its schema says.** -/
theorem decodedBySchema_of_shape? {α : Type} [Shaped α] {tool : String} {schema : Json}
    (hshape : Tool.shape? tool = some (Shaped.shape α)) (hschema : Tool.schema? tool = some schema)
    (members : List (String × Json)) : DecodedBySchema α schema members := by
  have hrequest : (Shaped.shape α).IsRequest := Tool.isRequest_of_shape? hshape
  obtain rfl : (Shaped.shape α).schema = schema := by
    rw [Tool.schema?, hshape] at hschema
    exact Option.some.inj hschema
  refine ⟨?_, fun a h => ?_, ?_⟩
  · exact exists_decode_iff.trans (Shape.decodes_iff_conforms members hrequest)
  · exact Shape.carriesMembers_of_decode members hrequest (decode_eq_ok_iff.mp h)
  · rw [decode, Shape.decode_known members hrequest]
    rfl

/-- Arguments of `import_blocks`, with an alias for two of the fields, a null and a member under
another name. -/
theorem decodedBySchema_importBlocks :
    let members := [("files", .arr [.str "Main.scl"]), ("priority", Json.nat 1),
      ("sessionId", .str "3f2a"), ("target_folder", .null)]
    decode ImportBlocksRequest (.obj members) = .ok ⟨"3f2a", ["Main.scl"], none, none⟩ ∧
      DecodedBySchema ImportBlocksRequest (Shaped.shape ImportBlocksRequest).schema members :=
  ⟨by decide, @decodedBySchema_of_shape? _ _ "import_blocks" _ rfl rfl _⟩

end Workbench
