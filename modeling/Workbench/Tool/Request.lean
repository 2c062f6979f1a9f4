import Workbench.Shape.Decode
import Workbench.Shape.Schema
import Workbench.Tool.Error
import Workbench.Tool.Registry

/-!
# Requests

The arguments that each tool takes, as types, and the schemas that publish them.
-/

namespace Workbench

namespace Field

/-- The session of a call. -/
def sessionId : Field :=
  .required "session_id" ["sessionId"] "Session id returned by create_session"

/-- How long the caller waits. -/
def timeoutSecs : Field :=
  .optional "timeout_secs" [] "Timeout in seconds for this operation (default: 120, max: 600)"

end Field

/-! ## 1. The types -/

/-- The arguments of a tool that needs none. -/
structure EmptyParams where
  deriving DecidableEq, Repr

instance : Shaped EmptyParams where
  shape := .record "EmptyParams" .nil
  toValue _ := ()
  ofValue _ := ⟨⟩
  ofValue_toValue _ := rfl
  toValue_ofValue _ := rfl

/-- The arguments that start a session. -/
structure CreateSessionRequest where
  metadata : Option Json
  deriving DecidableEq, Repr

instance : Shaped CreateSessionRequest where
  shape := .record "CreateSessionRequest" (.ofList
    [(.optional "metadata" []
        "Caller metadata object, stored with the session and returned verbatim", .option .any)])
  toValue r := (r.metadata, ())
  ofValue v := ⟨v.1⟩
  ofValue_toValue _ := rfl
  toValue_ofValue _ := rfl

/-- The arguments of a tool that needs no more than a session. -/
structure SessionRequest where
  sessionId : String
  timeoutSecs : Option Nat
  deriving DecidableEq, Repr

instance : Shaped SessionRequest where
  shape := .record "SessionRequest" (.ofList
    [(Field.sessionId, .text),
      (Field.timeoutSecs, .option (.natural .plain))])
  toValue r := (r.sessionId, r.timeoutSecs, ())
  ofValue v := ⟨v.1, v.2.1⟩
  ofValue_toValue _ := rfl
  toValue_ofValue _ := rfl

/-- The arguments that open a project. -/
structure OpenProjectRequest where
  sessionId : String
  projectPath : String
  projectName : Option String
  timeoutSecs : Option Nat
  deriving DecidableEq, Repr

instance : Shaped OpenProjectRequest where
  shape := .record "OpenProjectRequest" (.ofList
    [(Field.sessionId, .text),
      (.required "project_path" ["path"]
        "Path to an .ap* project file or to a directory holding projects", .text),
      (.optional "project_name" ["name"]
        "Project name inside project_path (optional when project_path is an .ap* file)",
        .option .text),
      (Field.timeoutSecs, .option (.natural .plain))])
  toValue r := (r.sessionId, r.projectPath, r.projectName, r.timeoutSecs, ())
  ofValue v := ⟨v.1, v.2.1, v.2.2.1, v.2.2.2.1⟩
  ofValue_toValue _ := rfl
  toValue_ofValue _ := rfl

/-- The arguments that close a project. -/
structure CloseProjectRequest where
  sessionId : String
  save : Option Bool
  timeoutSecs : Option Nat
  deriving DecidableEq, Repr

instance : Shaped CloseProjectRequest where
  shape := .record "CloseProjectRequest" (.ofList
    [(Field.sessionId, .text),
      (.optional "save" []
        "Save unsaved changes before closing (default: true)", .option .flag),
      (Field.timeoutSecs, .option (.natural .plain))])
  toValue r := (r.sessionId, r.save, r.timeoutSecs, ())
  ofValue v := ⟨v.1, v.2.1, v.2.2.1⟩
  ofValue_toValue _ := rfl
  toValue_ofValue _ := rfl

/-- The arguments that list blocks. -/
structure ListBlocksRequest where
  sessionId : String
  blockType : Option String
  timeoutSecs : Option Nat
  deriving DecidableEq, Repr

instance : Shaped ListBlocksRequest where
  shape := .record "ListBlocksRequest" (.ofList
    [(Field.sessionId, .text),
      (.optional "block_type" ["type"]
        "Only return blocks of this type (OB, FB, FC, DB, UDT, SCL)", .option .text),
      (Field.timeoutSecs, .option (.natural .plain))])
  toValue r := (r.sessionId, r.blockType, r.timeoutSecs, ())
  ofValue v := ⟨v.1, v.2.1, v.2.2.1⟩
  ofValue_toValue _ := rfl
  toValue_ofValue _ := rfl

/-- The arguments that export blocks. -/
structure ExportBlocksRequest where
  sessionId : String
  blockNames : Option (List String)
  outputPath : Option String
  timeoutSecs : Option Nat
  deriving DecidableEq, Repr

instance : Shaped ExportBlocksRequest where
  shape := .record "ExportBlocksRequest" (.ofList
    [(Field.sessionId, .text),
      (.optional "block_names" ["names", "blocks"]
        "Blocks to export; omit to export every block", .option (.list .text)),
      (.optional "output_path" ["output_dir"]
        "Output directory (default: configured export path)", .option .text),
      (Field.timeoutSecs, .option (.natural .plain))])
  toValue r := (r.sessionId, r.blockNames, r.outputPath, r.timeoutSecs, ())
  ofValue v := ⟨v.1, v.2.1, v.2.2.1, v.2.2.2.1⟩
  ofValue_toValue _ := rfl
  toValue_ofValue _ := rfl

/-- The arguments that import block files. -/
structure ImportBlocksRequest where
  sessionId : String
  paths : List String
  targetFolder : Option String
  timeoutSecs : Option Nat
  deriving DecidableEq, Repr

instance : Shaped ImportBlocksRequest where
  shape := .record "ImportBlocksRequest" (.ofList
    [(Field.sessionId, .text),
      (.required "paths" ["xml_paths", "files"]
        "Block files to import (.xml, .scl, .udt, .db)", .list .text),
      (.optional "target_folder" []
        "Folder inside the project to import into", .option .text),
      (Field.timeoutSecs, .option (.natural .plain))])
  toValue r := (r.sessionId, r.paths, r.targetFolder, r.timeoutSecs, ())
  ofValue v := ⟨v.1, v.2.1, v.2.2.1, v.2.2.2.1⟩
  ofValue_toValue _ := rfl
  toValue_ofValue _ := rfl

/-- The arguments that search the tools. -/
structure ToolCatalogRequest where
  query : Option String
  category : Option String
  limit : Option Nat
  deriving DecidableEq, Repr

instance : Shaped ToolCatalogRequest where
  shape := .record "ToolCatalogRequest" (.ofList
    [(.optional "query" []
        "What you're trying to accomplish (e.g., 'export all blocks')", .option .text),
      (.optional "category" []
        "Filter by category: session, project, blocks, discovery", .option .text),
      (.optional "limit" []
        "Maximum number of tools to return (default: 7)", .option (.natural .size))])
  toValue r := (r.query, r.category, r.limit, ())
  ofValue v := ⟨v.1, v.2.1, v.2.2.1⟩
  ofValue_toValue _ := rfl
  toValue_ofValue _ := rfl

/-- The arguments that ask for the documentation of a tool. -/
structure ToolHelpRequest where
  name : String
  deriving DecidableEq, Repr

instance : Shaped ToolHelpRequest where
  shape := .record "ToolHelpRequest" (.ofList
    [(.required "name" []
        "Name of the tool to get help for", .text)])
  toValue r := (r.name, ())
  ofValue v := ⟨v.1⟩
  ofValue_toValue _ := rfl
  toValue_ofValue _ := rfl

/-! ## 2. Arguments and schemas -/

namespace Tool

/-- The arguments of a call as a request. -/
def parseArguments (α : Type) [Shaped α] (arguments : Json) : Except ToolError α :=
  match decode α arguments with
  | .ok a => .ok a
  | .error m => .error (.ofMismatch m)

/-- The shape of the arguments of a tool. -/
def shape? (name : String) : Option Shape :=
  if name == "create_session" then some (Shaped.shape CreateSessionRequest)
  else if name == "list_sessions" then some (Shaped.shape EmptyParams)
  else if name == "session_info" || name == "close_session" || name == "terminate_session" ||
      name == "save_project" || name == "get_project_info" then
    some (Shaped.shape SessionRequest)
  else if name == "open_project" then some (Shaped.shape OpenProjectRequest)
  else if name == "close_project" then some (Shaped.shape CloseProjectRequest)
  else if name == "list_blocks" then some (Shaped.shape ListBlocksRequest)
  else if name == "export_blocks" then some (Shaped.shape ExportBlocksRequest)
  else if name == "import_blocks" then some (Shaped.shape ImportBlocksRequest)
  else if name == "tool_catalog" then some (Shaped.shape ToolCatalogRequest)
  else if name == "tool_help" then some (Shaped.shape ToolHelpRequest)
  else none

/-- The schema of the arguments of a tool. -/
def schema? (name : String) : Option Json := (shape? name).map Shape.schema

end Tool
end Workbench
