import Workbench.Project.Operation
import Workbench.Shape.Encode
import Workbench.Tool.Envelope
import Workbench.Tool.Request

/-!
# Plans

A tool that works on the resource of its session is one operation and the presentation of its
answer.  The plan of a call is made from its arguments alone; arguments that do not fit ask nothing
of the resource.
-/

namespace Workbench

/-- What plans may consult. -/
structure PlanContext where
  /-- Where blocks are exported to if the call does not say. -/
  exportDir : Path
  home : Option String
  deriving DecidableEq, Repr

/-- An operation and what is told of its answer. -/
structure Plan where
  operation : Operation
  present : operation.Answer → ToolOutput

/-- How the arguments of a tool become a plan. -/
abbrev Planner := PlanContext → Json → Except ToolError Plan

namespace Plan

/-- What is told of the open project. -/
def describe (verb : String) (info : ProjectInfo) : ToolOutput :=
  ⟨verb ++ " " ++ info.name, encode info⟩

/-- The plan of `open_project`. -/
def openProject : Planner := fun context arguments =>
  match Tool.parseArguments OpenProjectRequest arguments with
  | .error e => .error e
  | .ok r =>
    if Text.allBlank r.projectPath then .error (.invalidParams "project_path is empty")
    else
      .ok ⟨.openProject (Path.expandHome context.home r.projectPath) r.projectName,
        describe "Opened project"⟩

/-- The plan of `close_project`. -/
def closeProject : Planner := fun _ arguments =>
  match Tool.parseArguments CloseProjectRequest arguments with
  | .error e => .error e
  | .ok r =>
    let saving := r.save.getD true
    .ok ⟨.closeProject saving, fun (name : String) =>
      ⟨"Closed project " ++ name,
        Json.object [("closed", .str name), ("saved", .bool saving)]⟩⟩

/-- The plan of `save_project`. -/
def saveProject : Planner := fun _ arguments =>
  match Tool.parseArguments SessionRequest arguments with
  | .error e => .error e
  | .ok _ => .ok ⟨.saveProject, describe "Saved project"⟩

/-- The plan of `get_project_info`. -/
def projectInfo : Planner := fun _ arguments =>
  match Tool.parseArguments SessionRequest arguments with
  | .error e => .error e
  | .ok _ => .ok ⟨.projectInfo, describe "Project"⟩

/-- The blocks of a type, in any case; all of them if the type is not said. -/
def ofKind (kind : Option String) (blocks : List BlockInfo) : List BlockInfo :=
  match kind.filter fun k => !Text.allBlank k with
  | none => blocks
  | some k =>
    blocks.filter fun b => Text.asciiLower b.blockType == Text.asciiLower (Text.trim k)

/-- The plan of `list_blocks`. -/
def listBlocks : Planner := fun _ arguments =>
  match Tool.parseArguments ListBlocksRequest arguments with
  | .error e => .error e
  | .ok r =>
    .ok ⟨.listBlocks, fun (blocks : List BlockInfo) =>
      let blocks := ofKind r.blockType blocks
      ⟨"Found " ++ toString blocks.length ++ " blocks",
        Json.object [("count", Json.nat blocks.length), ("blocks", .arr (blocks.map encode))]⟩⟩

/-- How many items of a batch succeeded. -/
def tally (verb : String) (s : BatchSummary) : String :=
  verb ++ " " ++ toString s.succeeded ++ " of " ++ toString s.total ++ " blocks"

/-- The plan of `export_blocks`. -/
def exportBlocks : Planner := fun context arguments =>
  match Tool.parseArguments ExportBlocksRequest arguments with
  | .error e => .error e
  | .ok r =>
    let output := (r.outputPath.map (Path.expandHome context.home)).getD context.exportDir
    .ok ⟨.exportBlocks r.blockNames output, fun (report : ExportReport) =>
      ⟨tally "Exported" report.summary, encode report⟩⟩

/-- The plan of `import_blocks`. -/
def importBlocks : Planner := fun context arguments =>
  match Tool.parseArguments ImportBlocksRequest arguments with
  | .error e => .error e
  | .ok r =>
    if r.paths.isEmpty then .error (.invalidParams "paths is empty")
    else
      .ok ⟨.importBlocks (r.paths.map (Path.expandHome context.home)) r.targetFolder,
        fun (report : ImportReport) => ⟨tally "Imported" report.summary, encode report⟩⟩

end Plan

namespace Tool

/-- How the arguments of a tool that works on the resource become a plan; nothing for any other
tool. -/
def planner? (name : String) : Option Planner :=
  if name == "open_project" then some Plan.openProject
  else if name == "close_project" then some Plan.closeProject
  else if name == "save_project" then some Plan.saveProject
  else if name == "get_project_info" then some Plan.projectInfo
  else if name == "list_blocks" then some Plan.listBlocks
  else if name == "export_blocks" then some Plan.exportBlocks
  else if name == "import_blocks" then some Plan.importBlocks
  else none

end Tool
end Workbench
