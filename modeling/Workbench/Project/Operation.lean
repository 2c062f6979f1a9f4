import Workbench.Project.Workspace

/-!
# Operations

What a tool asks of the resource of its session, with the type of each answer, and the workspace as
one such resource.
-/

namespace Workbench

/-- What may be asked of the resource of a session. -/
inductive Operation where
  | openProject (path : Path) (name : Option String)
  | saveProject
  | closeProject (saving : Bool)
  | projectInfo
  | listBlocks
  | exportBlocks (names : Option (List String)) (output : Path)
  | importBlocks (files : List Path) (folder : Option String)
  deriving DecidableEq, Repr

/-- The answer to an operation that succeeds. -/
def Operation.Answer : Operation → Type
  | .openProject _ _ => ProjectInfo
  | .saveProject => ProjectInfo
  | .closeProject _ => String
  | .projectInfo => ProjectInfo
  | .listBlocks => List BlockInfo
  | .exportBlocks _ _ => ExportReport
  | .importBlocks _ _ => ImportReport

namespace Workspace

/-- An operation on a workspace. -/
def perform : (op : Operation) → (w : Workspace) → (d : Disk) → (now : Timestamp) →
    Outcome op.Answer
  | .openProject path name, w, d, _ => w.openProject d path name
  | .saveProject, w, d, now => w.save d now
  | .closeProject saving, w, d, now => w.closeProject d now saving
  | .projectInfo, w, d, _ => w.still d (w.info d)
  | .listBlocks, w, d, _ => w.still d (w.listBlocks d)
  | .exportBlocks names output, w, d, _ => w.exportBlocks d names output
  | .importBlocks files folder, w, d, _ => w.importBlocks d files folder

end Workspace
end Workbench
