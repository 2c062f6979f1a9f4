import Workbench.Files.Fault
import Workbench.Shape.Mismatch

/-!
# Tool errors

Why a tool call failed, the wording of each reason, and the code that stays the same when a wording
changes.
-/

namespace Workbench

/-- Why a tool call failed. -/
inductive ToolError where
  | sessionNotFound (id : String)
  | capacityExceeded (limit : Nat)
  | preconditionNotMet (reason : String)
  | workerClosed
  | workerFaulted
  | busy (pending : Nat)
  | timeout (after : Duration)
  | sessionInitFailed (reason : String)
  | unknownTool (name : String)
  | invalidParams (reason : String)
  | invalidPath (reason : String)
  | noProjectOpen
  | projectAlreadyOpen (name : String)
  | projectNotFound (path : String)
  | io (reason : String)
  | backend (reason : String)
  deriving DecidableEq, Repr

namespace ToolError

/-- The wording of an error. -/
def message : ToolError → String
  | sessionNotFound id => "Session not found: " ++ id
  | capacityExceeded limit =>
    "Maximum sessions (" ++ toString limit ++ ") reached. Close an existing session first."
  | preconditionNotMet reason => "Precondition not met: " ++ reason
  | workerClosed => "Session worker is closed"
  | workerFaulted => "Session worker faulted; the session was closed, create a new one"
  | busy pending => "Session worker queue is full (" ++ toString pending ++ " pending operations)"
  | timeout after => "Operation timed out after " ++ after.text ++ " (it may still be running)"
  | sessionInitFailed reason => "Failed to initialize session: " ++ reason
  | unknownTool name => "Unknown tool: " ++ name
  | invalidParams reason => "Invalid parameters: " ++ reason
  | invalidPath reason => "Invalid path: " ++ reason
  | noProjectOpen => "No project is currently open"
  | projectAlreadyOpen name => "A project is already open: " ++ name ++ ". Use close_project first."
  | projectNotFound path => "Project not found: " ++ path
  | io reason => "I/O error: " ++ reason
  | backend reason => "Engineering backend error: " ++ reason

/-- The stable code of an error. -/
def code : ToolError → String
  | sessionNotFound _ => "session_not_found"
  | capacityExceeded _ => "capacity_exceeded"
  | preconditionNotMet _ => "precondition_not_met"
  | workerClosed => "bridge_closed"
  | workerFaulted => "bridge_faulted"
  | busy _ => "busy"
  | timeout _ => "timeout"
  | sessionInitFailed _ => "session_init_failed"
  | unknownTool _ => "unknown_tool"
  | invalidParams _ | invalidPath _ => "invalid_params"
  | noProjectOpen | projectAlreadyOpen _ | projectNotFound _ | io _ | backend _ =>
    "handler_failure"

/-- The error of a file operation. -/
def ofFileFault (f : FileFault) : ToolError := .io f.message

/-- The error of arguments that do not have the shape of a request. -/
def ofMismatch (m : Mismatch) : ToolError := .invalidParams m.message

end ToolError
end Workbench
