import Workbench.Tool.Error

/-!
# Worker errors

Why a worker did not take an operation, or why its caller did not get an answer.
-/

namespace Workbench

/-- Why an operation has no answer. -/
inductive WorkerError where
  | closed
  | faulted
  | busy (pending : Nat)
  | timeout (after : Duration)
  | spawn (reason : String)
  | initFailed (reason : String)
  deriving DecidableEq, Repr

namespace WorkerError

/-- The wording of an error. -/
def message : WorkerError → String
  | closed => "bridge is closed"
  | faulted => "bridge worker faulted"
  | busy pending => "bridge queue is full (" ++ toString pending ++ " pending)"
  | timeout after => "timed out after " ++ after.text
  | spawn reason => "failed to spawn worker thread: " ++ reason
  | initFailed reason => "resource initialization failed: " ++ reason

/-- The error that a tool call reports. -/
def toToolError : WorkerError → ToolError
  | closed => .workerClosed
  | faulted => .workerFaulted
  | busy pending => .busy pending
  | timeout after => .timeout after
  | spawn reason => .sessionInitFailed reason
  | initFailed reason => .sessionInitFailed reason

end WorkerError
end Workbench
