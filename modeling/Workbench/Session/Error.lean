import Workbench.Worker.Error

/-!
# Session errors

Why a session could not be started, found or closed.
-/

namespace Workbench

/-- Why an operation on sessions failed. -/
inductive SessionError where
  | notFound (id : String)
  | capacityExceeded (limit : Nat)
  | initFailed (reason : String)
  | worker (error : WorkerError)
  deriving DecidableEq, Repr

namespace SessionError

/-- The wording of an error. -/
def message : SessionError → String
  | notFound id => "Session not found: " ++ id
  | capacityExceeded limit => "Maximum sessions (" ++ toString limit ++ ") reached"
  | initFailed reason => "Session initialization failed: " ++ reason
  | worker error => error.message

/-- The error that a tool call reports. -/
def toToolError : SessionError → ToolError
  | notFound id => .sessionNotFound id
  | capacityExceeded limit => .capacityExceeded limit
  | initFailed reason => .sessionInitFailed reason
  | worker error => error.toToolError

end SessionError
end Workbench
