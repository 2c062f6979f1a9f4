import Workbench.Tool.Plan
import Workbench.Worker.Basic

/-!
# Backends

A session owns one resource, and a backend says what becomes of it: how it is built, what the
operations on it come to, and how it is released.  All of that may depend on surroundings that the
resources share, such as a file system.

* `Job` is what a session queues for its worker, `Ending` is how a job ends;
* `Backend` decides both, `Backend.run` carries out a job;
* `Workspace.backend` is the backend of projects on a disk.
-/

namespace Workbench

/-! ## 1. Jobs -/

/-- What the worker of a session is asked to do. -/
inductive Job where
  /-- A call of a tool that works on the resource. -/
  | tool (info : ToolInfo) (arguments : Json)
  /-- The resource is given back; nothing is asked of it afterwards. -/
  | release
  deriving DecidableEq, Repr

/-- What a job answers.  The answer to a release is empty. -/
abbrev JobAnswer := Except ToolError ToolOutput

/-- How a job leaves the resource, and what it comes to. -/
structure Ending (ρ A : Type) where
  resource : ρ
  /-- Nothing if the job crashed. -/
  result : Option (Except ToolError A)

namespace Ending

variable {ρ A B : Type}

/-- The ending of a job that does not crash. -/
def value (resource : ρ) (result : Except ToolError A) : Ending ρ A := ⟨resource, some result⟩

/-- An ending with another presentation of its success. -/
def map (f : A → B) (e : Ending ρ A) : Ending ρ B := ⟨e.resource, e.result.map (·.map f)⟩

end Ending

/-- Why a resource could not be built. -/
inductive BuildFault where
  | refused (error : ToolError)
  | crashed (crash : Crash)
  deriving DecidableEq, Repr

namespace BuildFault

/-- The wording of a failed construction. -/
def message : BuildFault → String
  | refused error => error.message
  | crashed crash => crash.message

end BuildFault

/-! ## 2. Backends -/

/-- A kind of resource in surroundings `σ`.  Sessions are told apart by their seats.  Each function
tries to come to an end: it gives the surroundings afterwards, and nothing else while the end is not
reached. -/
structure Backend (ρ σ : Type) where
  build : (seat : Nat) → (surroundings : σ) → σ × Option (Except BuildFault ρ)
  operate : (seat : Nat) → (op : Operation) → (resource : ρ) → (surroundings : σ) →
    (now : Timestamp) → σ × Option (Ending ρ op.Answer)
  release : (seat : Nat) → (resource : ρ) → (surroundings : σ) → (now : Timestamp) →
    σ × Option (Ending ρ Unit)

namespace Backend

variable {ρ σ : Type}

/-- Carries out a job.  Arguments that do not fit the tool ask nothing of the resource. -/
def run (b : Backend ρ σ) (context : PlanContext) (seat : Nat) (job : Job) (resource : ρ)
    (surroundings : σ) (now : Timestamp) : σ × Option (Ending ρ ToolOutput) :=
  match job with
  | .release =>
    let (surroundings, ending) := b.release seat resource surroundings now
    (surroundings, ending.map (·.map fun () => ⟨"", .null⟩))
  | .tool info arguments =>
    match Tool.planner? info.name with
    | none => (surroundings, some (.value resource (.error (.unknownTool info.name))))
    | some planner =>
      match planner context arguments with
      | .error e => (surroundings, some (.value resource (.error e)))
      | .ok plan =>
        let (surroundings, ending) := b.operate seat plan.operation resource surroundings now
        (surroundings, ending.map (·.map plan.present))

end Backend

/-- Projects on a disk: nothing crashes, and every operation ends. -/
def Workspace.backend : Backend Workspace Disk where
  build _ disk := (disk, some (.ok .empty))
  operate _ op workspace disk now :=
    let o := workspace.perform op disk now
    (o.disk, some (.value o.workspace o.result))
  release _ workspace disk now :=
    let o := workspace.release disk now
    (o.disk, some (.value o.workspace o.result))

end Workbench
