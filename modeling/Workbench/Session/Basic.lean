import Workbench.Session.Backend
import Workbench.Session.Error
import Workbench.Session.Info

/-!
# Sessions

A session is an identifier, the state of its life, and the worker that owns its resource.

* `touch`, `attach`, `detach`, `markSuspect` and `beginClose` are the steps of its life;
* `advance?` is a step of its worker, with what the end of a job means for the session;
* `isDue` says when a sweep closes the session.

A closed session stays closed: `attach` and `detach` do nothing to it.
-/

namespace Workbench

/-- A session.  Moments are counted in nanoseconds. -/
structure Session (ρ : Type) where
  id : String
  createdAt : Nat
  state : SessionState
  /-- The name of the project that was attached last, until it is detached. -/
  attached : Option String
  /-- When a job last ended; when the session was created, if none did. -/
  lastActivity : Nat
  /-- A call timed out and its job may still be running. -/
  suspect : Bool
  metadata : List (String × Json)
  worker : Worker ρ Job JobAnswer
  /-- The session is in the registry. -/
  listed : Bool
  deriving Repr

namespace Session

variable {ρ : Type}

/-- A session with a worker that has just been started. -/
def create (id : String) (metadata : List (String × Json)) (queueLimit now : Nat) : Session ρ :=
  ⟨id, now, .created, none, now, false, metadata, .spawn queueLimit, true⟩

/-! ## 1. Its life -/

/-- The session takes no more calls. -/
def isClosed (s : Session ρ) : Bool := s.state == .closed

/-- Notes that a job has ended. -/
def touch (s : Session ρ) (now : Nat) : Session ρ := { s with lastActivity := now }

/-- Notes that a project is open. -/
def attach (s : Session ρ) (label : String) : Session ρ :=
  if s.isClosed then s else { s with state := .resourceAttached, attached := some label }

/-- Notes that no project is open. -/
def detach (s : Session ρ) : Session ρ :=
  if s.isClosed then s else { s with state := .created, attached := none }

/-- Notes that a call timed out. -/
def markSuspect (s : Session ρ) : Session ρ := { s with suspect := true }

/-- Closes the session; whether it was open before. -/
def beginClose (s : Session ρ) : Session ρ × Bool :=
  if s.isClosed then (s, false) else ({ s with state := .closed }, true)

/-- How long no job has ended. -/
def idle (s : Session ρ) (now : Nat) : Duration := ⟨now - s.lastActivity⟩

/-- The session at a moment. -/
def info (s : Session ρ) (now : Nat) : SessionInfo where
  id := s.id
  state := s.state
  attached := s.attached
  createdAt := .ofNanos s.createdAt
  lastActivity := .ofNanos s.lastActivity
  ageSecs := Duration.seconds ⟨now - s.createdAt⟩
  idleSecs := (s.idle now).seconds
  suspect := s.suspect
  pendingOperations := s.worker.pending
  metadata := s.metadata

/-- A call timed out, or no job has ended for a time that is limited and used up. -/
def isStale (s : Session ρ) (idleTimeout : Duration) (now : Nat) : Bool :=
  s.suspect || (!idleTimeout.isZero && idleTimeout.nanos ≤ (s.idle now).nanos)

/-- A sweep closes the session: its worker faulted, or the worker is idle and the session stale. -/
def isDue (s : Session ρ) (idleTimeout : Duration) (now : Nat) : Bool :=
  s.worker.isFaulted || (s.worker.isIdle && s.isStale idleTimeout now)

/-! ## 2. Its worker -/

/-- The label of a project that a tool reports. -/
def label (out : ToolOutput) : String := ((out.data.get? "name").bind Json.str?).getD "project"

/-- The session after a job has ended.  A release changes nothing. -/
def record (s : Session ρ) (now : Nat) (job : Job) (answer : JobAnswer) : Session ρ :=
  match job with
  | .release => s
  | .tool info _ =>
    match answer with
    | .error _ => s.touch now
    | .ok out =>
      match info.onSuccess with
      | .none => s.touch now
      | .attach => (s.touch now).attach (label out)
      | .detach => (s.touch now).detach

/-- The session after a step of its worker; nothing where the step is not due. -/
def advance? (s : Session ρ) (now : Nat) (m : Worker.Move ρ JobAnswer) : Option (Session ρ) :=
  match s.worker.advance? m with
  | none => none
  | some w =>
    let t := { s with worker := w }
    match m, s.worker.phase with
    | .finish _ answer, .running _ _ job => some (t.record now job answer)
    | _, _ => some t

end Session
end Workbench
