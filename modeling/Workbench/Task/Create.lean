import Workbench.Session.Registry
import Workbench.Task.Progress

/-!
# Starting sessions

A session is registered before its resource is built, so that it counts from then on.  If the
resource cannot be built, the session is closed and taken off the list, and nothing remembers it.
If not even a worker can be started, there is no session at all.
-/

namespace Workbench

/-- The stages of a start. -/
inductive Creation where
  | enter (metadata : List (String × Json))
  | awaitReady (seat : Nat)
  | beginClose (seat : Nat) (reason : String)
  | shutdown (seat : Nat) (reason : String)
  | remove (seat : Nat) (reason : String)
  deriving DecidableEq, Repr

namespace Creation

variable {ρ : Type}

/-- A step of starting a session. -/
def step (r : Registry ρ) (stage : Creation) :
    Progress (Registry ρ) Creation (Except SessionError SessionInfo) :=
  match stage with
  | enter metadata =>
    if r.isFull then .done r (.error (.capacityExceeded r.settings.maxConcurrent))
    else .next (r.register metadata) (awaitReady r.nextSeat)
  | awaitReady seat =>
    match r.session? seat with
    | none => .wait
    | some s =>
      match s.worker.readiness with
      | .building => .wait
      | .ready => .done r (.ok (s.info r.now))
      | .failed reason => .next r (beginClose seat (WorkerError.initFailed reason).message)
  | beginClose seat reason => .next (r.update seat (·.beginClose.1)) (shutdown seat reason)
  | shutdown seat reason =>
    .next (r.update seat fun s => { s with worker := s.worker.shutdown }) (remove seat reason)
  | remove seat reason =>
    .done
      (match r.session? seat with
        | some s => r.remove s.id
        | none => r)
      (.error (.initFailed reason))

/-- The end of a start for which no worker can be started, where one is asked for. -/
def refuse? (r : Registry ρ) (reason : String) :
    Creation → Option (Progress (Registry ρ) Creation (Except SessionError SessionInfo))
  | enter _ => if r.isFull then none else some (.done r (.error (.worker (.spawn reason))))
  | _ => none

end Creation
end Workbench
