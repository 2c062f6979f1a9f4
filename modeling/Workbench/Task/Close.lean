import Workbench.Session.Registry
import Workbench.Task.Progress

/-!
# Closing sessions

Whoever moves a session to its closed state owns its release: the release is queued behind the jobs
that wait, the worker is asked to stop after it, and the session is forgotten.

* `Release` waits for the release and for the end of the worker, each for a limited time;
* `Closing` is a close that the caller waits for, `Termination` one that waits for nothing.

Both answer at once for a session that somebody else is closing or has closed lately.
-/

namespace Workbench

/-! ## 1. The release of a closed session -/

/-- The stages of a release that is waited for. -/
inductive Release where
  | queue
  | awaitAnswer (ticket : Nat)
  | shutdown
  | beginAwaitEnd
  | awaitEnd
  | forget
  deriving DecidableEq, Repr

namespace Release

variable {ρ : Type}

/-- A step of the release of the session at a seat.  A worker that does not take the job any more
gets none. -/
def step (r : Registry ρ) (seat : Nat) (stage : Release) : Progress (Registry ρ) Release Unit :=
  match r.session? seat with
  | none => .done r ()
  | some s =>
    match stage with
    | queue =>
      match s.worker.submit false .release with
      | (_, .error _) => .next r shutdown
      | (w, .ok ticket) => .next (r.put seat { s with worker := w }) (awaitAnswer ticket)
    | awaitAnswer ticket =>
      match s.worker.outcome? ticket with
      | none => .wait
      | some _ => .next r shutdown
    | shutdown => .next (r.put seat { s with worker := s.worker.shutdown }) beginAwaitEnd
    | beginAwaitEnd =>
      if s.worker.awaited then .next r forget
      else .next (r.put seat { s with worker := s.worker.awaitEnd }) awaitEnd
    | awaitEnd => if s.worker.hasEnded then .next r forget else .wait
    | forget => .done (r.forget s.id) ()

/-- The stage after one whose time is up. -/
def expire? : Release → Option Release
  | awaitAnswer _ => some shutdown
  | awaitEnd => some forget
  | _ => none

/-- The release waits for something at this stage. -/
def isWaiting : Release → Bool
  | awaitAnswer _ => true
  | awaitEnd => true
  | _ => false

/-- The release can be cut off at this stage: it waits for something, or for the registry. -/
def isPoint : Release → Bool
  | forget => true
  | stage => stage.isWaiting

end Release

/-! ## 2. A close that is waited for -/

/-- The stages of a close. -/
inductive Closing where
  | lookup
  | lookBack
  | begin (seat : Nat)
  | release (seat : Nat) (stage : Release)
  deriving DecidableEq, Repr

namespace Closing

variable {ρ : Type}

/-- The answer for a session that is not listed. -/
def late (r : Registry ρ) (id : String) : Except SessionError Unit :=
  if r.remembers id then .ok () else .error (.notFound id)

/-- A step of closing the session with an identifier. -/
def step (r : Registry ρ) (id : String) (stage : Closing) :
    Progress (Registry ρ) Closing (Except SessionError Unit) :=
  match stage with
  | lookup =>
    match r.seat? id with
    | some seat => .next r (begin seat)
    | none => .next r lookBack
  | lookBack => .done r (late r id)
  | begin seat =>
    match r.session? seat with
    | none => .done r (.ok ())
    | some s =>
      match s.beginClose with
      | (s, true) => .next (r.put seat s) (release seat .queue)
      | (_, false) => .done r (.ok ())
  | release seat stage => (stage.step r seat).lastly (release seat) Except.ok

/-- The stage after one whose time is up. -/
def expire? : Closing → Option Closing
  | release seat stage => stage.expire?.map (release seat)
  | _ => none

/-- The close waits for something at this stage. -/
def isWaiting : Closing → Bool
  | release _ stage => stage.isWaiting
  | _ => false

end Closing

/-! ## 3. A close that waits for nothing -/

/-- The stages of a termination. -/
inductive Termination where
  | lookup
  | lookBack
  | begin (seat : Nat)
  | forget (seat : Nat) (won : Bool)
  | queue (seat : Nat)
  | shutdown (seat : Nat)
  deriving DecidableEq, Repr

namespace Termination

variable {ρ : Type}

/-- A step of terminating the session with an identifier. -/
def step (r : Registry ρ) (id : String) (stage : Termination) :
    Progress (Registry ρ) Termination (Except SessionError Unit) :=
  match stage with
  | lookup =>
    match r.seat? id with
    | some seat => .next r (begin seat)
    | none => .next r lookBack
  | lookBack => .done r (Closing.late r id)
  | begin seat =>
    match r.session? seat with
    | none => .done r (.ok ())
    | some s =>
      match s.beginClose with
      | (s, won) => .next (r.put seat s) (forget seat won)
  | forget seat won =>
    if won then .next (r.forget id) (queue seat) else .done (r.forget id) (.ok ())
  | queue seat =>
    .next (r.update seat fun s => { s with worker := (s.worker.submit false .release).1 })
      (shutdown seat)
  | shutdown seat =>
    .done (r.update seat fun s => { s with worker := s.worker.shutdown }) (.ok ())

end Termination
end Workbench
