import Workbench.Worker.Basic

/-!
# A crowd at one handle

Many callers can be at work on one handle.  What `Worker.submit` and `Worker.shutdown` do at once is
then a number of steps, with steps of the other callers and of the worker between them.

* A submission looks whether the worker has faulted, and enters when nobody else is inside.  There
  it finds the handle connected and room in the queue, counts its operation, and sends it.
* A shutdown takes the connection when nobody is inside.  After that it marks the worker as closed,
  and asks it to stop.

`Crowd.step?` is any of these steps.  The handle is there as long as anybody can be at work on it,
so the worker does not find it gone.
-/

namespace Workbench

namespace Worker

variable {ρ J A : Type}

/-- Takes the connection of the handle away. -/
def disconnect (w : Worker ρ J A) : Worker ρ J A := { w with connected := false }

/-- Marks the worker as closed, unless it is marked as faulted. -/
def markClosed (w : Worker ρ J A) : Worker ρ J A :=
  { w with health := if w.health == .running then .closed else w.health }

/-- Puts the request to stop into the queue, unless the worker has given the queue up. -/
def signalStop (w : Worker ρ J A) : Worker ρ J A :=
  { w with queue := if w.phase.listens then w.queue ++ [.stop] else w.queue }

end Worker

/-! ## 1. Callers -/

/-- The stages of a submission. -/
inductive Submission where
  | look
  | enter
  | weigh
  | count
  | send
  /-- The operation could not be sent, and is counted off again. -/
  | undo
  | lookAgain
  deriving DecidableEq, Repr

/-- The stages of a shutdown. -/
inductive Stopping where
  | take
  | mark
  | signal
  deriving DecidableEq, Repr

/-- A caller: at work on the handle, or done. -/
inductive Caller (J : Type) where
  | submit (bounded : Bool) (j : J) (stage : Submission)
  | shutdown (stage : Stopping)
  | told (answer : Except WorkerError Nat)
  | left
  deriving Repr

namespace Caller

variable {ρ J A : Type}

/-- The caller keeps all others out. -/
def isInside : Caller J → Bool
  | submit _ _ .look => false
  | submit _ _ .enter => false
  | submit _ _ _ => true
  | _ => false

/-- The caller can go on only if nobody is inside. -/
def needsRoom : Caller J → Bool
  | submit _ _ .enter => true
  | shutdown .take => true
  | _ => false

/-- The next step of a caller, with the worker and the caller afterwards. -/
def go? (w : Worker ρ J A) : Caller J → Option (Worker ρ J A × Caller J)
  | submit bounded j stage =>
    match stage with
    | .look => some (w, if w.isFaulted then told (.error .faulted) else submit bounded j .enter)
    | .enter => some (w, submit bounded j .weigh)
    | .weigh =>
      match w.barred? bounded with
      | some e => some (w, told (.error e))
      | none => some (w, submit bounded j .count)
    | .count => some (w.count, submit bounded j .send)
    | .send =>
      match w.send? j with
      | some sent => some (sent, told (.ok w.replies.length))
      | none => some (w, submit bounded j .undo)
    | .undo => some (w.uncount, submit bounded j .lookAgain)
    | .lookAgain => some (w, told (.error (if w.isFaulted then .faulted else .closed)))
  | shutdown stage =>
    match stage with
    | .take => some (if w.connected then (w.disconnect, shutdown .mark) else (w, left))
    | .mark => some (w.markClosed, shutdown .signal)
    | .signal => some (w.signalStop, left)
  | told _ => none
  | left => none

end Caller

/-! ## 2. Crowds -/

/-- A worker, and all who have come to its handle. -/
structure Crowd (ρ J A : Type) where
  worker : Worker ρ J A
  callers : List (Caller J)
  deriving Repr

namespace Crowd

variable {ρ J A : Type}

/-- A worker that has just been started. -/
def start (limit : Nat) : Crowd ρ J A := ⟨.spawn limit, []⟩

/-- What can happen: somebody comes, the caller at a place goes on, or the worker does. -/
inductive Event (ρ J A : Type) where
  | submit (bounded : Bool) (j : J)
  | shutdown
  | go (place : Nat)
  | move (m : Worker.Move ρ A)
  deriving DecidableEq, Repr

/-- Somebody is inside. -/
def isOccupied (c : Crowd ρ J A) : Bool := c.callers.any Caller.isInside

/-- The crowd after an event; nothing where the event is not possible. -/
def step? (c : Crowd ρ J A) : Event ρ J A → Option (Crowd ρ J A)
  | .submit bounded j => some { c with callers := c.callers ++ [.submit bounded j .look] }
  | .shutdown => some { c with callers := c.callers ++ [.shutdown .take] }
  | .go place =>
    match c.callers[place]? with
    | none => none
    | some caller =>
      if caller.needsRoom && c.isOccupied then none
      else (caller.go? c.worker).map fun (w, caller) => ⟨w, c.callers.set place caller⟩
  | .move .notice => none
  | .move m => (c.worker.advance? m).map fun w => { c with worker := w }

/-- The crowd after a list of events, if each of them was possible. -/
def run? (c : Crowd ρ J A) : List (Event ρ J A) → Option (Crowd ρ J A)
  | [] => some c
  | event :: rest =>
    match c.step? event with
    | some c => c.run? rest
    | none => none

end Crowd
end Workbench
