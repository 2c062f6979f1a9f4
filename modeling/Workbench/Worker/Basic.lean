import Workbench.Worker.Error

/-!
# Workers

A worker owns one resource.  It builds the resource, runs the operations of its queue on it, one at
a time and in the order in which they were accepted, and drops it at its end.  Callers hold a
handle: they submit operations, ask for the state, and shut the worker down.

* `Worker` is the state of both sides; `J` is the type of operations and `A` that of their answers;
* `submit`, `shutdown`, `awaitEnd` and `abandon` are the calls of the handle, each one step;
* `Worker.advance?` gives the steps of the worker itself, each with what the outside decides: how
  the construction ended, and what an operation left and answered.

An operation that crashes ends the worker.  Its answer and those of the operations behind it are
lost, and the worker counts as faulted from then on.  A crash while the resource is dropped is
contained if the worker has faulted before; otherwise the worker goes without a word, and is not
faulted.
-/

namespace Workbench

/-! ## 1. The state -/

/-- How the handle sees the worker. -/
inductive Health where
  | running
  | closed
  | faulted
  deriving DecidableEq, Repr, Inhabited

/-- What a crash tells of itself. -/
inductive Crash where
  | text (s : String)
  | silent
  deriving DecidableEq, Repr

namespace Crash

/-- The wording of a crash. -/
def message : Crash → String
  | text s => s
  | silent => "non-string panic payload"

end Crash

/-- An entry of the queue: an operation under its ticket, or the request to stop. -/
inductive QueueItem (J : Type) where
  | job (ticket : Nat) (j : J)
  | stop
  deriving DecidableEq, Repr

/-- What has become of an accepted operation. -/
inductive Reply (A : Type) where
  | waiting
  | value (a : A)
  /-- The operation crashed or never ran. -/
  | lost
  deriving DecidableEq, Repr

/-- What has become of the construction. -/
inductive Readiness where
  | building
  | ready
  | failed (reason : String)
  deriving DecidableEq, Repr

/-- Where the worker stands. -/
inductive Phase (ρ J : Type) where
  /-- The resource is being built. -/
  | building
  /-- Between two operations. -/
  | resting (r : ρ)
  | running (r : ρ) (ticket : Nat) (j : J)
  /-- An operation crashed, and nobody was told yet. -/
  | crashed (r : ρ)
  /-- The queue is still there but is not looked at any more.  There is no resource if its
  construction failed. -/
  | leaving (r : Option ρ)
  /-- The queue is gone, the resource is not. -/
  | discarding (r : ρ)
  /-- The worker is gone; whether it has said so, or has just gone. -/
  | ended (said : Bool)
  deriving DecidableEq, Repr

namespace Phase

variable {ρ J : Type}

/-- The queue is still attached to the worker. -/
def listens : Phase ρ J → Bool
  | discarding _ => false
  | ended _ => false
  | _ => true

/-- The resource, while there is one. -/
def resource? : Phase ρ J → Option ρ
  | building => none
  | resting r => some r
  | running r _ _ => some r
  | crashed r => some r
  | leaving r => r
  | discarding r => some r
  | ended _ => none

end Phase

/-- A worker and its handle. -/
structure Worker (ρ J A : Type) where
  /-- The most operations that may wait; zero: no limit. -/
  limit : Nat
  health : Health
  /-- The handle can still submit. -/
  connected : Bool
  queue : List (QueueItem J)
  /-- The count of operations that wait. -/
  pending : Nat
  /-- An operation is running. -/
  busy : Bool
  /-- What has become of each accepted operation, by its ticket. -/
  replies : List (Reply A)
  readiness : Readiness
  phase : Phase ρ J
  /-- Somebody has begun to wait for the end. -/
  awaited : Bool
  deriving Repr

namespace Worker

variable {ρ J A : Type}

/-- A worker that has just been started. -/
def spawn (limit : Nat) : Worker ρ J A :=
  ⟨limit, .running, true, [], 0, false, [], .building, .building, false⟩

/-! ## 2. The handle -/

/-- The worker has faulted. -/
def isFaulted (w : Worker ρ J A) : Bool := w.health == .faulted

/-- The worker takes no more operations. -/
def isClosed (w : Worker ρ J A) : Bool := w.health != .running

/-- Nothing waits and nothing is running. -/
def isIdle (w : Worker ρ J A) : Bool := w.pending == 0 && !w.busy

/-- A look at the count alone may find that nothing waits.  It may do so also while the worker takes
the last operation up, which is counted off a moment before it is seen to be running. -/
def seemsDrained (w : Worker ρ J A) : Bool :=
  match w.phase, w.queue with
  | .resting _, .job _ _ :: _ => w.pending ≤ 1
  | _, _ => w.pending == 0

/-- The worker has ended.  Who waits for the end learns of it also if the worker cannot say so. -/
def hasEnded (w : Worker ρ J A) : Bool :=
  match w.phase with
  | .ended _ => true
  | _ => false

/-- Why an operation would be refused, if it would be. -/
def refusal? (w : Worker ρ J A) (bounded : Bool) : Option WorkerError :=
  if w.isFaulted then some .faulted
  else if !w.connected then some .closed
  else if bounded && 0 < w.limit && w.limit ≤ w.pending then some (.busy w.pending)
  else if !w.phase.listens then some .closed
  else none

/-- The worker with one more operation in its queue. -/
def accept (w : Worker ρ J A) (j : J) : Worker ρ J A :=
  { w with
    pending := w.pending + 1
    queue := w.queue ++ [.job w.replies.length j]
    replies := w.replies ++ [.waiting] }

/-- Why an operation is turned away at the handle of a worker that was not seen to have faulted.
Only a bounded submission minds the limit of the queue. -/
def barred? (w : Worker ρ J A) (bounded : Bool) : Option WorkerError :=
  if !w.connected then some .closed
  else if bounded && 0 < w.limit && w.limit ≤ w.pending then some (.busy w.pending)
  else none

/-- Counts one more operation that waits. -/
def count (w : Worker ρ J A) : Worker ρ J A := { w with pending := w.pending + 1 }

/-- Counts one off again. -/
def uncount (w : Worker ρ J A) : Worker ρ J A := { w with pending := w.pending - 1 }

/-- Puts an operation into the queue, unless the worker has given the queue up. -/
def send? (w : Worker ρ J A) (j : J) : Option (Worker ρ J A) :=
  if w.phase.listens then
    some { w with
      queue := w.queue ++ [.job w.replies.length j]
      replies := w.replies ++ [.waiting] }
  else none

/-- Submits an operation: the worker afterwards, and the ticket of the operation.  It is counted
before it is sent, and when it cannot be sent the worker is looked at once more. -/
def submit (w : Worker ρ J A) (bounded : Bool) (j : J) :
    Worker ρ J A × Except WorkerError Nat :=
  if w.isFaulted then (w, .error .faulted)
  else
    match w.barred? bounded with
    | some e => (w, .error e)
    | none =>
      match w.count.send? j with
      | some sent => (sent, .ok w.replies.length)
      | none =>
        let back := w.count.uncount
        (back, .error (if back.isFaulted then .faulted else .closed))

theorem uncount_count (w : Worker ρ J A) : w.count.uncount = w := rfl

theorem send?_count (w : Worker ρ J A) (j : J) :
    w.count.send? j = if w.phase.listens then some (w.accept j) else none := rfl

/-- A submission that nothing comes between is refused, or its operation is in the queue. -/
theorem submit_eq (w : Worker ρ J A) (bounded : Bool) (j : J) : w.submit bounded j =
    match w.refusal? bounded with
    | some e => (w, .error e)
    | none => (w.accept j, .ok w.replies.length) := by
  simp only [submit, refusal?, barred?, send?_count, uncount_count]
  by_cases hf : w.isFaulted = true
  · simp [hf]
  · by_cases hc : w.connected = true
    · by_cases hb : (bounded && 0 < w.limit && w.limit ≤ w.pending) = true
      · simp [hf, hc, hb]
      · cases hl : w.phase.listens <;> simp [hf, hc, hb]
    · simp [hf, hc]

/-- Asks the worker to stop after what it has accepted; the first call counts. -/
def shutdown (w : Worker ρ J A) : Worker ρ J A :=
  if w.connected then
    { w with
      connected := false
      health := if w.health == .running then .closed else w.health
      queue := if w.phase.listens then w.queue ++ [.stop] else w.queue }
  else w

/-- Begins to wait for the end.  Who comes later does not wait. -/
def awaitEnd (w : Worker ρ J A) : Worker ρ J A := { w with awaited := true }

/-- The handle is gone; what was accepted still runs. -/
def abandon (w : Worker ρ J A) : Worker ρ J A := { w with connected := false }

/-- What has become of an operation. -/
def reply (w : Worker ρ J A) (ticket : Nat) : Reply A := (w.replies[ticket]?).getD .lost

/-- What a caller who waits for an operation without a deadline gets, once there is something to
get. -/
def outcome? (w : Worker ρ J A) (ticket : Nat) : Option (Except WorkerError A) :=
  match w.reply ticket with
  | .waiting => none
  | .value a => some (.ok a)
  | .lost => some (.error .faulted)

section Outcome

variable {w : Worker ρ J A} {ticket : Nat}

theorem outcome?_eq_none : w.outcome? ticket = none ↔ w.reply ticket = .waiting := by
  unfold outcome?
  cases w.reply ticket <;> simp

theorem outcome?_eq_ok {a : A} :
    w.outcome? ticket = some (.ok a) ↔ w.reply ticket = .value a := by
  unfold outcome?
  cases w.reply ticket <;> simp

/-- There is no error for an operation but the fault of the worker. -/
theorem outcome?_eq_error {e : WorkerError} :
    w.outcome? ticket = some (.error e) ↔ e = .faulted ∧ w.reply ticket = .lost := by
  unfold outcome?
  cases w.reply ticket <;> simp [eq_comm]

end Outcome

/-! ## 3. The worker's own steps -/

/-- What the worker does next, with what the outside decides about it. -/
inductive Move (ρ A : Type) where
  /-- The construction ends with a resource. -/
  | built (r : ρ)
  /-- The construction fails or crashes. -/
  | buildFailed (reason : String)
  /-- The first operation of the queue begins. -/
  | start
  /-- The running operation ends. -/
  | finish (r : ρ) (a : A)
  /-- The running operation crashes. -/
  | crash (r : ρ)
  /-- The crash is made known. -/
  | poison
  /-- The request to stop is taken from the queue. -/
  | takeStop
  /-- The queue is empty and the handle is gone. -/
  | notice
  /-- The queue is given up, with all that is in it. -/
  | hangUp
  /-- The resource is dropped, which may crash. -/
  | discard (crashed : Bool)
  deriving DecidableEq, Repr

/-- The answers of queued operations are lost. -/
def loseQueued (queue : List (QueueItem J)) (replies : List (Reply A)) : List (Reply A) :=
  queue.foldl (fun rs item =>
    match item with
    | .job ticket _ => rs.set ticket .lost
    | .stop => rs) replies

/-- The worker after a step of its own; nothing where the step is not due. -/
def advance? (w : Worker ρ J A) : Move ρ A → Option (Worker ρ J A)
  | .built r =>
    match w.phase with
    | .building => some { w with phase := .resting r, readiness := .ready }
    | _ => none
  | .buildFailed reason =>
    match w.phase with
    | .building =>
      some { w with phase := .leaving none, readiness := .failed reason, health := .faulted }
    | _ => none
  | .start =>
    match w.phase, w.queue with
    | .resting r, .job ticket j :: rest =>
      some { w with
        phase := .running r ticket j, queue := rest, pending := w.pending - 1, busy := true }
    | _, _ => none
  | .finish r a =>
    match w.phase with
    | .running _ ticket _ =>
      some { w with phase := .resting r, busy := false, replies := w.replies.set ticket (.value a) }
    | _ => none
  | .crash r =>
    match w.phase with
    | .running _ ticket _ =>
      some { w with phase := .crashed r, busy := false, replies := w.replies.set ticket .lost }
    | _ => none
  | .poison =>
    match w.phase with
    | .crashed r => some { w with phase := .leaving (some r), health := .faulted }
    | _ => none
  | .takeStop =>
    match w.phase, w.queue with
    | .resting r, .stop :: rest => some { w with phase := .leaving (some r), queue := rest }
    | _, _ => none
  | .notice =>
    match w.phase, w.queue with
    | .resting r, [] => if w.connected then none else some { w with phase := .leaving (some r) }
    | _, _ => none
  | .hangUp =>
    match w.phase with
    | .leaving r =>
      some { w with
        phase := match r with
          | some r => .discarding r
          | none => .ended true
        queue := []
        replies := loseQueued w.queue w.replies }
    | _ => none
  | .discard crashed =>
    match w.phase with
    | .discarding _ => some { w with phase := .ended (!crashed || w.isFaulted) }
    | _ => none

/-! ## 4. Runs -/

/-- Everything that can happen to a worker. -/
inductive Action (ρ J A : Type) where
  | submit (bounded : Bool) (j : J)
  | shutdown
  | awaitEnd
  | abandon
  | move (m : Move ρ A)
  deriving DecidableEq, Repr

/-- The worker after an action; nothing where a step of its own is not due.  Only a handle that is
still connected can be given up. -/
def act? (w : Worker ρ J A) : Action ρ J A → Option (Worker ρ J A)
  | .submit bounded j => some (w.submit bounded j).1
  | .shutdown => some w.shutdown
  | .awaitEnd => some w.awaitEnd
  | .abandon => if w.connected then some w.abandon else none
  | .move m => w.advance? m

/-- The worker after a list of actions, if each of them was due. -/
def run? (w : Worker ρ J A) : List (Action ρ J A) → Option (Worker ρ J A)
  | [] => some w
  | a :: r =>
    match w.act? a with
    | some w => w.run? r
    | none => none

end Worker
end Workbench
