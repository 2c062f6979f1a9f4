import Workbench.Engine.Basic
import Workbench.Engine.Waits

/-!
# Hosts

A host runs an engine on a backend.  It decides which event comes next, and asks the backend what
the events of a worker bring.

* `Host.settle` lets every worker go on for as long as it can;
* `Host.begin` starts a request and carries it to its first wait, `Host.complete` carries it to its
  end, letting the workers go on whenever it waits;
* `Host.tick` lets an interval of the patrol pass.

Everything that a host does to its engine is an event of the engine.  A wait is given up when its
time is up by the clock of the waits, which moves with the intervals of the patrol and with tasks
that are carried on in a hurry.
-/

namespace Workbench

/-- An engine, the backend of its sessions, and their surroundings. -/
structure Host (ρ σ : Type) where
  engine : Engine ρ
  backend : Backend ρ σ
  context : PlanContext
  surroundings : σ
  waits : Waits

namespace Host

variable {ρ σ : Type}

/-- A host on which nobody waits. -/
def start (engine : Engine ρ) (backend : Backend ρ σ) (context : PlanContext) (surroundings : σ) :
    Host ρ σ :=
  ⟨engine, backend, context, surroundings, .start⟩

/-- The host after an event of its engine; the same host where the event is not possible. -/
def apply (h : Host ρ σ) (event : Event ρ) : Host ρ σ :=
  match h.engine.step? event with
  | some e => { h with engine := e }
  | none => h

/-! ## 1. Workers -/

/-- What the worker of a session does next, and the surroundings after that; nothing where it has
to wait. -/
def nextMove (h : Host ρ σ) (seat : Nat) (w : Worker ρ Job JobAnswer) :
    σ × Option (Worker.Move ρ JobAnswer) :=
  match w.phase with
  | .building =>
    match h.backend.build seat h.surroundings with
    | (x, none) => (x, none)
    | (x, some (.ok r)) => (x, some (.built r))
    | (x, some (.error fault)) => (x, some (.buildFailed fault.message))
  | .resting _ =>
    match w.queue with
    | .job _ _ :: _ => (h.surroundings, some .start)
    | .stop :: _ => (h.surroundings, some .takeStop)
    | [] => (h.surroundings, if w.connected then none else some .notice)
  | .running r _ job =>
    match h.backend.run h.context seat job r h.surroundings (.ofNanos h.engine.registry.now) with
    | (x, none) => (x, none)
    | (x, some ⟨r, some answer⟩) => (x, some (.finish r answer))
    | (x, some ⟨r, none⟩) => (x, some (.crash r))
  | .crashed _ => (h.surroundings, some .poison)
  | .leaving _ => (h.surroundings, some .hangUp)
  | .discarding _ => (h.surroundings, some (.discard false))
  | .ended _ => (h.surroundings, none)

/-- Lets the worker of a session make so many steps, or fewer if it has to wait. -/
def settleSeat (seat : Nat) : Nat → Host ρ σ → Host ρ σ
  | 0, h => h
  | n + 1, h =>
    match h.engine.registry.session? seat with
    | none => h
    | some s =>
      match h.nextMove seat s.worker with
      | (x, none) => { h with surroundings := x }
      | (x, some move) => settleSeat seat n ({ h with surroundings := x }.apply (.work seat move))

/-- More steps than a worker can make until it has to wait: two for each entry of its queue, and
those of its beginning and its end. -/
def patience (w : Worker ρ Job JobAnswer) : Nat := 2 * w.queue.length + 8

/-- Lets the worker of a session go on for as long as it can. -/
def settleSession (h : Host ρ σ) (seat : Nat) : Host ρ σ :=
  match h.engine.registry.session? seat with
  | none => h
  | some s => settleSeat seat (patience s.worker) h

/-- Stops the patrols that were called off. -/
def cutOff (h : Host ρ σ) : Host ρ σ :=
  (List.range h.engine.tasks.length).foldl (fun h place => h.apply (.cutOff place)) h

/-- Lets every worker go on for as long as it can, and stops the patrols that were called off. -/
def settle (h : Host ρ σ) : Host ρ σ :=
  ((List.range h.engine.registry.sessions.length).foldl settleSession h).cutOff

/-! ## 2. Tasks -/

/-- The host after a step of a task, which does not wait any more. -/
def go? (h : Host ρ σ) (place : Nat) : Option (Host ρ σ) :=
  (h.engine.step? (.go place)).map fun e => { h with engine := e, waits := h.waits.finish place }

/-- Notes the wait of a task, where it is limited. -/
def await (h : Host ρ σ) (place : Nat) : Host ρ σ :=
  match h.engine.limit? place with
  | some limit => { h with waits := h.waits.begin place limit.nanos }
  | none => h

/-- The task at a place is the patrol, and it rests. -/
def isResting (h : Host ρ σ) (place : Nat) : Bool :=
  match h.engine.tasks[place]? with
  | some (.patrol .resting _) => true
  | _ => false

/-- When the wait of a task is up. -/
def deadline? (h : Host ρ σ) (place : Nat) : Option Nat :=
  if h.isResting place then some h.waits.patrolAt else h.waits.deadline? place

/-- The nanoseconds between two patrols. -/
def interval (h : Host ρ σ) : Nat := h.engine.registry.settings.sweepInterval.nanos

/-- The host after the wait of a task is given up, if its time is up.  The patrol sets out at
regular moments, however long it is under way. -/
def giveUp? (h : Host ρ σ) (place : Nat) : Option (Host ρ σ) :=
  match h.deadline? place with
  | none => none
  | some due =>
    if h.waits.clock < due then none
    else
      let waits := h.waits.finish place
      let waits := if h.isResting place then { waits with patrolAt := due + h.interval } else waits
      (h.engine.step? (.expire place)).map fun e => { h with engine := e, waits := waits }

/-- Lets a task make so many steps, or fewer if it has to wait; waits whose time is up are given
up. -/
def goOn (place : Nat) : Nat → Host ρ σ → Host ρ σ
  | 0, h => h
  | n + 1, h =>
    match h.go? place with
    | some h => goOn place n h
    | none =>
      let h := h.await place
      match h.giveUp? place with
      | some h => goOn place n h
      | none => h

/-- Lets a task make so many steps, letting the workers go on whenever it has to wait. -/
def carry (place : Nat) : Nat → Host ρ σ → Host ρ σ
  | 0, h => h
  | n + 1, h =>
    let h := (goOn place n h).settle
    match h.go? place with
    | some h => carry place n h
    | none => h

/-- More steps than any task makes: a few, and a few more for each session. -/
def stamina (h : Host ρ σ) : Nat := 16 * (h.engine.registry.sessions.length + 2)

/-! ## 3. The patrol -/

/-- Starts the patrol, unless there is one.  It sets out for the first time after an interval. -/
def startPatrol (h : Host ρ σ) : Host ρ σ :=
  match h.engine.patrol with
  | some _ => h
  | none =>
    { h.apply .startPatrol with
      waits := { h.waits with patrolAt := h.waits.clock + h.interval } }

/-- How often the patrol has to set out at least until it may rest. -/
def overdue (h : Host ρ σ) : Nat := (h.waits.clock - h.waits.patrolAt) / h.interval + 1

/-- Lets the workers and the patrol go on for as long as they can. -/
def rest (h : Host ρ σ) : Host ρ σ :=
  match h.engine.patrol with
  | none => h.settle
  | some place => carry place (h.stamina * (h.overdue + 1)) h.settle

/-- One interval of the patrol passes, whether there is one or not. -/
def tick (h : Host ρ σ) : Host ρ σ := { h with waits := h.waits.pass h.interval }.rest

/-- Lets time pass up to a moment, so many stops on the way at most: wherever the patrol has
something to do. -/
def passTo (due : Nat) : Nat → Host ρ σ → Host ρ σ
  | 0, h => { h with waits := h.waits.passTo due }
  | n + 1, h =>
    match h.engine.patrol.bind h.deadline? with
    | none => { h with waits := h.waits.passTo due }
    | some stop =>
      if stop < due then passTo due n { h with waits := h.waits.passTo stop }.rest
      else { h with waits := h.waits.passTo due }

/-- More stops than the patrol can make up to a moment. -/
def stops (h : Host ρ σ) (due : Nat) : Nat :=
  (due - h.waits.clock) / h.interval + 2 * h.engine.registry.sessions.length + 2

/-! ## 4. Requests -/

/-- Lets a task make so many waits, or fewer if it ends; each of them for as long as it may be. -/
def hurry (place : Nat) : Nat → Host ρ σ → Host ρ σ
  | 0, h => h
  | n + 1, h =>
    let h := carry place h.stamina h
    match h.deadline? place with
    | some due => hurry place n (passTo due (h.stops due) h)
    | none => h

/-- Starts a request and carries it to its first wait; its place among the tasks. -/
def begin (h : Host ρ σ) (request : Request) : Host ρ σ × Nat :=
  let place := h.engine.tasks.length
  let h := h.apply (.arrive request)
  (goOn place h.stamina h, place)

/-- Carries a task to its end; the answer, unless the task waits in vain. -/
def complete (h : Host ρ σ) (place : Nat) (hurried : Bool) : Host ρ σ × Option Answer :=
  let h := if hurried then hurry place h.stamina h else carry place h.stamina h
  (h, h.engine.answer? place)

/-- Starts a request and carries it to its end. -/
def serve (h : Host ρ σ) (request : Request) (hurried : Bool) : Host ρ σ × Option Answer :=
  let (h, place) := h.begin request
  h.complete place hurried

end Host
end Workbench
