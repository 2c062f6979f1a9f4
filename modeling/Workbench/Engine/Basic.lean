import Workbench.Task.Call
import Workbench.Task.Sweep

/-!
# The engine

The engine is the registry of sessions together with all tasks that are under way.

* `Event` is everything that can happen: a request arrives, a task or a worker makes a step, the
  time of a wait is up, time passes;
* `Engine.step?` is the engine after an event, where the event is possible, and `Engine.run?` the
  engine after a list of them.  Every order of events is a run, so a statement about all runs holds
  however callers, workers and the patrol are interleaved;
* what a resource does is not part of the engine: the events of a worker bring the resource and the
  answer with them.
-/

namespace Workbench

/-! ## 1. Requests and tasks -/

/-- What can be asked of the engine. -/
inductive Request where
  | create (metadata : List (String × Json))
  | close (id : String)
  | terminate (id : String)
  | sweep
  /-- The patrol is called off, and all sessions are closed. -/
  | stop
  | call (c : Call)
  deriving DecidableEq, Repr

/-- The answer to a request. -/
inductive Answer where
  | created (result : Except SessionError SessionInfo)
  | closed (result : Except SessionError Unit)
  | swept (ids : List String)
  | stopped
  | called (result : Except ToolError ToolOutput)
  deriving Repr

/-- A task that is under way. -/
inductive Task where
  | create (stage : Creation)
  | close (id : String) (stage : Closing)
  | terminate (id : String) (stage : Termination)
  | sweep (stage : Sweep)
  | callOff
  | shutdown (stage : Shutdown)
  | call (c : Call) (stage : CallStage)
  | patrol (stage : Patrol) (calledOff : Bool)
  | finished (answer : Answer)
  /-- A patrol that is no more. -/
  | gone
  deriving Repr

/-- For how long a task waits now, where it does so for a limited time; `release` is the limit of a
release.  The patrol rests by a timetable and not for a limit. -/
def Task.limit? (release : Duration) : Task → Option Duration
  | close _ stage => if stage.isWaiting then some release else none
  | sweep stage => if stage.isWaiting then some release else none
  | shutdown stage => if stage.isWaiting then some release else none
  | call _ stage => stage.limit? release
  | patrol (.sweeping stage) _ => if stage.isWaiting then some release else none
  | _ => none

/-- The task that a request starts. -/
def Request.task : Request → Task
  | create metadata => .create (.enter metadata)
  | close id => .close id .lookup
  | terminate id => .terminate id .lookup
  | sweep => .sweep .scan
  | stop => .callOff
  | call c => .call c .arrive

/-! ## 2. The state -/

/-- The registry and all tasks. -/
structure Engine (ρ : Type) where
  registry : Registry ρ
  /-- How long a call waits if it does not say. -/
  callTimeout : Duration
  /-- The tasks in the order of their arrival. -/
  tasks : List Task
  /-- The place of the patrol among the tasks, until it is called off. -/
  patrol : Option Nat

/-- What can happen to an engine. -/
inductive Event (ρ : Type) where
  | arrive (request : Request)
  /-- The patrol is started, unless there is one.  Without an interval it is no more at once. -/
  | startPatrol
  /-- The task at a place makes a step. -/
  | go (place : Nat)
  /-- The sweep at a place does something else than its next step. -/
  | detour (place : Nat) (way : Sweep.Detour)
  /-- The time for which the task at a place waits is up. -/
  | expire (place : Nat)
  /-- The patrol at a place stops, having been called off. -/
  | cutOff (place : Nat)
  /-- No worker can be started for the session that the task at a place would start. -/
  | refuse (place : Nat) (reason : String)
  /-- The worker of the session at a seat makes a step. -/
  | work (seat : Nat) (move : Worker.Move ρ JobAnswer)
  | pass (time : Duration)

namespace Engine

variable {ρ : Type}

/-- An engine without sessions and tasks. -/
def start (settings : SessionSettings) (callTimeout : Duration) (ids : Nat → String) (now : Nat) :
    Engine ρ :=
  ⟨.start settings ids now, callTimeout, [], none⟩

/-- The engine with another task at a place. -/
def setTask (e : Engine ρ) (place : Nat) (t : Task) : Engine ρ :=
  { e with tasks := e.tasks.set place t }

/-- The engine with another registry and another task at a place. -/
def proceed (e : Engine ρ) (place : Nat) (r : Registry ρ) (t : Task) : Engine ρ :=
  { e with registry := r, tasks := e.tasks.set place t }

/-- The engine after the step of a task, as the progress of the task says. -/
def follow? {T A : Type} (e : Engine ρ) (place : Nat) (task : T → Task) (answer : A → Answer) :
    Progress (Registry ρ) T A → Option (Engine ρ)
  | .wait => none
  | .next r stage => some (e.proceed place r (task stage))
  | .done r a => some (e.proceed place r (.finished (answer a)))

/-! ## 3. Steps of tasks -/

/-- The engine after the patrol has been told to stop. -/
def callOff (e : Engine ρ) : Engine ρ :=
  match e.patrol with
  | none => e
  | some place =>
    match e.tasks[place]? with
    | some (.patrol stage _) => { e.setTask place (.patrol stage true) with patrol := none }
    | _ => { e with patrol := none }

/-- The engine after a step of the task at a place.  A patrol that is called off does not wake up
from a wait. -/
def go? (e : Engine ρ) (place : Nat) : Option (Engine ρ) :=
  let r := e.registry
  match e.tasks[place]? with
  | some (.create stage) => e.follow? place .create .created (stage.step r)
  | some (.close id stage) => e.follow? place (.close id) .closed (stage.step r id)
  | some (.terminate id stage) => e.follow? place (.terminate id) .closed (stage.step r id)
  | some (.sweep stage) => e.follow? place .sweep .swept (stage.step r)
  | some .callOff => some (e.callOff.setTask place (.shutdown .collect))
  | some (.shutdown stage) => e.follow? place .shutdown (fun () => .stopped) (stage.step r)
  | some (.call c stage) => e.follow? place (.call c) .called (stage.step r e.callTimeout c)
  | some (.patrol stage calledOff) =>
    if calledOff && stage.isWaiting then none
    else e.follow? place (.patrol · calledOff) (fun () => .stopped) (stage.step r)
  | _ => none

/-- The engine after a sweep has done something else than its next step. -/
def detour? (e : Engine ρ) (place : Nat) (way : Sweep.Detour) : Option (Engine ρ) :=
  match e.tasks[place]? with
  | some (.sweep stage) =>
    (stage.detour? e.registry way).map fun stage => e.setTask place (.sweep stage)
  | some (.patrol (.sweeping stage) calledOff) =>
    (stage.detour? e.registry way).map fun stage =>
      e.setTask place (.patrol (.sweeping stage) calledOff)
  | _ => none

/-- The engine after the time of a wait is up. -/
def expire? (e : Engine ρ) (place : Nat) : Option (Engine ρ) :=
  match e.tasks[place]? with
  | some (.close id stage) => stage.expire?.map fun stage => e.setTask place (.close id stage)
  | some (.sweep stage) => stage.expire?.map fun stage => e.setTask place (.sweep stage)
  | some (.shutdown stage) => stage.expire?.map fun stage => e.setTask place (.shutdown stage)
  | some (.call c stage) =>
    (stage.expire? e.registry).bind (e.follow? place (.call c) .called)
  | some (.patrol stage false) =>
    stage.expire?.map fun stage => e.setTask place (.patrol stage false)
  | _ => none

/-- The engine after a session was not started for want of a worker. -/
def refuse? (e : Engine ρ) (place : Nat) (reason : String) : Option (Engine ρ) :=
  match e.tasks[place]? with
  | some (.create stage) =>
    (stage.refuse? e.registry reason).bind (e.follow? place .create .created)
  | some (.call c stage) =>
    (stage.refuse? e.registry reason).bind (e.follow? place (.call c) .called)
  | _ => none

/-- The engine after a patrol that was called off has stopped. -/
def cutOff? (e : Engine ρ) (place : Nat) : Option (Engine ρ) :=
  match e.tasks[place]? with
  | some (.patrol stage true) => if stage.isPoint then some (e.setTask place .gone) else none
  | _ => none

/-! ## 4. Events -/

/-- The engine after an event; nothing where the event is not possible. -/
def step? (e : Engine ρ) : Event ρ → Option (Engine ρ)
  | .arrive request => some { e with tasks := e.tasks ++ [request.task] }
  | .startPatrol =>
    match e.patrol with
    | some _ => some e
    | none =>
      let task := if e.registry.settings.sweepInterval.isZero then .gone else .patrol .resting false
      some { e with tasks := e.tasks ++ [task], patrol := some e.tasks.length }
  | .go place => e.go? place
  | .detour place way => e.detour? place way
  | .expire place => e.expire? place
  | .cutOff place => e.cutOff? place
  | .refuse place reason => e.refuse? place reason
  | .work seat move =>
    match e.registry.session? seat with
    | none => none
    | some s =>
      match s.advance? e.registry.now move with
      | none => none
      | some s => some { e with registry := e.registry.put seat s }
  | .pass time => some { e with registry := { e.registry with now := e.registry.now + time.nanos } }

/-- The engine after a list of events, if each of them was possible. -/
def run? (e : Engine ρ) : List (Event ρ) → Option (Engine ρ)
  | [] => some e
  | event :: rest =>
    match e.step? event with
    | some e => e.run? rest
    | none => none

/-- For how long the task at a place waits now, where it does so for a limited time. -/
def limit? (e : Engine ρ) (place : Nat) : Option Duration :=
  (e.tasks[place]?).bind (Task.limit? e.registry.settings.releaseTimeout)

/-- The answer of the task at a place, if it has finished. -/
def answer? (e : Engine ρ) (place : Nat) : Option Answer :=
  match e.tasks[place]? with
  | some (.finished a) => some a
  | _ => none

end Engine
end Workbench
