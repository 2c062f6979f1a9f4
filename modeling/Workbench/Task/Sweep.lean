import Workbench.Task.Close

/-!
# Sweeps

A sweep looks at every session that is open when it begins, and closes those that are due when it
comes to them.  The patrol sweeps at regular intervals until it is called off; stopping the server
calls it off and closes all sessions, one after the other.

Whether a worker is idle is asked in two looks, at the count of its operations and at the mark of
the one that is running, and nothing holds the worker or its callers up between them.  `Sweep.step`
is a verdict whose looks fall together; `Sweep.detour?` takes the first look alone, and the second
one is the step after it.  The session itself is locked from the first look to the second.  What
needs the lock may come between them here all the same; the second look sees it and leaves the
session alone then.
-/

namespace Workbench

/-! ## 1. One sweep -/

/-- The stages of a sweep: `rest` are the seats it has still to look at, `closed` the sessions it
has closed. -/
inductive Sweep where
  | scan
  | judge (rest : List Nat) (closed : List String)
  /-- The first look at the worker of a session has found that nothing waits there. -/
  | weigh (seat : Nat) (rest : List Nat) (closed : List String)
  | release (seat : Nat) (stage : Release) (rest : List Nat) (closed : List String)
  deriving DecidableEq, Repr

namespace Sweep

variable {ρ : Type}

/-- A step of a sweep.  The verdict on a session, or what is left of it after the first look, and
its closing are one. -/
def step (r : Registry ρ) (stage : Sweep) : Progress (Registry ρ) Sweep (List String) :=
  match stage with
  | scan => .next r (judge r.liveSeats [])
  | judge [] closed => .done r closed
  | judge (seat :: rest) closed =>
    match r.session? seat with
    | none => .next r (judge rest closed)
    | some s =>
      if !s.isClosed && s.isDue r.settings.idleTimeout r.now then
        .next (r.put seat s.beginClose.1) (release seat .queue rest closed)
      else .next r (judge rest closed)
  | weigh seat rest closed =>
    match r.session? seat with
    | none => .next r (judge rest closed)
    | some s =>
      if !s.isClosed && !s.worker.busy && s.isStale r.settings.idleTimeout r.now then
        .next (r.put seat s.beginClose.1) (release seat .queue rest closed)
      else .next r (judge rest closed)
  | release seat stage rest closed =>
    (stage.step r seat).within (release seat · rest closed) fun r () =>
      match r.session? seat with
      | some s => .next r (judge rest (closed ++ [s.id]))
      | none => .next r (judge rest closed)

/-- What a sweep can do other than its next step. -/
inductive Detour where
  /-- The sessions are taken in an order of its own. -/
  | order (seats : List Nat)
  /-- The first look at the worker at hand is taken alone. -/
  | glance
  deriving DecidableEq, Repr

/-- The stage after a detour, where it is possible. -/
def detour? (r : Registry ρ) : Sweep → Detour → Option Sweep
  | scan, .order seats => if seats.isPerm r.liveSeats then some (judge seats []) else none
  | judge (seat :: rest) closed, .glance =>
    match r.session? seat with
    | none => none
    | some s =>
      if !s.isClosed && !s.worker.isFaulted && s.isStale r.settings.idleTimeout r.now &&
          s.worker.seemsDrained then
        some (weigh seat rest closed)
      else none
  | _, _ => none

/-- The stage after one whose time is up. -/
def expire? : Sweep → Option Sweep
  | release seat stage rest closed => stage.expire?.map (release seat · rest closed)
  | _ => none

/-- The sweep waits for something at this stage. -/
def isWaiting : Sweep → Bool
  | release _ stage _ _ => stage.isWaiting
  | _ => false

/-- The sweep can be cut off at this stage. -/
def isPoint : Sweep → Bool
  | scan => true
  | release _ stage _ _ => stage.isPoint
  | judge _ _ => false
  | weigh _ _ _ => false

end Sweep

/-! ## 2. The patrol -/

/-- The stages of the patrol. -/
inductive Patrol where
  /-- Until the next interval has passed. -/
  | resting
  | sweeping (stage : Sweep)
  deriving DecidableEq, Repr

namespace Patrol

variable {ρ : Type}

/-- A step of the patrol, which has no answer of its own. -/
def step (r : Registry ρ) (stage : Patrol) : Progress (Registry ρ) Patrol Unit :=
  match stage with
  | resting => .wait
  | sweeping stage => (stage.step r).within sweeping fun r _ => .next r resting

/-- The stage after one whose time is up. -/
def expire? : Patrol → Option Patrol
  | resting => some (sweeping .scan)
  | sweeping stage => stage.expire?.map sweeping

/-- The patrol waits for something at this stage. -/
def isWaiting : Patrol → Bool
  | resting => true
  | sweeping stage => stage.isWaiting

/-- The patrol can be cut off at this stage. -/
def isPoint : Patrol → Bool
  | resting => true
  | sweeping stage => stage.isPoint

end Patrol

/-! ## 3. Closing all sessions -/

/-- The stages of closing all sessions, one after the other. -/
inductive Shutdown where
  | collect
  | next (rest : List String)
  | close (id : String) (stage : Closing) (rest : List String)
  deriving DecidableEq, Repr

namespace Shutdown

variable {ρ : Type}

/-- A step of closing all sessions.  That one of them is gone is no obstacle. -/
def step (r : Registry ρ) (stage : Shutdown) : Progress (Registry ρ) Shutdown Unit :=
  match stage with
  | collect => .next r (next (r.listed.map (·.id)))
  | next [] => .done r ()
  | next (id :: rest) => .next r (close id .lookup rest)
  | close id stage rest =>
    (stage.step r id).within (close id · rest) fun r _ => .next r (next rest)

/-- The stage after one whose time is up. -/
def expire? : Shutdown → Option Shutdown
  | close id stage rest => stage.expire?.map (close id · rest)
  | _ => none

/-- Closing all sessions waits for something at this stage. -/
def isWaiting : Shutdown → Bool
  | close _ stage _ => stage.isWaiting
  | _ => false

end Shutdown
end Workbench
