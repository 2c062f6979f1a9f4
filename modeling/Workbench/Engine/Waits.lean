/-!
# Waits

The clock by which the waits of tasks are measured.  It stands still unless it is moved, so that the
time of a wait is up only where that is said.

* `Waits.begin` notes when a wait that begins now is up, and `Waits.finish` forgets it;
* `Waits.deadline?` is when a wait is up, and `Waits.pass` lets time pass.
-/

namespace Workbench

/-- A clock, and when the waits of tasks are up. -/
structure Waits where
  /-- The time that has passed, in nanoseconds. -/
  clock : Nat
  /-- When the waits are up that have begun, by the places of their tasks. -/
  deadlines : List (Nat × Nat)
  /-- When the patrol sets out next. -/
  patrolAt : Nat
  deriving DecidableEq, Repr, Inhabited

namespace Waits

/-- Nobody waits, and no time has passed. -/
def start : Waits := ⟨0, [], 0⟩

/-- When the wait of the task at a place is up. -/
def deadline? (w : Waits) (place : Nat) : Option Nat :=
  (w.deadlines.find? fun d => d.1 == place).map Prod.snd

/-- The wait of the task at a place has begun, with a limit.  One that had begun before goes on. -/
def begin (w : Waits) (place : Nat) (limit : Nat) : Waits :=
  match w.deadline? place with
  | some _ => w
  | none => { w with deadlines := (place, w.clock + limit) :: w.deadlines }

/-- The task at a place does not wait any more. -/
def finish (w : Waits) (place : Nat) : Waits :=
  { w with deadlines := w.deadlines.filter fun d => d.1 != place }

/-- The clock moves on by some time. -/
def pass (w : Waits) (time : Nat) : Waits := { w with clock := w.clock + time }

/-- The clock moves on to a moment, unless that is past. -/
def passTo (w : Waits) (moment : Nat) : Waits := { w with clock := max w.clock moment }

theorem deadline?_finish (w : Waits) (place : Nat) : (w.finish place).deadline? place = none := by
  simp [finish, deadline?]

theorem deadline?_begin {w : Waits} {place : Nat} (h : w.deadline? place = none) (limit : Nat) :
    (w.begin place limit).deadline? place = some (w.clock + limit) := by
  simp only [begin, h]
  simp [deadline?]

end Waits
end Workbench
