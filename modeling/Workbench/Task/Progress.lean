/-!
# Progress

A task that many callers run at the same time goes on in small steps, and everything else may happen
between two of them.  A step finds that the task has to wait, or takes it to its next stage, or ends
it with an answer.
-/

namespace Workbench

/-- What a step of a task comes to: `S` is the state that all tasks share, `T` the stages of the
task, and `A` its answers. -/
inductive Progress (S T A : Type) where
  /-- What the task waits for has not happened. -/
  | wait
  | next (state : S) (stage : T)
  | done (state : S) (answer : A)
  deriving Repr

namespace Progress

variable {S T U A B : Type}

/-- A task as a part of a longer one: its stages are stages of the longer one, and its answer
decides how that goes on. -/
def within (stage : T → U) (goOn : S → A → Progress S U B) : Progress S T A → Progress S U B
  | wait => wait
  | next s t => next s (stage t)
  | done s a => goOn s a

/-- A task as the last part of a longer one. -/
def lastly (stage : T → U) (answer : A → B) (p : Progress S T A) : Progress S U B :=
  p.within stage fun s a => done s (answer a)

end Progress
end Workbench
