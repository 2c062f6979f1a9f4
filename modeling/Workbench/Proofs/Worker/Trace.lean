import Workbench.Proofs.Worker.Answers
import Workbench.Proofs.Worker.Continuing

/-!
# The trace of a worker

The history of a worker keeps what was noted, but not who asked for it or what was refused.  The
trace of a run keeps each action whole, together with the worker that it found.

* `Worker.trace` is the trace of a run, and `Worker.noted` the history that is left of it
  (`noted_trace`);
* `run?_along` is the induction over runs for what is said of the trace and the worker together;
* `told_along` says that the history of a trace is true of the worker at its end.
-/

namespace Workbench
namespace Worker

open History

variable {ρ J A : Type}

/-! ## 1. The actions of a run -/

/-- The actions of a run, each with the worker before it, as far as they are due. -/
def trace (w : Worker ρ J A) : List (Action ρ J A) → List (Worker ρ J A × Action ρ J A)
  | [] => []
  | a :: rest =>
    match w.act? a with
    | some w' => (w, a) :: w'.trace rest
    | none => []

/-- What is noted along a trace. -/
def noted (past : List (Worker ρ J A × Action ρ J A)) : List (Note ρ J A) :=
  past.filterMap fun x => x.1.note? x.2

@[simp] theorem noted_concat (past : List (Worker ρ J A × Action ρ J A)) (w : Worker ρ J A)
    (a : Action ρ J A) : noted (past ++ [(w, a)]) = noted past ++ (w.note? a).toList := by
  unfold noted
  rw [List.filterMap_append]
  cases h : w.note? a <;> simp [h]

/-- **The trace tells the history.** -/
theorem noted_trace (w : Worker ρ J A) (actions : List (Action ρ J A)) :
    noted (w.trace actions) = w.history actions := by
  induction actions generalizing w with
  | nil => rfl
  | cons a rest ih =>
    simp only [trace, history]
    cases hw : w.act? a with
    | none => rfl
    | some w' =>
      have hcons : noted ((w, a) :: w'.trace rest) =
          (w.note? a).toList ++ noted (w'.trace rest) := by
        unfold noted
        cases h : w.note? a <;> simp [h]
      rw [hcons, ih]

/-- The trace has all actions of a run. -/
theorem actions_trace {w w' : Worker ρ J A} {actions : List (Action ρ J A)}
    (h : w.run? actions = some w') : (w.trace actions).map Prod.snd = actions := by
  induction actions generalizing w with
  | nil => rfl
  | cons a rest ih =>
    simp only [run?] at h
    cases hw : w.act? a with
    | none => simp [hw] at h
    | some w₁ =>
      rw [hw] at h
      simp only [trace, hw, List.map_cons, ih h]

/-! ## 2. Inductions over runs -/

/-- **What every action keeps, every run keeps.**  The property may speak of the trace and of the
worker together. -/
theorem run?_along {P : List (Worker ρ J A × Action ρ J A) → Worker ρ J A → Prop}
    (step : ∀ past w a w', P past w → w.act? a = some w' → P (past ++ [(w, a)]) w')
    {w w' : Worker ρ J A} {actions : List (Action ρ J A)} (h : w.run? actions = some w')
    (hP : P [] w) : P (w.trace actions) w' := by
  -- The run is in its midst: some actions lie behind it, and the others are still to come.
  have hfrom : ∀ more past v, P past v → v.run? more = some w' → P (past ++ v.trace more) w' := by
    intro more
    induction more with
    | nil =>
      intro past v hP hv
      cases hv
      simpa [trace] using hP
    | cons a rest ih =>
      intro past v hP hv
      simp only [run?] at hv
      cases ha : v.act? a with
      | none => simp [ha] at hv
      | some v₁ =>
        rw [ha] at hv
        have h₁ := ih (past ++ [(v, a)]) v₁ (step past v a v₁ hP ha) hv
        simpa only [trace, ha, List.append_assoc, List.singleton_append] using h₁
  exact hfrom actions [] w hP h

/-- The history of a trace is true of the worker at its end, and so are its counters. -/
theorem told_along {limit : Nat} {w : Worker ρ J A} {actions : List (Action ρ J A)}
    (h : (spawn limit).run? actions = some w) :
    Told (noted ((spawn limit).trace actions)) w ∧ w.Counted :=
  run?_along (P := fun past w => Told (noted past) w ∧ w.Counted)
    (fun past w a w' hP hw => ⟨by simpa using hP.1.step hw, hP.2.step hw⟩) h
    ⟨Told.spawn limit, Counted.spawn limit⟩

/-- A run that was told as one can be told as two, one after the other. -/
theorem run?_append (w : Worker ρ J A) (actions more : List (Action ρ J A)) :
    w.run? (actions ++ more) = (w.run? actions).bind fun w' => w'.run? more := by
  induction actions generalizing w with
  | nil => rfl
  | cons a rest ih =>
    simp only [List.cons_append, run?]
    cases hw : w.act? a with
    | none => rfl
    | some w₁ => exact ih w₁

end Worker
end Workbench
