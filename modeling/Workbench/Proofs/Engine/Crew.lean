import Workbench.Proofs.Engine.Trace
import Workbench.Proofs.Worker.Counting

/-!
# The workers of an engine

Each session has a worker of its own, and what the engine does to that worker is a run of it.  So
what holds along every run of a worker holds of the worker of each session, whatever the others do.

* `Engine.actions` are the actions of the worker at a seat, read off the trace;
* `worker_of_run?` says that they are a run, with the notes as its history;
* `isIdle_iff_of_run?` is what its counters tell: it is idle when all that it accepted has ended.
-/

namespace Workbench

namespace Worker

variable {ρ J A : Type}

/-- The history of a run that goes on. -/
theorem history_append {w w' : Worker ρ J A} {actions : List (Action ρ J A)}
    (h : w.run? actions = some w') (more : List (Action ρ J A)) :
    w.history (actions ++ more) = w.history actions ++ w'.history more := by
  induction actions generalizing w with
  | nil =>
    cases h
    rfl
  | cons a rest ih =>
    simp only [run?] at h
    cases hw : w.act? a with
    | none => simp [hw] at h
    | some w₁ =>
      rw [hw] at h
      simp only [List.cons_append, history, hw, ih h, List.append_assoc]

end Worker

namespace Engine

variable {ρ : Type}

/-- The action of the worker at a seat in an event, if there is one. -/
def action? (k : Nat) (x : Engine ρ × Event ρ) : Option (Worker.Action ρ Job JobAnswer) :=
  match x.1.registry.session? k with
  | some _ => (x.1.change x.2).actionAt? k
  | none => none

/-- The actions of the worker at a seat. -/
def actions (k : Nat) (past : List (Engine ρ × Event ρ)) :
    List (Worker.Action ρ Job JobAnswer) := past.filterMap (action? k)

theorem actions_concat (k : Nat) (past : List (Engine ρ × Event ρ)) (x : Engine ρ × Event ρ) :
    actions k (past ++ [x]) = actions k past ++ (action? k x).toList := by
  cases h : action? k x <;> simp [actions, h]

/-- The worker at a seat has come to where it is by its actions. -/
def Crewed (k : Nat) (past : List (Engine ρ × Event ρ)) (e : Engine ρ) : Prop :=
  match e.registry.session? k with
  | some s => (Worker.spawn e.registry.settings.maxQueueDepth).run? (actions k past) =
      some s.worker ∧
      (Worker.spawn e.registry.settings.maxQueueDepth).history (actions k past) = notes k past
  | none => actions k past = [] ∧ notes k past = []

theorem Crewed.step {k : Nat} {past : List (Engine ρ × Event ρ)} {e e' : Engine ρ}
    {event : Event ρ} (hc : Crewed k past e) (h : e.step? event = some e') :
    Crewed k (past ++ [(e, event)]) e' := by
  unfold Crewed at hc ⊢
  rw [actions_concat, notes_concat, (settings_of_step? h).1]
  cases hs : e.registry.session? k with
  | some s =>
    rw [hs] at hc
    obtain ⟨hrun, hhistory⟩ := hc
    obtain ⟨s', hs', ha⟩ := session_of_step? h hs
    rw [hs']
    cases hact : (e.change event).actionAt? k with
    | none => simpa [action?, note?, hs, hact, ha.rests hact] using ⟨hrun, hhistory⟩
    | some a =>
      have hw := ha.acts a hact
      simp only [action?, note?, hs, hact, Option.toList_some, Option.bind_some]
      refine ⟨?_, ?_⟩
      · rw [Worker.run?_append, hrun, Option.bind_some]
        simp [Worker.run?, hw]
      · rw [Worker.history_append hrun, hhistory]
        simp [Worker.history, hw]
  | none =>
    rw [hs] at hc
    obtain ⟨hactions, hnotes⟩ := hc
    have ha : action? k (e, event) = none := by simp [action?, hs]
    have hn : note? k (e, event) = none := by simp [note?, hs]
    rw [ha, hn, hactions, hnotes]
    cases hs' : e'.registry.session? k with
    | none => exact ⟨rfl, rfl⟩
    | some s =>
      obtain ⟨metadata, -, -, rfl⟩ := born_of_step? h hs hs'
      exact ⟨rfl, rfl⟩

section Runs

variable {settings : SessionSettings} {standard : Duration} {ids : Nat → String} {now : Nat}
  {e : Engine ρ} {events : List (Event ρ)}
  (h : (start settings standard ids now).run? events = some e)
include h

/-- **The worker of a session has a run of its own.** -/
theorem worker_of_run? {k : Nat} {s : Session ρ} (hs : e.registry.session? k = some s) :
    (Worker.spawn settings.maxQueueDepth).run?
        (actions k ((start settings standard ids now).trace events)) = some s.worker ∧
      (Worker.spawn settings.maxQueueDepth).history
        (actions k ((start settings standard ids now).trace events)) =
        notes k ((start settings standard ids now).trace events) := by
  have hstart : Crewed k [] (start settings standard ids now : Engine ρ) := by
    simp [Crewed, start, Registry.start, Registry.session?, actions, notes]
  have hcrewed : Crewed k ((start settings standard ids now).trace events) e :=
    run?_induction (P := Crewed k) (fun _ _ _ _ hc h => hc.step h) h hstart
  rw [Crewed, hs, (settings_of_run? h).1] at hcrewed
  exact hcrewed

/-- **The worker of a session is idle** when all that it has accepted has ended. -/
theorem isIdle_iff_of_run? {k : Nat} {s : Session ρ} (hs : e.registry.session? k = some s) :
    s.worker.isIdle = true ↔
      ∀ x ∈ Worker.History.accepted (notes k ((start settings standard ids now).trace events)),
        x ∈ (Worker.History.ended
          (notes k ((start settings standard ids now).trace events))).map Prod.fst := by
  obtain ⟨hrun, hhistory⟩ := worker_of_run? h hs
  obtain ⟨htold, hcounted⟩ := Worker.told_along hrun
  have hidle := (Worker.metered_along hrun).isIdle_iff htold.order hcounted
  rwa [Worker.noted_trace, hhistory] at hidle

end Runs
end Engine
end Workbench
