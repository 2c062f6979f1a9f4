import Workbench.Proofs.Engine.Trace

/-!
# What a task is to the others

Tasks meet in the registry and nowhere else.  What stands at the place of a task makes no difference
to any event that is about another task, unless a patrol stands there, which can be called off.

* `Engine.step?_setTask`: an event about another task comes to the same with another task at the
  place;
* `others` are the events of a run without those of one task.
-/

namespace Workbench

variable {ρ : Type}

/-- The task is a patrol. -/
def Task.isPatrol : Task → Bool
  | patrol _ _ => true
  | _ => false

namespace Engine

variable {e : Engine ρ} {q place : Nat} {t t' : Task}

/-! ## 1. Another task at a place -/

theorem getElem?_setTask_of_ne (e : Engine ρ) (t : Task) (h : place ≠ q) :
    (e.setTask q t).tasks[place]? = e.tasks[place]? :=
  List.getElem?_set_ne h.symm

theorem setTask_self (h : e.tasks[q]? = some t) : e.setTask q t = e := by
  obtain ⟨hlt, rfl⟩ := List.getElem?_eq_some_iff.mp h
  simp only [setTask, List.set_getElem_self]

theorem setTask_setTask (e : Engine ρ) (q : Nat) (t t' : Task) :
    (e.setTask q t).setTask q t' = e.setTask q t' := by
  simp only [setTask, List.set_set]

theorem setTask_comm (e : Engine ρ) (t t' : Task) (h : place ≠ q) :
    (e.setTask q t).setTask place t' = (e.setTask place t').setTask q t := by
  simp only [setTask, List.set_comm _ _ h]

theorem proceed_setTask (e : Engine ρ) (t t' : Task) (r : Registry ρ) (h : place ≠ q) :
    (e.setTask q t).proceed place r t' = (e.proceed place r t').setTask q t := by
  simp only [setTask, proceed, List.set_comm _ _ h]

theorem follow?_setTask {T A : Type} (e : Engine ρ) (t : Task) (h : place ≠ q) (task : T → Task)
    (answer : A → Answer) (p : Progress (Registry ρ) T A) :
    (e.setTask q t).follow? place task answer p =
      (e.follow? place task answer p).map (·.setTask q t) := by
  cases p with
  | wait => rfl
  | next r stage => exact congrArg some (e.proceed_setTask t _ r h)
  | done r a => exact congrArg some (e.proceed_setTask t _ r h)

/-- The patrol is called off wherever it is, and it is not here. -/
theorem callOff_setTask (ht : e.tasks[q]? = some t) (hpatrol : t.isPatrol = false)
    (hpatrol' : t'.isPatrol = false) : (e.setTask q t').callOff = e.callOff.setTask q t' := by
  have hhere : (e.setTask q t').tasks[q]? = some t' := by
    simp only [setTask, List.getElem?_set_self (List.getElem?_eq_some_iff.mp ht).1]
  cases hp : e.patrol with
  | none => simp only [callOff, setTask, hp]
  | some place =>
    have hp' : (e.setTask q t').patrol = some place := hp
    rcases Decidable.em (place = q) with rfl | hne
    · cases t with
      | patrol _ _ => cases hpatrol
      | _ =>
        cases t' with
        | patrol _ _ => cases hpatrol'
        | _ =>
          simp only [callOff, hp, hp', hhere, ht]
          rfl
    · simp only [callOff, hp, hp', e.getElem?_setTask_of_ne t' hne]
      cases htask : e.tasks[place]? with
      | none => rfl
      | some t₁ =>
        cases t₁ with
        | patrol stage calledOff =>
          simp only [setTask, List.set_comm _ _ hne]
        | _ => rfl

/-! ## 2. Events about other tasks -/

theorem go?_setTask (ht : e.tasks[q]? = some t) (hpatrol : t.isPatrol = false)
    (hpatrol' : t'.isPatrol = false) (h : place ≠ q) :
    (e.setTask q t').go? place = (e.go? place).map (·.setTask q t') := by
  unfold go?
  rw [e.getElem?_setTask_of_ne t' h]
  cases htask : e.tasks[place]? with
  | none => rfl
  | some t₁ =>
    cases t₁ with
    | callOff =>
      simp only [callOff_setTask ht hpatrol hpatrol', setTask_comm _ _ _ h, Option.map_some]
    | patrol stage calledOff =>
      simp only
      split
      · rfl
      · exact follow?_setTask e t' h _ _ _
    | finished a => rfl
    | gone => rfl
    | _ => exact follow?_setTask e t' h _ _ _

/-- Whether a task has a next stage is not asked of the others. -/
theorem map_setTask {T : Type} (e : Engine ρ) (t : Task) (h : place ≠ q) (stage : Option T)
    (task : T → Task) :
    (stage.map fun stage => (e.setTask q t).setTask place (task stage)) =
      (stage.map fun stage => e.setTask place (task stage)).map (·.setTask q t) := by
  cases stage with
  | none => rfl
  | some stage => exact congrArg some (e.setTask_comm t _ h)

theorem detour?_setTask (e : Engine ρ) (t : Task) (way : Sweep.Detour) (h : place ≠ q) :
    (e.setTask q t).detour? place way = (e.detour? place way).map (·.setTask q t) := by
  unfold detour?
  rw [e.getElem?_setTask_of_ne t h]
  cases htask : e.tasks[place]? with
  | none => rfl
  | some t₁ =>
    cases t₁ with
    | sweep stage => exact e.map_setTask t h _ _
    | patrol stage calledOff =>
      cases stage with
      | resting => rfl
      | sweeping stage => exact e.map_setTask t h _ _
    | _ => rfl

theorem expire?_setTask (e : Engine ρ) (t : Task) (h : place ≠ q) :
    (e.setTask q t).expire? place = (e.expire? place).map (·.setTask q t) := by
  unfold expire?
  rw [e.getElem?_setTask_of_ne t h]
  cases htask : e.tasks[place]? with
  | none => rfl
  | some t₁ =>
    cases t₁ with
    | call c stage =>
      simp only [Option.map_bind]
      exact congrArg _ (funext fun p => follow?_setTask e t h _ _ p)
    | patrol stage calledOff =>
      cases calledOff with
      | true => rfl
      | false => exact e.map_setTask t h _ _
    | close id stage => exact e.map_setTask t h _ _
    | sweep stage => exact e.map_setTask t h _ _
    | shutdown stage => exact e.map_setTask t h _ _
    | _ => rfl

theorem refuse?_setTask (e : Engine ρ) (t : Task) (reason : String) (h : place ≠ q) :
    (e.setTask q t).refuse? place reason = (e.refuse? place reason).map (·.setTask q t) := by
  unfold refuse?
  rw [e.getElem?_setTask_of_ne t h]
  cases htask : e.tasks[place]? with
  | none => rfl
  | some t₁ =>
    cases t₁ with
    | create stage =>
      simp only [Option.map_bind]
      exact congrArg _ (funext fun p => follow?_setTask e t h _ _ p)
    | call c stage =>
      simp only [Option.map_bind]
      exact congrArg _ (funext fun p => follow?_setTask e t h _ _ p)
    | _ => rfl

theorem cutOff?_setTask (e : Engine ρ) (t : Task) (h : place ≠ q) :
    (e.setTask q t).cutOff? place = (e.cutOff? place).map (·.setTask q t) := by
  unfold cutOff?
  rw [e.getElem?_setTask_of_ne t h]
  cases htask : e.tasks[place]? with
  | none => rfl
  | some t₁ =>
    cases t₁ with
    | patrol stage calledOff =>
      cases calledOff with
      | false => rfl
      | true =>
        simp only
        split
        · exact congrArg some (e.setTask_comm t _ h)
        · rfl
    | _ => rfl

/-- **An event about another task comes to the same**, whatever stands at the place. -/
theorem step?_setTask {event : Event ρ} (ht : e.tasks[q]? = some t)
    (hpatrol : t.isPatrol = false) (hpatrol' : t'.isPatrol = false)
    (h : event.place? ≠ some q) :
    (e.setTask q t').step? event = (e.step? event).map (·.setTask q t') := by
  have hlt : q < e.tasks.length := (List.getElem?_eq_some_iff.mp ht).1
  have hplace {place : Nat} (h : some place ≠ some q) : place ≠ q := fun he => h (congrArg some he)
  cases event with
  | arrive request =>
    simp only [step?, setTask, Option.map_some, List.set_append_left _ _ hlt]
  | startPatrol =>
    cases hp : e.patrol with
    | some place => simp only [step?, setTask, hp, Option.map_some]
    | none =>
      simp only [step?, setTask, hp, Option.map_some, List.length_set,
        List.set_append_left _ _ hlt]
  | go place => exact go?_setTask ht hpatrol hpatrol' (hplace h)
  | detour place way => exact detour?_setTask e t' way (hplace h)
  | expire place => exact expire?_setTask e t' (hplace h)
  | cutOff place => exact cutOff?_setTask e t' (hplace h)
  | refuse place reason => exact refuse?_setTask e t' reason (hplace h)
  | work seat move =>
    simp only [step?, setTask]
    cases e.registry.session? seat with
    | none => rfl
    | some s =>
      simp only
      cases s.advance? e.registry.now move <;> rfl
  | pass time => rfl

/-! ## 3. Runs without the events of a task -/

/-- The events without those of the task at a place. -/
def others (q : Nat) (events : List (Event ρ)) : List (Event ρ) :=
  events.filter fun event => event.place? != some q

theorem others_cons_own {event : Event ρ} (h : event.place? = some q) (events : List (Event ρ)) :
    others q (event :: events) = others q events :=
  List.filter_cons_of_neg (by simp only [h, bne_self_eq_false, Bool.false_eq_true,
    not_false_eq_true])

theorem others_cons_other {event : Event ρ} (h : event.place? ≠ some q) (events : List (Event ρ)) :
    others q (event :: events) = event :: others q events :=
  List.filter_cons_of_pos (bne_iff_ne.mpr h)

end Engine
end Workbench
