import Workbench.Proofs.Engine.Change

/-!
# The steps of an engine

An event lets one task go on, or one worker, or the clock.  `Engine.Steps` lists what there is, each
with the state in which it is possible, and `steps_of_step?` says that there is nothing else.
`Task.Lapses` does the same for a task whose time is up.

* `registry_of_step?`: the registry is left as the change of the event makes it;
* `task_of_step?`: the task at a place is new, or it took its turn (`Turn`), or it is as before but
  for the mark of a patrol that is called off;
* `takes_of_step?`: what an event about a task makes of the engine (`Takes`).
-/

namespace Workbench

variable {ρ : Type}

/-! ## 1. The turn of a task -/

/-- The registry and the task after a step, if there was one. -/
def Progress.goes {T A : Type} (task : T → Task) (answer : A → Answer) :
    Progress (Registry ρ) T A → Option (Registry ρ × Task)
  | wait => none
  | next r stage => some (r, task stage)
  | done r a => some (r, .finished (answer a))

theorem Progress.state?_of_goes {T A : Type} {task : T → Task} {answer : A → Answer}
    {p : Progress (Registry ρ) T A} {r : Registry ρ} {t : Task}
    (h : p.goes task answer = some (r, t)) : p.state? = some r := by
  cases p <;> cases h <;> rfl

namespace Progress

/-- A task goes on, or ends. -/
theorem cases_of_goes {T A : Type} {p : Progress (Registry ρ) T A} {task : T → Task}
    {answer : A → Answer} {r : Registry ρ} {t : Task} (h : p.goes task answer = some (r, t)) :
    (∃ stage, p = .next r stage ∧ t = task stage) ∨
      ∃ a, p = .done r a ∧ t = .finished (answer a) := by
  cases p with
  | wait => cases h
  | next r' stage =>
    cases h
    exact Or.inl ⟨stage, rfl, rfl⟩
  | done r' a =>
    cases h
    exact Or.inr ⟨a, rfl, rfl⟩

end Progress

namespace Task

/-- The registry and the task after the next step of the task.  A task that calls the patrol off
does more than that. -/
def go? (r : Registry ρ) (standard : Duration) : Task → Option (Registry ρ × Task)
  | create stage => (stage.step r).goes create .created
  | close id stage => (stage.step r id).goes (close id) .closed
  | terminate id stage => (stage.step r id).goes (terminate id) .closed
  | sweep stage => (stage.step r).goes sweep .swept
  | shutdown stage => (stage.step r).goes shutdown fun () => .stopped
  | call c stage => (stage.step r standard c).goes (call c) .called
  | patrol stage calledOff =>
    if calledOff && stage.isWaiting then none
    else (stage.step r).goes (patrol · calledOff) fun () => .stopped
  | _ => none

/-- The task after a sweep has done something else than its next step. -/
def detour? (r : Registry ρ) (way : Sweep.Detour) : Task → Option Task
  | sweep stage => (stage.detour? r way).map sweep
  | patrol (.sweeping stage) calledOff =>
    (stage.detour? r way).map fun stage => patrol (.sweeping stage) calledOff
  | _ => none

/-- The registry and the task after the time of its wait is up. -/
def expire? (r : Registry ρ) : Task → Option (Registry ρ × Task)
  | close id stage => stage.expire?.map fun stage => (r, close id stage)
  | sweep stage => stage.expire?.map fun stage => (r, sweep stage)
  | shutdown stage => stage.expire?.map fun stage => (r, shutdown stage)
  | call c stage => (stage.expire? r).bind (Progress.goes (call c) .called)
  | patrol stage false => stage.expire?.map fun stage => (r, patrol stage false)
  | _ => none

/-- The registry and the task after it got no worker for its session. -/
def refuse? (r : Registry ρ) (reason : String) : Task → Option (Registry ρ × Task)
  | create stage => (stage.refuse? r reason).bind (Progress.goes create .created)
  | call c stage => (stage.refuse? r reason).bind (Progress.goes (call c) .called)
  | _ => none

/-- What becomes of a task whose time is up, and of the registry. -/
inductive Lapses (r : Registry ρ) : Task → Registry ρ → Task → Prop where
  /-- A call gives up waiting for its job, and its session is suspected. -/
  | await {c : Call} {id : String} {seat ticket : Nat} {limit : Duration} {s : Session ρ}
      (hs : r.session? seat = some s) :
      Lapses r (call c (.await id seat ticket limit)) (r.put seat s.markSuspect)
        (finished (.called (.error (.timeout limit))))
  | callClose {c : Call} {id : String} {stage stage' : Closing} (h : stage.expire? = some stage') :
      Lapses r (call c (.close id stage)) r (call c (.close id stage'))
  | closeFaulted {c : Call} {id : String} {stage stage' : Closing}
      (h : stage.expire? = some stage') :
      Lapses r (call c (.closeFaulted id stage)) r (call c (.closeFaulted id stage'))
  | close {id : String} {stage stage' : Closing} (h : stage.expire? = some stage') :
      Lapses r (close id stage) r (close id stage')
  | sweep {stage stage' : Sweep} (h : stage.expire? = some stage') :
      Lapses r (sweep stage) r (sweep stage')
  | patrol {stage stage' : Patrol} (h : stage.expire? = some stage') :
      Lapses r (patrol stage false) r (patrol stage' false)
  | shutdown {stage stage' : Shutdown} (h : stage.expire? = some stage') :
      Lapses r (shutdown stage) r (shutdown stage')

/-- **Nothing else becomes of a task whose time is up.** -/
theorem lapses_of_expire? {r r' : Registry ρ} {t t' : Task} (h : t.expire? r = some (r', t')) :
    Lapses r t r' t' := by
  cases t with
  | call c stage =>
    obtain ⟨p, hp, hg⟩ := Option.bind_eq_some_iff.mp h
    cases stage with
    | await id seat ticket limit =>
      simp only [CallStage.expire?] at hp
      split at hp
      · cases hp
      · rename_i s hs
        split at hp <;> cases hp
        cases hg
        exact .await hs
    | close id stage =>
      obtain ⟨stage', hstage, rfl⟩ := Option.map_eq_some_iff.mp hp
      cases hg
      exact .callClose hstage
    | closeFaulted id stage =>
      obtain ⟨stage', hstage, rfl⟩ := Option.map_eq_some_iff.mp hp
      cases hg
      exact .closeFaulted hstage
    | _ => cases hp
  | patrol stage calledOff =>
    cases calledOff with
    | true => cases h
    | false =>
      obtain ⟨stage', hstage, he⟩ := Option.map_eq_some_iff.mp h
      cases he
      exact .patrol hstage
  | close id stage =>
    obtain ⟨stage', hstage, he⟩ := Option.map_eq_some_iff.mp h
    cases he
    exact .close hstage
  | sweep stage =>
    obtain ⟨stage', hstage, he⟩ := Option.map_eq_some_iff.mp h
    cases he
    exact .sweep hstage
  | shutdown stage =>
    obtain ⟨stage', hstage, he⟩ := Option.map_eq_some_iff.mp h
    cases he
    exact .shutdown hstage
  | _ => cases h

/-- A task gives up waiting, or gets no worker, without touching what is not its own. -/
theorem registry_of_expire? {r r' : Registry ρ} {t t' : Task} (h : t.expire? r = some (r', t')) :
    r' = r.after t.lapse := by
  cases lapses_of_expire? h with
  | await hs =>
    simp only [lapse]
    rw [Registry.after_of_session rfl hs]
    rfl
  | _ => rfl

theorem registry_of_go? {r r' : Registry ρ} {standard : Duration} {t t' : Task}
    (h : t.go? r standard = some (r', t')) : r' = r.after (t.change r) := by
  cases t with
  | create stage => exact Creation.state?_step (Progress.state?_of_goes h)
  | close id stage => exact Closing.state?_step (Progress.state?_of_goes h)
  | terminate id stage => exact Termination.state?_step (Progress.state?_of_goes h)
  | sweep stage => exact Sweep.state?_step (Progress.state?_of_goes h)
  | shutdown stage => exact Task.state?_shutdown (Progress.state?_of_goes h)
  | call c stage => exact CallStage.state?_step (Progress.state?_of_goes h)
  | patrol stage calledOff =>
    simp only [go?] at h
    split at h
    · cases h
    · exact Task.state?_patrol (Progress.state?_of_goes h)
  | callOff => cases h
  | finished answer => cases h
  | gone => cases h

/-- A task that makes a detour is at a sweep, and stays at it. -/
theorem of_detour? {r : Registry ρ} {way : Sweep.Detour} {t t' : Task}
    (h : t.detour? r way = some t') : ∃ stage stage', stage.detour? r way = some stage' ∧
      ((t = sweep stage ∧ t' = sweep stage') ∨ ∃ calledOff,
        t = patrol (.sweeping stage) calledOff ∧ t' = patrol (.sweeping stage') calledOff) := by
  unfold detour? at h
  split at h
  · obtain ⟨stage', hs, rfl⟩ := Option.map_eq_some_iff.mp h
    exact ⟨_, stage', hs, Or.inl ⟨rfl, rfl⟩⟩
  · obtain ⟨stage', hs, rfl⟩ := Option.map_eq_some_iff.mp h
    exact ⟨_, stage', hs, Or.inr ⟨_, rfl, rfl⟩⟩
  · cases h

/-- A task that gets no worker has asked for one, and ends. -/
theorem of_refuse? {r r' : Registry ρ} {reason : String} {t t' : Task}
    (h : t.refuse? r reason = some (r', t')) :
    r' = r ∧ r.isFull = false ∧ ∃ metadata,
      (t = .create (.enter metadata) ∧
        t' = .finished (.created (.error (.worker (.spawn reason))))) ∨
      ∃ c, t = .call c (.create (.enter metadata)) ∧
        t' = .finished (.called (.error (.sessionInitFailed reason))) := by
  have hstart : ∀ {stage : Creation} {p}, stage.refuse? r reason = some p →
      r.isFull = false ∧ p = .done r (.error (.worker (.spawn reason))) ∧
        ∃ metadata, stage = .enter metadata := by
    intro stage p hp
    cases stage with
    | enter metadata =>
      simp only [Creation.refuse?] at hp
      split at hp <;> cases hp
      exact ⟨by simpa using ‹¬ r.isFull = true›, rfl, metadata, rfl⟩
    | _ => cases hp
  cases t with
  | create stage =>
    obtain ⟨p, hp, hg⟩ := Option.bind_eq_some_iff.mp h
    obtain ⟨hf, rfl, metadata, rfl⟩ := hstart hp
    cases hg
    exact ⟨rfl, hf, metadata, Or.inl ⟨rfl, rfl⟩⟩
  | call c stage =>
    obtain ⟨p, hp, hg⟩ := Option.bind_eq_some_iff.mp h
    cases stage with
    | create stage =>
      obtain ⟨q, hq, rfl⟩ := Option.map_eq_some_iff.mp hp
      obtain ⟨hf, rfl, metadata, rfl⟩ := hstart hq
      cases hg
      exact ⟨rfl, hf, metadata, Or.inr ⟨c, rfl, rfl⟩⟩
    | _ => cases hp
  | _ => cases h

end Task

/-! ## 2. The events of an engine -/

/-- The task that an event is about. -/
def Event.place? : Event ρ → Option Nat
  | go place => some place
  | detour place _ => some place
  | expire place => some place
  | cutOff place => some place
  | refuse place _ => some place
  | _ => none

namespace Engine

/-- What an event changes in the registry. -/
def change (e : Engine ρ) : Event ρ → Change ρ
  | .go place =>
    match e.tasks[place]? with
    | some t => t.change e.registry
    | none => .nothing
  | .expire place =>
    match e.tasks[place]? with
    | some t => t.lapse
    | none => .nothing
  | .work seat move => .work seat move
  | .pass time => .pass time
  | _ => .nothing

/-- The events of an engine, each with the state in which it is possible. -/
inductive Steps (e : Engine ρ) : Event ρ → Engine ρ → Prop where
  | arrive (request : Request) :
      Steps e (.arrive request) { e with tasks := e.tasks ++ [request.task] }
  | patrolled (hp : e.patrol ≠ none) : Steps e .startPatrol e
  | startPatrol {t : Task} (hp : e.patrol = none) (ht : t = .gone ∨ t = .patrol .resting false) :
      Steps e .startPatrol { e with tasks := e.tasks ++ [t], patrol := some e.tasks.length }
  | go {place : Nat} {t t' : Task} {r : Registry ρ} (ht : e.tasks[place]? = some t)
      (hg : t.go? e.registry e.callTimeout = some (r, t')) :
      Steps e (.go place) (e.proceed place r t')
  | callOff {place : Nat} (ht : e.tasks[place]? = some .callOff) :
      Steps e (.go place) (e.callOff.setTask place (.shutdown .collect))
  | detour {place : Nat} {way : Sweep.Detour} {t t' : Task} (ht : e.tasks[place]? = some t)
      (hg : t.detour? e.registry way = some t') :
      Steps e (.detour place way) (e.proceed place e.registry t')
  | expire {place : Nat} {t t' : Task} {r : Registry ρ} (ht : e.tasks[place]? = some t)
      (hg : t.expire? e.registry = some (r, t')) : Steps e (.expire place) (e.proceed place r t')
  | cutOff {place : Nat} {stage : Patrol} (ht : e.tasks[place]? = some (.patrol stage true))
      (hp : stage.isPoint = true) : Steps e (.cutOff place) (e.setTask place .gone)
  | refuse {place : Nat} {reason : String} {t t' : Task} {r : Registry ρ}
      (ht : e.tasks[place]? = some t) (hg : t.refuse? e.registry reason = some (r, t')) :
      Steps e (.refuse place reason) (e.proceed place r t')
  | work {seat : Nat} {move : Worker.Move ρ JobAnswer} {s s' : Session ρ}
      (hs : e.registry.session? seat = some s) (hm : s.advance? e.registry.now move = some s') :
      Steps e (.work seat move) { e with registry := e.registry.put seat s' }
  | pass (time : Duration) :
      Steps e (.pass time)
        { e with registry := { e.registry with now := e.registry.now + time.nanos } }

theorem follow?_eq {T A : Type} (e : Engine ρ) (place : Nat) (task : T → Task)
    (answer : A → Answer) (p : Progress (Registry ρ) T A) :
    e.follow? place task answer p = (p.goes task answer).map fun x => e.proceed place x.1 x.2 := by
  cases p <;> rfl

/-- A task has no step where it has to wait. -/
theorem follow?_eq_none {T A : Type} {e : Engine ρ} {place : Nat} {task : T → Task}
    {answer : A → Answer} {p : Progress (Registry ρ) T A} :
    e.follow? place task answer p = none ↔ p = .wait := by
  cases p <;> simp [follow?]

/-- A turn that is given to a task is a step of the task, but for the call-off, which an engine
makes itself. -/
theorem steps_of_go? {e e' : Engine ρ} {place : Nat} (h : e.go? place = some e') :
    Steps e (.go place) e' := by
  have hgo : ∀ {t : Task}, e.tasks[place]? = some t →
      ((t.go? e.registry e.callTimeout).map fun x => e.proceed place x.1 x.2) = some e' →
      Steps e (.go place) e' := by
    intro t ht hm
    obtain ⟨⟨r, t'⟩, hg, rfl⟩ := Option.map_eq_some_iff.mp hm
    exact .go ht hg
  simp only [Engine.go?, follow?_eq] at h
  split at h
  · rename_i ht
    exact hgo ht h
  · rename_i ht
    exact hgo ht h
  · rename_i ht
    exact hgo ht h
  · rename_i ht
    exact hgo ht h
  · cases h
    exact .callOff ‹_›
  · rename_i ht
    exact hgo ht h
  · rename_i ht
    exact hgo ht h
  · rename_i ht
    split at h
    · cases h
    · rename_i hw
      refine hgo ht ?_
      simp only [Task.go?]
      rw [if_neg hw]
      exact h
  · cases h

theorem steps_of_expire? {e e' : Engine ρ} {place : Nat} (h : e.expire? place = some e') :
    Steps e (.expire place) e' := by
  have hexpire : ∀ {t : Task}, e.tasks[place]? = some t →
      ((t.expire? e.registry).map fun x => e.proceed place x.1 x.2) = some e' →
      Steps e (.expire place) e' := by
    intro t ht hm
    obtain ⟨⟨r, t'⟩, hg, rfl⟩ := Option.map_eq_some_iff.mp hm
    exact .expire ht hg
  simp only [Engine.expire?] at h
  split at h
  · rename_i ht
    refine hexpire ht ?_
    rw [Task.expire?, Option.map_map]
    exact h
  · rename_i ht
    refine hexpire ht ?_
    rw [Task.expire?, Option.map_map]
    exact h
  · rename_i ht
    refine hexpire ht ?_
    rw [Task.expire?, Option.map_map]
    exact h
  · rename_i ht
    refine hexpire ht ?_
    rw [Task.expire?, Option.map_bind, ← h]
    exact congrArg _ (funext fun p => (e.follow?_eq place _ _ p).symm)
  · rename_i ht
    refine hexpire ht ?_
    rw [Task.expire?, Option.map_map]
    exact h
  · cases h

theorem steps_of_detour? {e e' : Engine ρ} {place : Nat} {way : Sweep.Detour}
    (h : e.detour? place way = some e') : Steps e (.detour place way) e' := by
  simp only [Engine.detour?] at h
  split at h
  · rename_i ht
    obtain ⟨stage', hs, rfl⟩ := Option.map_eq_some_iff.mp h
    exact .detour ht (Option.map_eq_some_iff.mpr ⟨stage', hs, rfl⟩)
  · rename_i ht
    obtain ⟨stage', hs, rfl⟩ := Option.map_eq_some_iff.mp h
    exact .detour ht (Option.map_eq_some_iff.mpr ⟨stage', hs, rfl⟩)
  · cases h

theorem steps_of_refuse? {e e' : Engine ρ} {place : Nat} {reason : String}
    (h : e.refuse? place reason = some e') : Steps e (.refuse place reason) e' := by
  have hrefuse : ∀ {t : Task}, e.tasks[place]? = some t →
      ((t.refuse? e.registry reason).map fun x => e.proceed place x.1 x.2) = some e' →
      Steps e (.refuse place reason) e' := by
    intro t ht hm
    obtain ⟨⟨r, t'⟩, hg, rfl⟩ := Option.map_eq_some_iff.mp hm
    exact .refuse ht hg
  simp only [Engine.refuse?] at h
  split at h
  · rename_i ht
    refine hrefuse ht ?_
    rw [Task.refuse?, Option.map_bind, ← h]
    exact congrArg _ (funext fun p => (e.follow?_eq place _ _ p).symm)
  · rename_i ht
    refine hrefuse ht ?_
    rw [Task.refuse?, Option.map_bind, ← h]
    exact congrArg _ (funext fun p => (e.follow?_eq place _ _ p).symm)
  · cases h

/-- **Nothing else happens to an engine.** -/
theorem steps_of_step? {e e' : Engine ρ} {event : Event ρ} (h : e.step? event = some e') :
    Steps e event e' := by
  cases event with
  | arrive request =>
    cases h
    exact .arrive request
  | startPatrol =>
    simp only [step?] at h
    split at h
    · rename_i place hp
      cases h
      exact .patrolled (by simp [hp])
    · cases h
      refine .startPatrol ‹_› ?_
      split
      · exact Or.inl rfl
      · exact Or.inr rfl
  | go place => exact steps_of_go? h
  | detour place way => exact steps_of_detour? h
  | expire place => exact steps_of_expire? h
  | cutOff place =>
    simp only [step?, Engine.cutOff?] at h
    split at h
    · split at h <;> cases h
      exact .cutOff ‹_› ‹_›
    · cases h
  | refuse place reason => exact steps_of_refuse? h
  | work seat move =>
    simp only [step?] at h
    split at h
    · cases h
    · split at h <;> cases h
      exact .work ‹_› ‹_›
  | pass time =>
    cases h
    exact .pass time

@[simp] theorem registry_callOff (e : Engine ρ) : e.callOff.registry = e.registry := by
  unfold callOff
  split
  · rfl
  · split <;> rfl

/-- **An event changes the registry as it says**, and in no other way. -/
theorem registry_of_step? {e e' : Engine ρ} {event : Event ρ} (h : e.step? event = some e') :
    e'.registry = e.registry.after (e.change event) := by
  cases steps_of_step? h with
  | arrive request => rfl
  | patrolled hp => rfl
  | startPatrol hp ht => rfl
  | go ht hg =>
    simp only [change, ht]
    exact Task.registry_of_go? hg
  | callOff ht =>
    simp only [change, ht, setTask, registry_callOff]
    rfl
  | detour ht hg => rfl
  | expire ht hg =>
    simp only [change, ht]
    exact Task.registry_of_expire? hg
  | cutOff ht hp => rfl
  | refuse ht hg => exact (Task.of_refuse? hg).1
  | work hs hm =>
    simp only [change]
    rw [Registry.after_of_session rfl hs]
    simp [Change.on, hm]
  | pass time => rfl

/-! ## 3. The task at a place -/

/-- A task that took its turn: what it was, what it is now, and what it changed. -/
inductive Turn (r : Registry ρ) (standard : Duration) : Task → Task → Change ρ → Prop where
  | go {t t' : Task} {r' : Registry ρ} (h : t.go? r standard = some (r', t')) :
      Turn r standard t t' (t.change r)
  | callOff : Turn r standard .callOff (.shutdown .collect) .nothing
  | detour {t t' : Task} {way : Sweep.Detour} (h : t.detour? r way = some t') :
      Turn r standard t t' .nothing
  | expire {t t' : Task} {r' : Registry ρ} (h : t.expire? r = some (r', t')) :
      Turn r standard t t' t.lapse
  | cutOff {stage : Patrol} (h : stage.isPoint = true) :
      Turn r standard (.patrol stage true) .gone .nothing
  | refuse {t t' : Task} {r' : Registry ρ} {reason : String}
      (h : t.refuse? r reason = some (r', t')) : Turn r standard t t' .nothing

/-- A task that has just come in. -/
def Fresh (t : Task) : Prop :=
  (∃ request : Request, t = request.task) ∨ t = .patrol .resting false ∨ t = .gone

/-- A task to which nothing happened, but that a patrol may have been called off. -/
def Like (t t' : Task) : Prop :=
  t' = t ∨ ∃ stage calledOff, t = .patrol stage calledOff ∧ t' = .patrol stage true

/-- Calling the patrol off only marks it. -/
theorem task_callOff (e : Engine ρ) {q : Nat} {t : Task} (ht : e.tasks[q]? = some t) :
    ∃ t', e.callOff.tasks[q]? = some t' ∧ Like t t' := by
  unfold callOff
  split
  · exact ⟨t, ht, Or.inl rfl⟩
  · rename_i place hp
    split
    · rename_i stage calledOff hq
      by_cases hsame : place = q
      · subst hsame
        rw [ht] at hq
        cases hq
        refine ⟨.patrol stage true, ?_, Or.inr ⟨stage, calledOff, rfl, rfl⟩⟩
        simp [setTask, (List.getElem?_eq_some_iff.mp ht).1]
      · exact ⟨t, by simpa [setTask, List.getElem?_set, hsame] using ht, Or.inl rfl⟩
    · exact ⟨t, ht, Or.inl rfl⟩

/-- **What an event makes of a task**: its turn, if the event is about it, and else nothing. -/
theorem task_of_step? {e e' : Engine ρ} {event : Event ρ} (h : e.step? event = some e') {q : Nat}
    {t : Task} (ht : e.tasks[q]? = some t) : ∃ t', e'.tasks[q]? = some t' ∧
      ((event.place? = some q ∧ Turn e.registry e.callTimeout t t' (e.change event)) ∨
        (event.place? ≠ some q ∧ Like t t')) := by
  have hlt : q < e.tasks.length := (List.getElem?_eq_some_iff.mp ht).1
  -- one task is replaced by another
  have hset : ∀ {place : Nat} {t₀ t₁ : Task}, e.tasks[place]? = some t₀ →
      event.place? = some place → Turn e.registry e.callTimeout t₀ t₁ (e.change event) →
      ∃ t', (e.tasks.set place t₁)[q]? = some t' ∧
        ((event.place? = some q ∧ Turn e.registry e.callTimeout t t' (e.change event)) ∨
          (event.place? ≠ some q ∧ Like t t')) := by
    intro place t₀ t₁ h₀ hp hturn
    by_cases hsame : place = q
    · subst hsame
      rw [ht] at h₀
      cases h₀
      exact ⟨t₁, by simp [hlt], Or.inl ⟨hp, hturn⟩⟩
    · refine ⟨t, by simpa [List.getElem?_set, hsame] using ht, Or.inr ⟨?_, Or.inl rfl⟩⟩
      simpa [hp] using hsame
  cases steps_of_step? h with
  | arrive request =>
    exact ⟨t, by simpa [List.getElem?_append_left hlt] using ht, Or.inr ⟨by simp [Event.place?],
      Or.inl rfl⟩⟩
  | patrolled hp => exact ⟨t, ht, Or.inr ⟨by simp [Event.place?], Or.inl rfl⟩⟩
  | startPatrol hp h₁ =>
    exact ⟨t, by simpa [List.getElem?_append_left hlt] using ht, Or.inr ⟨by simp [Event.place?],
      Or.inl rfl⟩⟩
  | go h₀ hg =>
    refine hset h₀ rfl ?_
    simp only [change, h₀]
    exact .go hg
  | @callOff place h₀ =>
    by_cases hsame : place = q
    · subst hsame
      rw [ht] at h₀
      cases h₀
      refine ⟨.shutdown .collect, ?_, Or.inl ⟨rfl, ?_⟩⟩
      · obtain ⟨t', h', -⟩ := task_callOff e ht
        have := (List.getElem?_eq_some_iff.mp h').1
        simp [setTask, this]
      · simp only [change, ht]
        exact .callOff
    · obtain ⟨t', h', hl⟩ := task_callOff e ht
      refine ⟨t', by simpa [setTask, List.getElem?_set, hsame] using h', Or.inr ⟨?_, hl⟩⟩
      simpa [Event.place?] using hsame
  | detour h₀ hg => exact hset h₀ rfl (.detour hg)
  | expire h₀ hg =>
    refine hset h₀ rfl ?_
    simp only [change, h₀]
    exact .expire hg
  | cutOff h₀ hp => exact hset h₀ rfl (.cutOff hp)
  | refuse h₀ hg => exact hset h₀ rfl (.refuse hg)
  | work hs hm => exact ⟨t, ht, Or.inr ⟨by simp [Event.place?], Or.inl rfl⟩⟩
  | pass time => exact ⟨t, ht, Or.inr ⟨by simp [Event.place?], Or.inl rfl⟩⟩

/-- A task goes on at its own place. -/
theorem tasks_proceed {e : Engine ρ} {q : Nat} {t : Task} (ht : e.tasks[q]? = some t)
    (r : Registry ρ) (t' : Task) : (e.proceed q r t').tasks[q]? = some t' := by
  simp [proceed, (List.getElem?_eq_some_iff.mp ht).1]

/-- The turns of the task at a place, each with the event and with what becomes of the engine. -/
inductive Takes (e : Engine ρ) (q : Nat) : Task → Event ρ → Engine ρ → Prop where
  | go {t t' : Task} {r : Registry ρ} (hg : t.go? e.registry e.callTimeout = some (r, t')) :
      Takes e q t (.go q) (e.proceed q r t')
  | callOff : Takes e q .callOff (.go q) (e.callOff.setTask q (.shutdown .collect))
  | detour {t t' : Task} {way : Sweep.Detour} (hg : t.detour? e.registry way = some t') :
      Takes e q t (.detour q way) (e.proceed q e.registry t')
  | expire {t t' : Task} {r : Registry ρ} (hg : t.expire? e.registry = some (r, t')) :
      Takes e q t (.expire q) (e.proceed q r t')
  | cutOff {stage : Patrol} (hp : stage.isPoint = true) :
      Takes e q (.patrol stage true) (.cutOff q) (e.setTask q .gone)
  | refuse {t t' : Task} {r : Registry ρ} {reason : String}
      (hg : t.refuse? e.registry reason = some (r, t')) :
      Takes e q t (.refuse q reason) (e.proceed q r t')

/-- **An event that is about a task is one of its turns.** -/
theorem takes_of_step? {e e' : Engine ρ} {event : Event ρ} (h : e.step? event = some e') {q : Nat}
    {t : Task} (hp : event.place? = some q) (ht : e.tasks[q]? = some t) :
    Takes e q t event e' := by
  cases steps_of_step? h with
  | go ht₀ hg =>
    cases hp
    rw [ht] at ht₀
    cases ht₀
    exact .go hg
  | callOff ht₀ =>
    cases hp
    rw [ht] at ht₀
    cases ht₀
    exact .callOff
  | detour ht₀ hg =>
    cases hp
    rw [ht] at ht₀
    cases ht₀
    exact .detour hg
  | expire ht₀ hg =>
    cases hp
    rw [ht] at ht₀
    cases ht₀
    exact .expire hg
  | cutOff ht₀ hpoint =>
    cases hp
    rw [ht] at ht₀
    cases ht₀
    exact .cutOff hpoint
  | refuse ht₀ hg =>
    cases hp
    rw [ht] at ht₀
    cases ht₀
    exact .refuse hg
  | _ => cases hp

/-- A task that was not there has just come in. -/
theorem fresh_of_step? {e e' : Engine ρ} {event : Event ρ} (h : e.step? event = some e') {q : Nat}
    {t' : Task} (hq : e.tasks[q]? = none) (ht : e'.tasks[q]? = some t') : Fresh t' := by
  have hge : e.tasks.length ≤ q := List.getElem?_eq_none_iff.mp hq
  have hlt : q < e'.tasks.length := (List.getElem?_eq_some_iff.mp ht).1
  have hcallOff : e.callOff.tasks.length = e.tasks.length := by
    unfold callOff
    split
    · rfl
    · split <;> simp [setTask]
  cases steps_of_step? h with
  | arrive request =>
    simp only [List.length_append, List.length_singleton] at hlt
    obtain rfl : q = e.tasks.length := by omega
    simp only [List.getElem?_concat_length, Option.some.injEq] at ht
    exact Or.inl ⟨request, ht.symm⟩
  | startPatrol hp h₁ =>
    simp only [List.length_append, List.length_singleton] at hlt
    obtain rfl : q = e.tasks.length := by omega
    simp only [List.getElem?_concat_length, Option.some.injEq] at ht
    rcases h₁ with rfl | rfl
    · exact Or.inr (Or.inr ht.symm)
    · exact Or.inr (Or.inl ht.symm)
  | patrolled hp => omega
  | go h₀ hg =>
    simp only [proceed, List.length_set] at hlt
    omega
  | callOff h₀ =>
    simp only [setTask, List.length_set, hcallOff] at hlt
    omega
  | detour h₀ hg =>
    simp only [proceed, List.length_set] at hlt
    omega
  | expire h₀ hg =>
    simp only [proceed, List.length_set] at hlt
    omega
  | cutOff h₀ hp =>
    simp only [setTask, List.length_set] at hlt
    omega
  | refuse h₀ hg =>
    simp only [proceed, List.length_set] at hlt
    omega
  | work hs hm =>
    simp only at hlt
    omega
  | pass time =>
    simp only at hlt
    omega

end Engine
/-! ## 4. The parts of tasks -/

namespace Part

/-- The parts with which a task sets out. -/
inductive Initial : Part → Prop where
  | idle : Initial .idle
  | create (metadata : List (String × Json)) : Initial (.create (.enter metadata))
  | close : Initial (.close .lookup)
  | terminate (id : String) : Initial (.terminate id .lookup)
  | sweep : Initial (.sweep .scan)
  | enter (info : ToolInfo) (arguments : Json) (seat : Nat) : Initial (.enter info arguments seat)

/-- How a task goes on from one part to the next, and what that changes. -/
inductive Goes (r : Registry ρ) : Part → Part → Change ρ → Prop where
  | begin {p : Part} (hp : p.Initial) : Goes r .idle p .nothing
  | entered {info : ToolInfo} {arguments : Json} {seat : Nat} {p : Part} (hp : p.Initial) :
      Goes r (.enter info arguments seat) p (.submit seat true (.tool info arguments))
  | create {stage stage' : Creation} {r' : Registry ρ} (h : stage.step r = .next r' stage') :
      Goes r (.create stage) (.create stage') (stage.change r)
  | created {stage : Creation} {r' : Registry ρ} {a : Except SessionError SessionInfo}
      (h : stage.step r = .done r' a) : Goes r (.create stage) .idle (stage.change r)
  /-- No worker can be started for the session. -/
  | refused (metadata : List (String × Json)) : Goes r (.create (.enter metadata)) .idle .nothing
  | close {id : String} {stage stage' : Closing} {r' : Registry ρ}
      (h : stage.step r id = .next r' stage') :
      Goes r (.close stage) (.close stage') (stage.change r)
  | closed {id : String} {stage : Closing} {r' : Registry ρ} {a : Except SessionError Unit}
      (h : stage.step r id = .done r' a) : Goes r (.close stage) .idle (stage.change r)
  | closeExpired {stage stage' : Closing} (h : stage.expire? = some stage') :
      Goes r (.close stage) (.close stage') .nothing
  | terminate {id : String} {stage stage' : Termination} {r' : Registry ρ}
      (h : stage.step r id = .next r' stage') :
      Goes r (.terminate id stage) (.terminate id stage') (stage.change r id)
  | terminated {id : String} {stage : Termination} {r' : Registry ρ} {a : Except SessionError Unit}
      (h : stage.step r id = .done r' a) : Goes r (.terminate id stage) .idle (stage.change r id)
  | sweep {stage stage' : Sweep} {r' : Registry ρ} (h : stage.step r = .next r' stage') :
      Goes r (.sweep stage) (.sweep stage') (stage.change r)
  | swept {stage : Sweep} {r' : Registry ρ} {a : List String} (h : stage.step r = .done r' a) :
      Goes r (.sweep stage) .idle (stage.change r)
  | strayed {stage stage' : Sweep} {way : Sweep.Detour} (h : stage.detour? r way = some stage') :
      Goes r (.sweep stage) (.sweep stage') .nothing
  | sweepExpired {stage stage' : Sweep} (h : stage.expire? = some stage') :
      Goes r (.sweep stage) (.sweep stage') .nothing
  | cutOff {stage : Sweep} (h : stage.isPoint = true) : Goes r (.sweep stage) .idle .nothing
  /-- A call gives up waiting for its job. -/
  | suspect (seat : Nat) : Goes r .idle .idle (.suspect seat)

end Part

/-- A fresh task is at the beginning of its work. -/
theorem Engine.Fresh.part {t : Task} (h : Fresh t) : t.part.Initial := by
  rcases h with ⟨request, rfl⟩ | rfl | rfl
  · cases request with
    | create metadata => exact .create metadata
    | close id => exact .close
    | terminate id => exact .terminate id
    | sweep => exact .sweep
    | stop => exact .idle
    | call c => exact .idle
  · exact .idle
  · exact .idle

theorem Engine.Like.part {t t' : Task} (h : Like t t') : t'.part = t.part := by
  rcases h with rfl | ⟨stage, calledOff, rfl, rfl⟩
  · rfl
  · cases stage <;> rfl

namespace Progress

variable {S T A : Type}

/-- The part at which a task is after a step, if there was one. -/
def part? (part : T → Part) : Progress S T A → Option Part
  | wait => none
  | next _ stage => some (part stage)
  | done _ _ => some .idle

theorem part?_of_goes {task : T → Task} {answer : A → Answer} {p : Progress (Registry ρ) T A}
    {r : Registry ρ} {t : Task} (h : p.goes task answer = some (r, t)) :
    p.part? (Task.part ∘ task) = some t.part := by
  cases p <;> cases h <;> rfl

end Progress

namespace Part

theorem goes_create {r : Registry ρ} {stage : Creation} {p : Part}
    (h : (stage.step r).part? Part.create = some p) :
    Goes r (.create stage) p (stage.change r) := by
  cases hp : stage.step r with
  | wait =>
    rw [hp] at h
    cases h
  | next r' stage' =>
    rw [hp] at h
    cases h
    exact .create hp
  | done r' a =>
    rw [hp] at h
    cases h
    exact .created hp

theorem goes_close {r : Registry ρ} {id : String} {stage : Closing} {p : Part}
    (h : (stage.step r id).part? Part.close = some p) :
    Goes r (.close stage) p (stage.change r) := by
  cases hp : stage.step r id with
  | wait =>
    rw [hp] at h
    cases h
  | next r' stage' =>
    rw [hp] at h
    cases h
    exact .close hp
  | done r' a =>
    rw [hp] at h
    cases h
    exact .closed hp

theorem goes_terminate {r : Registry ρ} {id : String} {stage : Termination} {p : Part}
    (h : (stage.step r id).part? (Part.terminate id) = some p) :
    Goes r (.terminate id stage) p (stage.change r id) := by
  cases hp : stage.step r id with
  | wait =>
    rw [hp] at h
    cases h
  | next r' stage' =>
    rw [hp] at h
    cases h
    exact .terminate hp
  | done r' a =>
    rw [hp] at h
    cases h
    exact .terminated hp

theorem goes_sweep {r : Registry ρ} {stage : Sweep} {p : Part}
    (h : (stage.step r).part? Part.sweep = some p) : Goes r (.sweep stage) p (stage.change r) := by
  cases hp : stage.step r with
  | wait =>
    rw [hp] at h
    cases h
  | next r' stage' =>
    rw [hp] at h
    cases h
    exact .sweep hp
  | done r' a =>
    rw [hp] at h
    cases h
    exact .swept hp

/-- A call that comes to bring its job sets out with that, or is idle. -/
theorem initial_enter (info : ToolInfo) (id : String) (seat : Nat) (c : Call) :
    ((CallStage.enter info id seat).part c).Initial := by
  simp only [CallStage.part]
  split
  · exact .idle
  · exact .enter _ _ _

/-- Whatever comes of it, the call sets out anew when it has tried to bring its job. -/
theorem goes_enter {r : Registry ρ} {info : ToolInfo} {id : String} {seat : Nat} {c : Call}
    {p : Part} (hp : p.Initial) :
    Goes r ((CallStage.enter info id seat).part c) p
      (((CallStage.enter info id seat).part c).change r) := by
  simp only [CallStage.part]
  split
  · exact .begin hp
  · exact .entered hp

theorem goes_call {r : Registry ρ} {standard : Duration} {c : Call} {stage : CallStage} {p : Part}
    (h : (stage.step r standard c).part? (CallStage.part c) = some p) :
    Goes r (stage.part c) p ((stage.part c).change r) := by
  have hsteps := CallStage.steps_of_step (rfl : stage.step r standard c = _)
  generalize stage.step r standard c = progress at h hsteps
  cases hsteps with
  | closeWaits _ | terminateWaits _ | createWaits _ | closeFaultedWaits _ | unanswered _ _ =>
    cases h
  | closing _ _ _ =>
    cases h
    exact .begin .close
  | terminating _ _ _ =>
    cases h
    exact .begin (.terminate _)
  | creating _ _ _ =>
    cases h
    exact .begin (.create _)
  | suits _ _ =>
    cases h
    exact .begin (initial_enter _ _ _ _)
  | close hc | closeFaulted hc =>
    cases h
    exact .close hc
  | closed hc | closeFailed hc | faulted hc =>
    cases h
    exact .closed hc
  | terminate ht =>
    cases h
    exact .terminate ht
  | terminated ht | terminateFailed ht =>
    cases h
    exact .terminated ht
  | create hc =>
    cases h
    exact .create hc
  | created hc | createFailed hc =>
    cases h
    exact .created hc
  | lostBehind _ | told _ _ | unplanned _ _ _ | queued _ _ _ _ | rejected _ _ _ _ _ =>
    cases h
    exact goes_enter .idle
  | refused _ _ _ _ =>
    cases h
    exact goes_enter .close
  | lost _ _ =>
    cases h
    exact .begin .close
  | _ =>
    cases h
    exact .begin .idle

theorem goes_patrol {r : Registry ρ} {stage : Patrol} {calledOff : Bool} {p : Part}
    (h : (stage.step r).part? (fun stage => (Task.patrol stage calledOff).part) = some p) :
    Goes r (Task.patrol stage calledOff).part p ((Task.patrol stage calledOff).change r) := by
  have hsteps := Patrol.steps_of_step (rfl : stage.step r = _)
  generalize stage.step r = progress at h hsteps
  cases hsteps with
  | rests | waits _ => cases h
  | sweeps hs =>
    cases h
    exact .sweep hs
  | swept hs =>
    cases h
    exact .swept hs

theorem goes_shutdown {r : Registry ρ} {stage : Shutdown} {p : Part}
    (h : (stage.step r).part? (fun stage => (Task.shutdown stage).part) = some p) :
    Goes r (Task.shutdown stage).part p ((Task.shutdown stage).change r) := by
  have hsteps := Shutdown.steps_of_step (rfl : stage.step r = _)
  generalize stage.step r = progress at h hsteps
  cases hsteps with
  | collected | finished =>
    cases h
    exact .begin .idle
  | begun id rest =>
    cases h
    exact .begin .close
  | waits _ => cases h
  | closes hc =>
    cases h
    exact .close hc
  | closed hc =>
    cases h
    exact .closed hc

/-- **Every turn of a task is a turn of its part.** -/
theorem goes_of_turn {r : Registry ρ} {standard : Duration} {t t' : Task} {c : Change ρ}
    (h : Engine.Turn r standard t t' c) : Goes r t.part t'.part c := by
  cases h with
  | go h =>
    cases t with
    | create stage => exact goes_create (Progress.part?_of_goes h)
    | close id stage => exact goes_close (Progress.part?_of_goes h)
    | terminate id stage => exact goes_terminate (Progress.part?_of_goes h)
    | sweep stage => exact goes_sweep (Progress.part?_of_goes h)
    | shutdown stage => exact goes_shutdown (Progress.part?_of_goes h)
    | call c stage => exact goes_call (Progress.part?_of_goes h)
    | patrol stage calledOff =>
      simp only [Task.go?] at h
      split at h
      · cases h
      · exact goes_patrol (Progress.part?_of_goes h)
    | callOff => cases h
    | finished answer => cases h
    | gone => cases h
  | callOff => exact .begin .idle
  | detour h =>
    obtain ⟨stage, stage', hs, ⟨rfl, rfl⟩ | ⟨calledOff, rfl, rfl⟩⟩ := Task.of_detour? h
    · exact .strayed hs
    · exact .strayed hs
  | expire h =>
    cases Task.lapses_of_expire? h with
    | await hs => exact .suspect _
    | callClose hc => exact .closeExpired hc
    | closeFaulted hc => exact .closeExpired hc
    | close hc => exact .closeExpired hc
    | sweep hs => exact .sweepExpired hs
    | @patrol stage stage' hs =>
      cases stage with
      | resting =>
        cases hs
        exact .begin .sweep
      | sweeping stage =>
        obtain ⟨stage₁, hc, rfl⟩ := Option.map_eq_some_iff.mp hs
        exact .sweepExpired hc
    | @shutdown stage stage' hs =>
      cases stage with
      | close id stage rest =>
        obtain ⟨stage₁, hc, rfl⟩ := Option.map_eq_some_iff.mp hs
        exact .closeExpired hc
      | _ => cases hs
  | @cutOff stage h =>
    cases stage with
    | resting => exact .begin .idle
    | sweeping stage => exact .cutOff h
  | refuse h =>
    obtain ⟨-, -, metadata, ⟨rfl, rfl⟩ | ⟨c, rfl, rfl⟩⟩ := Task.of_refuse? h
    · exact .refused metadata
    · exact .refused metadata

end Part

namespace Engine

/-- The part that the task at a place is at; nothing where there is no task. -/
def partAt (e : Engine ρ) (q : Nat) : Part :=
  match e.tasks[q]? with
  | some t => t.part
  | none => .idle

/-- A part that is not idle is that of a task. -/
theorem task_of_partAt {e : Engine ρ} {q : Nat} {p : Part} (h : e.partAt q = p)
    (hp : p ≠ .idle) : ∃ t, e.tasks[q]? = some t ∧ t.part = p := by
  unfold partAt at h
  split at h
  · exact ⟨_, ‹_›, h⟩
  · exact absurd h.symm hp

/-- **What an event makes of the parts**: one of them goes on, the others stay, and a new one may
come in. -/
theorem partAt_of_step? {e e' : Engine ρ} {event : Event ρ} (h : e.step? event = some e')
    (q : Nat) :
    (event.place? = some q ∧ (e.partAt q).Goes e.registry (e'.partAt q) (e.change event)) ∨
      (event.place? ≠ some q ∧ (e'.partAt q = e.partAt q ∨
        (e.partAt q = .idle ∧ (e'.partAt q).Initial))) := by
  cases ht : e.tasks[q]? with
  | some t =>
    obtain ⟨t', ht', hturn⟩ := task_of_step? h ht
    simp only [partAt, ht, ht']
    rcases hturn with ⟨hp, hturn⟩ | ⟨hp, hlike⟩
    · exact Or.inl ⟨hp, Part.goes_of_turn hturn⟩
    · exact Or.inr ⟨hp, Or.inl hlike.part⟩
  | none =>
    refine Or.inr ⟨?_, ?_⟩
    · intro hp
      cases steps_of_step? h <;> cases hp <;> simp_all
    · simp only [partAt, ht]
      cases ht' : e'.tasks[q]? with
      | none => exact Or.inl rfl
      | some t' => exact Or.inr ⟨trivial, (fresh_of_step? h ht ht').part⟩

/-- The change of an event that is about no task. -/
theorem change_of_place {e : Engine ρ} {event : Event ρ} (h : event.place? = none) :
    e.change event = .nothing ∨ (e.change event).isAsked = false := by
  cases event with
  | arrive request => exact Or.inl rfl
  | startPatrol => exact Or.inl rfl
  | work seat move => exact Or.inr rfl
  | pass time => exact Or.inr rfl
  | _ => cases h

theorem change_of_go {e : Engine ρ} {q : Nat} :
    e.change (.go q) = (e.partAt q).change e.registry := by
  simp only [change, partAt]
  cases e.tasks[q]? <;> rfl

/-- Whatever is asked of the registry, but to suspect a session, is asked by a step of a task. -/
theorem go_of_change {e : Engine ρ} {event : Event ρ} {c : Change ρ} (h : e.change event = c)
    (hn : c ≠ .nothing) (hs : ∀ seat, c ≠ .suspect seat) (ha : c.isAsked = true) :
    ∃ q, event = .go q ∧ (e.partAt q).change e.registry = c := by
  cases event with
  | go q => exact ⟨q, rfl, change_of_go.symm.trans h⟩
  | expire q =>
    simp only [change] at h
    split at h
    · unfold Task.lapse at h
      split at h
      · exact absurd h.symm (hs _)
      · exact absurd h.symm hn
    · exact absurd h.symm hn
  | work seat move =>
    rw [← h] at ha
    cases ha
  | pass time =>
    rw [← h] at ha
    cases ha
  | _ => exact absurd h.symm hn

end Engine

/-! ## 5. How a task ends -/

/-- The error that an answer tells of. -/
def Answer.error? : Answer → Option ToolError
  | created (.error e) => some e.toToolError
  | closed (.error e) => some e.toToolError
  | called (.error e) => some e
  | _ => none

/-- The error with which a task has ended. -/
def Task.failure? : Task → Option ToolError
  | finished a => a.error?
  | _ => none

namespace Engine

/-- The error with which the task at a place has ended. -/
def failure? (e : Engine ρ) (q : Nat) : Option ToolError := (e.tasks[q]?).bind Task.failure?

/-- The task that has just been put at a place. -/
theorem at_proceed {e : Engine ρ} {q : Nat} {t : Task} (r : Registry ρ) (t' : Task)
    (ht : e.tasks[q]? = some t) :
    (e.proceed q r t').partAt q = t'.part ∧ (e.proceed q r t').failure? q = t'.failure? := by
  have hq := tasks_proceed ht r t'
  exact ⟨by simp [partAt, hq], by simp [failure?, hq]⟩

end Engine
end Workbench
