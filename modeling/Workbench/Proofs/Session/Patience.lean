import Workbench.Proofs.Project.Errors
import Workbench.Proofs.Session.Bench

/-!
# Callers with and without patience

How long the callers of a session wait is a matter between them and the clock.  The worker does not
learn of it: it does the same jobs in the same order, and leaves the same behind.  All that a caller
without patience brings about is that the session becomes suspect.

* `Engine.Plainly` says that no job has answered that a time is up, so whoever is told that has
  given up waiting;
* `Engine.Mistrusts` ties the suspicion of a session to the calls that gave up waiting for its
  worker; it is kept by every event (`Mistrusts.step`);
* `Engine.Drains` is a run in which a session works off all that it has accepted, and has the disk
  to itself;
* `Engine.comesToTheSame_of_drains`: two such runs from the same state, with the same jobs accepted
  but for the deadlines, come to the same.
-/

namespace Workbench

variable {ρ : Type}

/-! ## 1. What the workers have answered -/

namespace Worker

variable {J A : Type}

theorem mem_loseQueued {queue : List (QueueItem J)} {replies : List (Reply A)} {a : A}
    (h : Reply.value a ∈ loseQueued queue replies) : Reply.value a ∈ replies := by
  induction queue generalizing replies with
  | nil => exact h
  | cons item queue ih =>
    have hmem := ih h
    cases item with
    | stop => exact hmem
    | job ticket j => exact (List.mem_or_eq_of_mem_set hmem).resolve_right (by rintro ⟨⟩)

/-- A value among the answers was there before, or a job has just given it. -/
theorem mem_replies_of_act? {w w' : Worker ρ J A} {act : Action ρ J A} (hw : w.act? act = some w')
    {a : A} (h : Reply.value a ∈ w'.replies) :
    Reply.value a ∈ w.replies ∨ ∃ r, act = .move (.finish r a) := by
  cases acts_of_act? hw with
  | accepted _ => exact .inl ((List.mem_append.mp h).resolve_right (by simp))
  | refused _ | shutDown _ | shutBefore _ | awaited | abandoned _ => exact .inl h
  | moved hm =>
    cases hm with
    | finish hp =>
      refine (List.mem_or_eq_of_mem_set h).imp_right fun heq => ?_
      cases heq
      exact ⟨_, rfl⟩
    | crash hp => exact .inl ((List.mem_or_eq_of_mem_set h).resolve_right (by rintro ⟨⟩))
    | hangUp hp => exact .inl (mem_loseQueued h)
    | hangUpUnbuilt hp => exact .inl (mem_loseQueued h)
    | _ => exact .inl h

/-- What a caller gets from a worker is among the answers. -/
theorem mem_of_outcome? {w : Worker ρ J A} {ticket : Nat} {a : A}
    (h : w.outcome? ticket = some (.ok a)) : Reply.value a ∈ w.replies := by
  have hr := outcome?_eq_ok.mp h
  unfold reply at hr
  cases hget : w.replies[ticket]? with
  | none =>
    rw [hget] at hr
    cases hr
  | some r =>
    rw [hget] at hr
    cases hr
    exact List.mem_of_getElem? hget

end Worker

namespace Engine

/-- **An answer was there before, or it is what the running job has come to.** -/
theorem value_of_step? {context : PlanContext} {e e' : Engine Workspace} {event : Event Workspace}
    (hallow : Workspace.backend.Allows context e event) (h : e.step? event = some e') {k : Nat}
    {s' : Session Workspace} (hs' : e'.registry.session? k = some s') {a : JobAnswer}
    (ha : Reply.value a ∈ s'.worker.replies) : ∃ s, e.registry.session? k = some s ∧
      (Reply.value a ∈ s.worker.replies ∨ ∃ w ticket job d now,
        s.worker.phase = .running w ticket job ∧ (w.carryOut context d now job).result = a) := by
  rcases origin_of_step? h hs' with ⟨s, hs, halt⟩ | ⟨metadata, -, -, rfl⟩
  · refine ⟨s, hs, ?_⟩
    cases hact : (e.change event).actionAt? k with
    | none =>
      rw [halt.rests hact] at ha
      exact Or.inl ha
    | some act =>
      rcases Worker.mem_replies_of_act? (halt.acts act hact) ha with ha | ⟨r, rfl⟩
      · exact Or.inl ha
      · have hevent := work_of_change (Change.work_of_actionAt? hact)
        subst hevent
        rcases Session.advance?_cases (advance?_of_step? h hs hs') with
          ⟨w, -, ticket, job, -, -, hphase, -⟩ | ⟨hne, -⟩
        · obtain ⟨d, d', now, hrun⟩ := hallow s w ticket job hs hphase
          rw [Workspace.run_eq] at hrun
          cases hrun
          exact Or.inr ⟨w, ticket, job, d, now, hphase, rfl⟩
        · exact absurd rfl (hne _ _)
  · cases ha

/-- No job has answered that a worker has faulted, or that a time is up. -/
def Plainly (e : Engine ρ) : Prop := ∀ k s, e.registry.session? k = some s →
  ∀ a, Reply.value a ∈ s.worker.replies → CallStage.Result.Plain a

theorem Plainly.step {context : PlanContext} {e e' : Engine Workspace} {event : Event Workspace}
    (hp : Plainly e) (hallow : Workspace.backend.Allows context e event)
    (h : e.step? event = some e') : Plainly e' := by
  intro k s' hs' a ha
  obtain ⟨s, hs, ha | ⟨w, ticket, job, d, now, -, rfl⟩⟩ := value_of_step? hallow h hs' ha
  · exact hp k s hs a ha
  · exact Workspace.plain_of_carryOut context w d now job

theorem plainly_of_run? {context : PlanContext} {settings : SessionSettings} {standard : Duration}
    {ids : Nat → String} {now : Nat} {e : Engine Workspace} {events : List (Event Workspace)}
    (h : (start settings standard ids now).run? events = some e)
    (hd : OnDisk context ((start settings standard ids now).trace events)) : Plainly e := by
  let P : List (Engine Workspace × Event Workspace) → Engine Workspace → Prop := fun past e =>
    OnDisk context past → Plainly e
  have hbase : P [] (start settings standard ids now) := by
    intro _ k s hs
    cases hs
  have hstep : ∀ past e event e', P past e → e.step? event = some e' →
      P (past ++ [(e, event)]) e' := by
    intro past e event e' hP hevent hd
    exact (hP fun x hx => hd x (List.mem_append_left _ hx)).step (hd (e, event) (by simp)) hevent
  exact run?_induction (P := P) hstep h hbase hd

/-! ## 2. Suspicion -/

/-- The task at a place is a call that waits for the worker at a seat. -/
def Awaits (k : Nat) (e : Engine ρ) (q : Nat) : Prop :=
  ∃ c id ticket limit, e.tasks[q]? = some (.call c (.await id k ticket limit))

/-- A call that waited for the worker at a seat has answered that its time is up. -/
def TimesOut (k : Nat) (past : List (Engine ρ × Event ρ)) (e : Engine ρ) : Prop :=
  ∃ q limit, (∃ x ∈ past, Awaits k x.1 q) ∧ e.failure? q = some (.timeout limit)

/-- The session at a seat is suspect. -/
def Suspects (k : Nat) (e : Engine ρ) : Prop :=
  ∃ s, e.registry.session? k = some s ∧ s.suspect = true

/-- How far a call has come that waited for the worker at a seat. -/
inductive Waited (k : Nat) (e : Engine ρ) (q : Nat) : Prop where
  | awaits (h : Awaits k e q)
  | closing {c : Call} {id : String} {stage : Closing}
      (ht : e.tasks[q]? = some (.call c (.closeFaulted id stage)))
  /-- Where it has answered that its time is up, its session is suspect. -/
  | answered {a : Answer} (ht : e.tasks[q]? = some (.finished a))
      (hs : ∀ limit, a.error? = some (.timeout limit) → Suspects k e)

section Suspicion

variable {k q : Nat} {e e' : Engine ρ} {event : Event ρ} {past : List (Engine ρ × Event ρ)}

theorem Suspects.step (hs : Suspects k e) (h : e.step? event = some e') : Suspects k e' := by
  obtain ⟨s, hs, hsuspect⟩ := hs
  obtain ⟨s', hs', -⟩ := session_of_step? h hs
  exact ⟨s', hs', (kept_of_step? h hs hs').2.2.mpr (.inl hsuspect)⟩

/-- What a finished task has answered stays. -/
theorem finished_of_step? {a : Answer} (h : e.step? event = some e')
    (ht : e.tasks[q]? = some (.finished a)) : e'.tasks[q]? = some (.finished a) := by
  obtain ⟨t', ht', ⟨-, hturn⟩ | ⟨-, rfl | ⟨stage, calledOff, hpatrol, -⟩⟩⟩ := task_of_step? h ht
  · exact absurd hturn not_turn_of_finished
  · exact ht'
  · cases hpatrol

theorem failure?_of_step? {err : ToolError} (h : e.step? event = some e')
    (hf : e.failure? q = some err) : e'.failure? q = some err := by
  unfold failure? at hf ⊢
  obtain ⟨t, ht, hf⟩ := Option.bind_eq_some_iff.mp hf
  cases t with
  | finished a =>
    rw [finished_of_step? h ht]
    exact hf
  | _ => cases hf

/-- A session is suspected by a call that gives up waiting for its worker. -/
theorem gaveUp_of_suspect (h : e.step? event = some e') (hc : e.change event = .suspect k) :
    ∃ q limit, Awaits k e q ∧ e'.failure? q = some (.timeout limit) := by
  cases event with
  | go q =>
    rw [change_of_go] at hc
    rcases (e.partAt q).change_cases e.registry with
      hclosing | ⟨_, _, _, heq⟩ | ⟨_, _, _, _, _, heq⟩ | ⟨_, _, _, _, heq⟩
    · rw [hc] at hclosing
      cases hclosing
    all_goals
      rw [hc] at heq
      cases heq
  | expire q =>
    cases ht : e.tasks[q]? with
    | none =>
      simp only [change, ht] at hc
      cases hc
    | some t =>
      simp only [change, ht] at hc
      cases t with
      | call c stage =>
        cases stage with
        | await id seat ticket limit =>
          cases hc
          refine ⟨q, limit, ⟨c, id, ticket, limit, ht⟩, ?_⟩
          cases takes_of_step? h rfl ht with
          | expire hg =>
            cases Task.lapses_of_expire? hg with
            | await hs => exact (at_proceed _ _ ht).2
        | _ => cases hc
      | _ => cases hc
  | _ => cases hc

/-- A call that waits for a worker goes on waiting, closes its session, or is answered; and its
session is suspect if it was told that its time is up. -/
theorem waited_of_awaits (hplain : Plainly e) (h : e.step? event = some e')
    (hp : event.place? = some q) (ha : Awaits k e q) : Waited k e' q := by
  obtain ⟨c, id, ticket, limit, ht⟩ := ha
  cases takes_of_step? h hp ht with
  | go hg =>
    rcases Progress.cases_of_goes hg with ⟨stage', hnext, rfl⟩ | ⟨answer, hdone, rfl⟩
    · cases CallStage.steps_of_step hnext with
      | lost _ _ => exact .closing (tasks_proceed ht _ _)
    · cases CallStage.steps_of_step hdone with
      | lostMeanwhile _ => exact .answered (tasks_proceed ht _ _) (by rintro limit' ⟨⟩)
      | answered hs hanswer =>
        refine .answered (tasks_proceed ht _ _) fun limit' herr => ?_
        have hout := hplain k _ hs answer (Worker.mem_of_outcome? hanswer)
        cases answer with
        | ok out => cases herr
        | error err =>
          cases herr
          cases hout _ rfl
  | expire hg =>
    cases Task.lapses_of_expire? hg with
    | @await _ _ _ _ _ s hs =>
      refine .answered (tasks_proceed ht _ _) fun limit' _ => ⟨s.markSuspect, ?_, rfl⟩
      have hlt : k < e.registry.sessions.length := (List.getElem?_eq_some_iff.mp hs).1
      simp only [proceed, Registry.put, Registry.session?, List.getElem?_set_self hlt]
  | refuse hg | detour hg => cases hg

theorem waited_of_closing {c : Call} {id : String} {stage : Closing}
    (h : e.step? event = some e') (hp : event.place? = some q)
    (ht : e.tasks[q]? = some (.call c (.closeFaulted id stage))) : Waited k e' q := by
  cases takes_of_step? h hp ht with
  | go hg =>
    rcases Progress.cases_of_goes hg with ⟨stage', hnext, rfl⟩ | ⟨a, hdone, rfl⟩
    · cases CallStage.steps_of_step hnext with
      | closeFaulted _ => exact .closing (tasks_proceed ht _ _)
    · cases CallStage.steps_of_step hdone with
      | faulted _ => exact .answered (tasks_proceed ht _ _) (by rintro limit ⟨⟩)
  | expire hg =>
    cases Task.lapses_of_expire? hg with
    | closeFaulted hstage => exact .closing (tasks_proceed ht _ _)
  | refuse hg | detour hg => cases hg

theorem Waited.step (hw : Waited k e q) (hplain : Plainly e) (h : e.step? event = some e') :
    Waited k e' q := by
  by_cases hp : event.place? = some q
  · cases hw with
    | awaits ha => exact waited_of_awaits hplain h hp ha
    | closing ht => exact waited_of_closing h hp ht
    | answered ht hs =>
      exact .answered (finished_of_step? h ht) fun limit hl => (hs limit hl).step h
  · have hstays : ∀ c stage, e.tasks[q]? = some (.call c stage) →
        e'.tasks[q]? = some (.call c stage) := by
      intro c stage ht
      obtain ⟨t', ht', ⟨hthis, -⟩ | ⟨-, rfl | ⟨stage', calledOff, hpatrol, -⟩⟩⟩ :=
        task_of_step? h ht
      · exact absurd hthis hp
      · exact ht'
      · cases hpatrol
    cases hw with
    | awaits ha =>
      obtain ⟨c, id, ticket, limit, ht⟩ := ha
      exact .awaits ⟨c, id, ticket, limit, hstays _ _ ht⟩
    | closing ht => exact .closing (hstays _ _ ht)
    | answered ht hs =>
      exact .answered (finished_of_step? h ht) fun limit hl => (hs limit hl).step h

/-- **A session is suspected for good reason**: it was so before, or a call gave up waiting for its
worker; and each call that did has made it suspect. -/
structure Mistrusts (k : Nat) (s₀ : Session ρ) (past : List (Engine ρ × Event ρ)) (e : Engine ρ) :
    Prop where
  before : s₀.suspect = true → Suspects k e
  reason : Suspects k e → s₀.suspect = true ∨ TimesOut k past e
  waited : ∀ q, (∃ x ∈ past, Awaits k x.1 q) → Waited k e q

theorem Mistrusts.step {s₀ s : Session ρ} (hm : Mistrusts k s₀ past e) (hplain : Plainly e)
    (hs : e.registry.session? k = some s) (h : e.step? event = some e') :
    Mistrusts k s₀ (past ++ [(e, event)]) e' where
  before hsuspect := (hm.before hsuspect).step h
  reason := by
    rintro ⟨s', hs', hsuspect⟩
    rcases (kept_of_step? h hs hs').2.2.mp hsuspect with hwas | hc
    · refine (hm.reason ⟨s, hs, hwas⟩).imp_right ?_
      rintro ⟨q, limit, ⟨x, hx, ha⟩, hf⟩
      exact ⟨q, limit, ⟨x, List.mem_append_left _ hx, ha⟩, failure?_of_step? h hf⟩
    · obtain ⟨q, limit, ha, hf⟩ := gaveUp_of_suspect h hc
      exact .inr ⟨q, limit, ⟨(e, event), by simp, ha⟩, hf⟩
  waited q := by
    rintro ⟨x, hx, ha⟩
    rcases List.mem_append.mp hx with hx | hx
    · exact (hm.waited q ⟨x, hx, ha⟩).step hplain h
    · rw [List.mem_singleton] at hx
      subst hx
      exact (Waited.awaits ha).step hplain h

/-- **A session is suspect exactly when it was so before, or a call has timed out.** -/
theorem Mistrusts.suspect_iff {s₀ s : Session ρ} (hm : Mistrusts k s₀ past e)
    (hs : e.registry.session? k = some s) :
    s.suspect = true ↔ s₀.suspect = true ∨ TimesOut k past e := by
  refine ⟨fun hsuspect => hm.reason ⟨s, hs, hsuspect⟩, ?_⟩
  have hthis : Suspects k e → s.suspect = true := by
    rintro ⟨s', hs', hsuspect⟩
    rw [hs] at hs'
    cases hs'
    exact hsuspect
  rintro (hwas | ⟨q, limit, hx, hf⟩)
  · exact hthis (hm.before hwas)
  · refine hthis ?_
    unfold failure? at hf
    cases hm.waited q hx with
    | awaits ha =>
      obtain ⟨c, id, ticket, limit', ht⟩ := ha
      rw [ht] at hf
      cases hf
    | closing ht =>
      rw [ht] at hf
      cases hf
    | answered ht hsuspects =>
      rw [ht] at hf
      exact hsuspects limit hf

end Suspicion

/-! ## 3. Runs that come to the same -/

open Worker.History

/-- **A run in which the session at a seat works off its queue**, is open at its end, and has the
disk to itself. -/
structure Drains (context : PlanContext) (k : Nat) (e₀ : Engine Workspace) (d₀ : Disk)
    (events : List (Event Workspace)) (e : Engine Workspace) (s : Session Workspace)
    (w : Workspace) (d : Disk) : Prop where
  run : e₀.run? events = some e
  disk : Workspace.backend.Carries context d₀ (e₀.trace events) d
  /-- No other session ends a job. -/
  alone : ∀ event ∈ events, SparesDisk k event
  session : e.registry.session? k = some s
  isOpen : s.isClosed = false
  resting : s.worker.phase = .resting w
  drained : s.worker.queue = []

/-- **Two runs come to the same, apart from times and suspicion.** -/
structure ComesToTheSame (context : PlanContext) (k : Nat)
    (past past' : List (Engine Workspace × Event Workspace)) (s s' : Session Workspace)
    (w w' : Workspace) (d d' : Disk) : Prop where
  /-- The same handlers run in the same order, on the same arguments but for the deadlines, and
  with the same plans. -/
  handlers : List.Forall₂ (fun x y => x.2.SameButDeadline y.2 ∧ Job.Agrees context x.2 y.2)
    (begun (notes k past)) (begun (notes k past'))
  /-- They come to the same answers. -/
  answers : (ended (notes k past)).map Prod.snd = (ended (notes k past')).map Prod.snd
  workspace : w = w'
  /-- The disks differ at most in when projects were saved. -/
  disk : d.Alike Workspace.SavedAlike d'
  state : s.state = s'.state
  attached : s.attached = s'.attached
  /-- What else the sessions show of themselves, but for times and suspicion. -/
  shown : s.id = s'.id ∧ s.createdAt = s'.createdAt ∧ s.metadata = s'.metadata ∧
    s.worker.pending = s'.worker.pending

section Draining

variable {context : PlanContext} {k : Nat} {e₀ e : Engine Workspace} {d₀ d : Disk}
  {events : List (Event Workspace)} {s₀ s : Session Workspace} {w : Workspace}

/-- The events of a trace are those of the run. -/
theorem event_of_mem_trace {e₀ : Engine ρ} {events : List (Event ρ)} {x : Engine ρ × Event ρ}
    (hx : x ∈ e₀.trace events) : x.2 ∈ events := by
  induction events generalizing e₀ with
  | nil => cases hx
  | cons event events ih =>
    unfold trace at hx
    split at hx
    · rcases List.mem_cons.mp hx with rfl | hx
      · exact List.mem_cons_self
      · exact List.mem_cons_of_mem _ (ih hx)
    · cases hx

theorem Drains.replays (h : Drains context k e₀ d₀ events e s w d)
    (hs₀ : e₀.registry.session? k = some s₀) : ∃ w₀, s₀.worker.phase.workspace? = some w₀ ∧
      Replays context k s₀ w₀ d₀ (e₀.trace events) s w d :=
  replays_of_run? h.run hs₀ h.session h.isOpen (by rw [h.resting]; rfl) h.disk
    fun x hx => h.alone x.2 (event_of_mem_trace hx)

/-- A session that has worked off its queue has done what was under way or waited at the beginning,
and what was accepted since. -/
theorem Drains.worked (h : Drains context k e₀ d₀ events e s w d)
    (hc : Worker.Continues s₀.worker (notes k (e₀.trace events)) s.worker) :
    (ended (notes k (e₀.trace events))).map Prod.fst =
        s₀.worker.underway ++ s₀.worker.waiting ++ accepted (notes k (e₀.trace events)) ∧
      begun (notes k (e₀.trace events)) =
        s₀.worker.waiting ++ accepted (notes k (e₀.trace events)) := by
  have hunderway : s.worker.underway = [] := by simp only [Worker.underway, h.resting]
  have hwaiting : s.worker.waiting = [] := by
    simp only [Worker.waiting, h.drained, List.filterMap_nil]
  have hhandled := hc.handled
  have hbegun := hc.begun_eq
  rw [hunderway, List.append_nil] at hbegun
  rw [hunderway, hwaiting, List.append_nil, List.append_nil] at hhandled
  have hbehind : s₀.worker.underway ++ begun (notes k (e₀.trace events)) =
      s₀.worker.underway ++
        (s₀.worker.waiting ++ accepted (notes k (e₀.trace events))) := by
    rw [hbegun, ← hhandled, List.append_assoc]
  exact ⟨hhandled.symm, List.append_cancel_left hbehind⟩

/-- Its handle shows that nothing waits. -/
theorem Drains.pending (h : Drains context k e₀ d₀ events e s w d)
    (hcounted : Workers Worker.Counted e₀) : s.worker.pending = 0 := by
  have hcount := workers_of_run? Worker.Counted.spawn (fun _ _ _ hw => hw.step) h.run hcounted
  rw [(hcount k s h.session).pending (by rw [h.resting]; rfl)]
  simp only [Worker.waiting, h.drained, List.filterMap_nil, List.length_nil]

/-- The session keeps what it was created with. -/
theorem Drains.origin (h : Drains context k e₀ d₀ events e s w d)
    (hs₀ : e₀.registry.session? k = some s₀) :
    s.id = s₀.id ∧ s.createdAt = s₀.createdAt ∧ s.metadata = s₀.metadata := by
  let P : Engine Workspace → Prop := fun e => ∃ s, e.registry.session? k = some s ∧
    s.id = s₀.id ∧ s.createdAt = s₀.createdAt ∧ s.metadata = s₀.metadata
  have hstep : ∀ e event e', P e → e.step? event = some e' → P e' := by
    rintro e event e' ⟨s, hs, hid, hcreated, hmetadata⟩ hevent
    obtain ⟨s', hs', ha⟩ := session_of_step? hevent hs
    obtain ⟨hcreated', hmetadata', -⟩ := kept_of_step? hevent hs hs'
    exact ⟨s', hs', ha.id.trans hid, hcreated'.trans hcreated, hmetadata'.trans hmetadata⟩
  obtain ⟨s₁, hs₁, hkept⟩ := run?_invariant (P := P) hstep h.run ⟨s₀, hs₀, rfl, rfl, rfl⟩
  rw [h.session] at hs₁
  cases hs₁
  exact hkept

/-- The session is suspect exactly when it was so before, or a call of the run has timed out. -/
theorem Drains.suspect_iff (h : Drains context k e₀ d₀ events e s w d)
    (hs₀ : e₀.registry.session? k = some s₀) (hplain : Plainly e₀) :
    s.suspect = true ↔ s₀.suspect = true ∨ TimesOut k (e₀.trace events) e := by
  let P : List (Engine Workspace × Event Workspace) → Engine Workspace → Prop := fun past e =>
    OnDisk context past → Plainly e ∧ Mistrusts k s₀ past e ∧ ∃ s, e.registry.session? k = some s
  have hbase : P [] e₀ := by
    refine fun _ => ⟨hplain, ⟨fun hwas => ⟨s₀, hs₀, hwas⟩, ?_, ?_⟩, s₀, hs₀⟩
    · rintro ⟨s, hs, hsuspect⟩
      rw [hs₀] at hs
      cases hs
      exact .inl hsuspect
    · rintro q ⟨x, hx, -⟩
      cases hx
  have hstep : ∀ past e event e', P past e → e.step? event = some e' →
      P (past ++ [(e, event)]) e' := by
    intro past e event e' hP hevent hd
    obtain ⟨hplain, hm, s, hs⟩ := hP fun x hx => hd x (List.mem_append_left _ hx)
    obtain ⟨s', hs', -⟩ := session_of_step? hevent hs
    exact ⟨hplain.step (hd (e, event) (by simp)) hevent, hm.step hplain hs hevent, s', hs'⟩
  have hall := run?_induction (P := P) hstep h.run hbase
  exact (hall (onDisk_of_carries h.disk)).2.1.suspect_iff h.session

end Draining

/-- The engine with another standard time for calls. -/
def withCallTimeout (e : Engine ρ) (standard : Duration) : Engine ρ :=
  { e with callTimeout := standard }

/-- **How long callers wait makes no difference to what a session does.**  From one state, with one
sequence of accepted jobs but for their deadlines, and with any standard time for calls, a session
that has the disk to itself runs the same handlers in the same order, however its calls are answered
and whenever its jobs end; and once its queue is empty, the workspace, the disk and the session are
the same but for times and suspicion.  It is suspect exactly when it was so before, or a call of the
run has timed out. -/
theorem comesToTheSame_of_drains {context : PlanContext} {settings : SessionSettings}
    {standard : Duration} {ids : Nat → String} {now k : Nat} {before : List (Event Workspace)}
    {e₀ : Engine Workspace} {s₀ : Session Workspace} {d₀ : Disk}
    (h₀ : (start settings standard ids now).run? before = some e₀)
    (hd₀ : OnDisk context ((start settings standard ids now).trace before))
    (hs₀ : e₀.registry.session? k = some s₀) {standard₁ standard₂ : Duration}
    {events₁ events₂ : List (Event Workspace)} {e₁ e₂ : Engine Workspace}
    {s₁ s₂ : Session Workspace} {w₁ w₂ : Workspace} {d₁ d₂ : Disk}
    (h₁ : Drains context k (e₀.withCallTimeout standard₁) d₀ events₁ e₁ s₁ w₁ d₁)
    (h₂ : Drains context k (e₀.withCallTimeout standard₂) d₀ events₂ e₂ s₂ w₂ d₂)
    (hjobs : List.Forall₂ (fun x y => x.2.SameButDeadline y.2)
      (accepted (notes k ((e₀.withCallTimeout standard₁).trace events₁)))
      (accepted (notes k ((e₀.withCallTimeout standard₂).trace events₂)))) :
    ComesToTheSame context k ((e₀.withCallTimeout standard₁).trace events₁)
        ((e₀.withCallTimeout standard₂).trace events₂) s₁ s₂ w₁ w₂ d₁ d₂ ∧
      (s₁.suspect = true ↔ s₀.suspect = true ∨
        TimesOut k ((e₀.withCallTimeout standard₁).trace events₁) e₁) ∧
      (s₂.suspect = true ↔ s₀.suspect = true ∨
        TimesOut k ((e₀.withCallTimeout standard₂).trace events₂) e₂) := by
  have hplain : Plainly e₀ := plainly_of_run? h₀ hd₀
  refine ⟨?_, h₁.suspect_iff hs₀ hplain, h₂.suspect_iff hs₀ hplain⟩
  have hcounted : Workers Worker.Counted e₀ :=
    workers_of_run? Worker.Counted.spawn (fun _ _ _ hw => hw.step) h₀
      (workers_start _ _ _ _ _)
  obtain ⟨w₀, hw₀, hr₁⟩ := h₁.replays hs₀
  obtain ⟨w₀', hw₀', hr₂⟩ := h₂.replays hs₀
  rw [hw₀] at hw₀'
  cases hw₀'
  obtain ⟨hended₁, hbegun₁⟩ := h₁.worked hr₁.continues
  obtain ⟨hended₂, hbegun₂⟩ := h₂.worked hr₂.continues
  -- what was there before is the same, what was accepted since is so but for deadlines
  have hbehind (l : List (Nat × Job)) :
      List.Forall₂ (fun x y : Nat × Job => x.2.SameButDeadline y.2)
        (l ++ accepted (notes k ((e₀.withCallTimeout standard₁).trace events₁)))
        (l ++ accepted (notes k ((e₀.withCallTimeout standard₂).trace events₂))) :=
    List.rel_append (List.forall₂_same.mpr fun x _ => Job.SameButDeadline.refl x.2) hjobs
  have hended := hbehind (s₀.worker.underway ++ s₀.worker.waiting)
  rw [← hended₁, ← hended₂] at hended
  obtain ⟨done₁, answers₁, hdone₁, hanswers₁, hall₁⟩ := hr₁.done
  obtain ⟨done₂, answers₂, hdone₂, hanswers₂, hall₂⟩ := hr₂.done
  have hserved : List.Forall₂ Job.SameButDeadline (done₁.map Prod.fst) (done₂.map Prod.fst) := by
    rw [← hdone₁, ← hdone₂, List.forall₂_map_left_iff, List.forall₂_map_right_iff]
    rw [List.forall₂_map_left_iff, List.forall₂_map_right_iff] at hended
    exact hended
  have halike : ((⟨w₀, d₀, s₀.mark, []⟩ : Bench).serveAll context done₁).Alike
      ((⟨w₀, d₀, s₀.mark, []⟩ : Bench).serveAll context done₂) :=
    Bench.serveAll_alike (.refl _) hserved
  rw [hall₁, hall₂] at halike
  obtain ⟨hid₁, hcreated₁, hmetadata₁⟩ := h₁.origin hs₀
  obtain ⟨hid₂, hcreated₂, hmetadata₂⟩ := h₂.origin hs₀
  constructor
  case handlers =>
    rw [hbegun₁, hbegun₂]
    exact (hbehind s₀.worker.waiting).imp fun _ _ h => ⟨h, h.agrees context⟩
  case answers => rw [hanswers₁, hanswers₂, show answers₁ = answers₂ from halike.answers]
  case workspace => exact halike.workspace
  case disk => exact halike.disk
  case state => exact congrArg Mark.state halike.mark
  case attached => exact congrArg Mark.attached halike.mark
  case shown =>
    exact ⟨hid₁.trans hid₂.symm, hcreated₁.trans hcreated₂.symm, hmetadata₁.trans hmetadata₂.symm,
      (h₁.pending hcounted).trans (h₂.pending hcounted).symm⟩

/-- The disk along a run, event by event. -/
theorem carries_cons {σ : Type} {b : Backend ρ σ} {context : PlanContext} {e e' : Engine ρ}
    {event : Event ρ} {rest : List (Event ρ)} {x z x' : σ} (h : e.step? event = some e')
    (hlead : b.Leads context e x z event) (hrest : b.Carries context z (e'.trace rest) x') :
    b.Carries context x (e.trace (event :: rest)) x' := by
  simp only [trace, h]
  exact ⟨z, hlead, hrest⟩

/-- A session is started. -/
def sessionStarted : List (Event Workspace) :=
  [.arrive (.create []), .go 0, .work 0 (.built .empty), .go 0]

/-- The project of `plantDisk`, opened. -/
def plantWorkspace : Workspace := ⟨some ⟨"plant", .empty, ⟨["plant"]⟩, false⟩⟩

/-- What is told of the project after it was opened or saved. -/
def plantToldAs (verb : String) : ToolOutput :=
  ⟨verb ++ " plant", .object [("name", .str "plant"), ("store_path", .str ""),
    ("path", .str "plant"), ("is_modified", .bool false), ("block_count", .nat 0)]⟩

/-- A project is opened and saved.  The caller who opens it gives up before the job begins. -/
def openedInHaste : List (Event Workspace) :=
  [.arrive (.call ⟨"open_project", plantArguments⟩), .go 1, .go 1, .go 1, .go 1, .expire 1,
    .work 0 .start, .work 0 (.finish plantWorkspace (.ok (plantToldAs "Opened project"))),
    .arrive (.call ⟨"save_project", plantArguments⟩), .go 2, .go 2, .go 2, .go 2, .work 0 .start,
    .work 0 (.finish plantWorkspace (.ok (plantToldAs "Saved project"))), .go 2]

/-- The arguments of the same call with a deadline. -/
def plantArgumentsInTime : Json := .object [("session_id", .str "first"),
  ("project_path", .str "plant"), ("timeout_secs", .nat 600)]

/-- The same project is opened and saved at leisure. -/
def openedAtLeisure : List (Event Workspace) :=
  [.arrive (.call ⟨"open_project", plantArgumentsInTime⟩), .go 1, .go 1, .go 1, .go 1,
    .work 0 .start, .pass (.ofSeconds 90),
    .work 0 (.finish plantWorkspace (.ok (plantToldAs "Opened project"))), .go 1,
    .arrive (.call ⟨"save_project", plantArguments⟩), .go 2, .go 2, .go 2, .go 2, .work 0 .start,
    .work 0 (.finish plantWorkspace (.ok (plantToldAs "Saved project"))), .go 2]

theorem sameButDeadline_plant : SameButDeadline plantArguments plantArgumentsInTime := by
  have hnone : OneDeadline [("project_path", .str "plant"), ("session_id", .str "first")] := by
    refine ⟨by decide, fun j hj => ?_⟩
    simp at hj
  have hone : OneDeadline [("project_path", .str "plant"), ("session_id", .str "first"),
      ("timeout_secs", .nat 600)] := by
    refine ⟨by decide, fun j hj => ?_⟩
    obtain rfl : j = .nat 600 := by simpa using hj
    exact ⟨some (600 : Nat), rfl⟩
  exact .members rfl hnone hone

/-- The engine with the session started. -/
def sessionReady : Engine Workspace :=
  ((start (.ofConfig SessionConfig.standard) (.ofSeconds 60) (fun _ => "first") 0).run?
    sessionStarted).get rfl

theorem comesToTheSame_openedAtLeisure : ∃ (e₁ e₂ : Engine Workspace)
    (s₀ s₁ s₂ : Session Workspace) (d₁ d₂ : Disk),
    let context : PlanContext := ⟨⟨["exports"]⟩, none⟩
    let e₀₁ := sessionReady.withCallTimeout (.ofSeconds 1)
    let e₀₂ := sessionReady.withCallTimeout (.ofSeconds 60)
    (start (.ofConfig SessionConfig.standard) (.ofSeconds 60) (fun _ => "first") 0).run?
      sessionStarted = some sessionReady ∧
    sessionReady.registry.session? 0 = some s₀ ∧
    Drains context 0 e₀₁ plantDisk openedInHaste e₁ s₁ plantWorkspace d₁ ∧
    Drains context 0 e₀₂ plantDisk openedAtLeisure e₂ s₂ plantWorkspace d₂ ∧
    (ComesToTheSame context 0 (e₀₁.trace openedInHaste) (e₀₂.trace openedAtLeisure) s₁ s₂
        plantWorkspace plantWorkspace d₁ d₂ ∧
      (s₁.suspect = true ↔ s₀.suspect = true ∨ TimesOut 0 (e₀₁.trace openedInHaste) e₁) ∧
      (s₂.suspect = true ↔ s₀.suspect = true ∨ TimesOut 0 (e₀₂.trace openedAtLeisure) e₂)) ∧
    s₁.suspect = true ∧ s₂.suspect = false ∧ s₁.state = .resourceAttached := by
  have hbefore : OnDisk (⟨⟨["exports"]⟩, none⟩ : PlanContext)
      ((start (.ofConfig SessionConfig.standard) (.ofSeconds 60) (fun _ => "first") 0).trace
        sessionStarted) :=
    onDisk_of_carries (d := plantDisk) (carries_cons rfl rfl (carries_cons rfl rfl
      (carries_cons rfl rfl (carries_cons rfl rfl rfl))))
  have halone₁ : ∀ event ∈ openedInHaste, SparesDisk 0 event := by
    simp [openedInHaste, SparesDisk]
  have halone₂ : ∀ event ∈ openedAtLeisure, SparesDisk 0 event := by
    simp [openedAtLeisure, SparesDisk]
  have h₁ : Drains ⟨⟨["exports"]⟩, none⟩ 0 (sessionReady.withCallTimeout (.ofSeconds 1)) plantDisk
      openedInHaste _ _ plantWorkspace _ :=
    ⟨rfl, carries_cons rfl rfl (carries_cons rfl rfl (carries_cons rfl rfl (carries_cons rfl rfl
    (carries_cons rfl rfl (carries_cons rfl rfl (carries_cons rfl rfl (carries_cons rfl ⟨_, _, _, _,
    .ofNanos 0, rfl, rfl, rfl⟩ (carries_cons rfl rfl (carries_cons rfl rfl (carries_cons rfl rfl
    (carries_cons rfl rfl (carries_cons rfl rfl (carries_cons rfl rfl (carries_cons rfl ⟨_, _, _, _,
    .ofNanos 0, rfl, rfl, rfl⟩ (carries_cons rfl rfl rfl))))))))))))))), halone₁, rfl, rfl, rfl,
    rfl⟩
  have h₂ : Drains ⟨⟨["exports"]⟩, none⟩ 0 (sessionReady.withCallTimeout (.ofSeconds 60)) plantDisk
      openedAtLeisure _ _ plantWorkspace _ :=
    ⟨rfl, carries_cons rfl rfl (carries_cons rfl rfl (carries_cons rfl rfl (carries_cons rfl rfl
    (carries_cons rfl rfl (carries_cons rfl rfl (carries_cons rfl rfl (carries_cons rfl ⟨_, _, _, _,
    .ofNanos 90000000000, rfl, rfl, rfl⟩ (carries_cons rfl rfl (carries_cons rfl rfl
    (carries_cons rfl rfl (carries_cons rfl rfl (carries_cons rfl rfl (carries_cons rfl rfl
    (carries_cons rfl rfl (carries_cons rfl ⟨_, _, _, _, .ofNanos 90000000000, rfl, rfl, rfl⟩
    (carries_cons rfl rfl rfl)))))))))))))))), halone₂, rfl, rfl, rfl, rfl⟩
  refine ⟨_, _, _, _, _, _, _, rfl, rfl, h₁, h₂,
    comesToTheSame_of_drains rfl hbefore rfl h₁ h₂ ?_, rfl, rfl, rfl⟩
  exact .cons (.tool Tool.openProject sameButDeadline_plant)
    (.cons (.tool Tool.saveProject (.same _)) .nil)

end Engine
end Workbench
