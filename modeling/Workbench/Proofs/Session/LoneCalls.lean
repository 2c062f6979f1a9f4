import Workbench.Proofs.Session.Attachment

/-!
# Calls that have a session to themselves

A call looks at the state of its session before it brings its job to the worker.  That is of use
only if the workspace is the same when the job begins.  It is if nothing else is queued or running
in the session and nobody else brings a job in between.

* `ToolInfo.Suits` says that a tool finds the open project as it needs it;
* `Worker.Vacant` is a worker to which nothing was brought, `Worker.Expects` one to which the job of
  the call was brought and that has not begun anything else since then;
* `Lone` ties both to the stages of the call, and is kept by every event (`Lone.step`);
* `attached_of_run?` says what a session tells of its workspace, and what that is good for.
-/

namespace Workbench

/-! ## 1. Jobs that cannot go wrong for want of a project -/

/-- The tool finds the project as it needs it: none to open one, and one for anything else. -/
def ToolInfo.Suits (info : ToolInfo) (w : Workspace) : Prop :=
  info.onSuccess = .attach ↔ w.project = none

/-- A job ended without an error that blames the project, if it ended with an answer. -/
def Blameless (result : Option JobAnswer) : Prop :=
  ∀ e, result = some (.error e) → e.blamesProject = false

/-- **A tool that finds the project as it needs it does not blame it.** -/
theorem Workspace.ToldBy.blameless {info : ToolInfo} {w w' : Workspace} {answer : JobAnswer}
    (h : w.ToldBy info w' answer) (hs : info.Suits w) : Blameless (some answer) := by
  intro e he
  cases he
  rcases Bool.eq_false_or_eq_true e.blamesProject with hb | hb
  · have hiff := h.2 hb
    unfold ToolInfo.Suits at hs
    cases hp : w.project with
    | none => simp [hp, hs.mpr hp] at hiff
    | some p => simp [hp] at hs hiff; exact absurd hiff hs
  · exact hb

namespace Worker

open History

section

variable {A : Type}

/-- Nothing waits, and nothing is running. -/
def Vacant (w : Worker Workspace Job A) : Prop := w.waiting = [] ∧ w.underway = []

/-- **A worker to which nothing is brought stays as it is**, but for its end. -/
theorem Vacant.step {w w' : Worker Workspace Job A} {a : Action Workspace Job A} (h : w.Vacant)
    (hw : w.act? a = some w') (hsubmit : ∀ bounded job, a ≠ .submit bounded job)
    (hbuilt : ∀ v, a = .move (.built v) → v = .empty) :
    w'.Vacant ∧ ∀ v, w'.phase.workspace? = some v → w.phase.workspace? = some v := by
  obtain ⟨hq, hu⟩ := h
  cases acts_of_act? hw with
  | refused _ | accepted _ => exact absurd rfl (hsubmit _ _)
  | shutDown hc =>
    have hwaiting := waiting_shutdown w
    simp only [shutdown, hc, if_true] at hwaiting
    exact ⟨⟨hwaiting.trans hq, hu⟩, fun _ => id⟩
  | shutBefore _ | awaited | abandoned _ => exact ⟨⟨hq, hu⟩, fun _ => id⟩
  | moved hm =>
    cases hm with
    | built hp =>
      rw [hbuilt _ rfl, hp]
      exact ⟨⟨hq, rfl⟩, fun _ => id⟩
    | start hp hq' => simp [waiting, hq', operation?] at hq
    | finish hp => simp [underway, hp] at hu
    | crash hp => simp [underway, hp] at hu
    | takeStop hp hq' =>
      refine ⟨⟨?_, rfl⟩, by rintro v ⟨⟩⟩
      simpa [waiting, hq', operation?] using hq
    | hangUp hp => exact ⟨⟨rfl, rfl⟩, by rintro v ⟨⟩⟩
    | hangUpUnbuilt hp => exact ⟨⟨rfl, rfl⟩, by rintro v ⟨⟩⟩
    | _ => exact ⟨⟨hq, rfl⟩, by rintro v ⟨⟩⟩

end

/-- The job of a tool was brought to a worker with nothing in front of it. -/
structure Expects (info : ToolInfo) (x : Nat × Job) (notes : List (Note Workspace Job JobAnswer))
    (w : Worker Workspace Job JobAnswer) : Prop where
  /-- If the job has ended, it blamed nobody. -/
  ended : ∀ result, (x, result) ∈ ended notes → Blameless result
  /-- If not, it comes next or is running, and the tool finds the project as it needs it. -/
  ahead : x ∉ (History.ended notes).map Prod.fst → ∀ v, w.phase.workspace? = some v →
    info.Suits v ∧ (w.underway = [x] ∨ w.underway = [] ∧ ∃ rest, w.waiting = x :: rest)

namespace Expects

variable {info : ToolInfo} {x : Nat × Job} {notes : List (Note Workspace Job JobAnswer)}
  {w w' : Worker Workspace Job JobAnswer}

/-- An action that ends no job and starts none leaves things as they are. -/
theorem kept (h : Expects info x notes w) {more : List (Note Workspace Job JobAnswer)}
    (he : History.ended more = []) (hw : ∀ v, w'.phase.workspace? = some v →
      w.phase.workspace? = some v ∧ w'.underway = w.underway ∧
        ∃ rest, w'.waiting = w.waiting ++ rest) : Expects info x (notes ++ more) w' where
  ended result hr := h.ended result (by simpa [he] using hr)
  ahead hx v hv := by
    obtain ⟨hv', hu, rest, hq⟩ := hw v hv
    obtain ⟨hs, hfirst⟩ := h.ahead (by simpa [he] using hx) v hv'
    refine ⟨hs, ?_⟩
    rw [hu, hq]
    exact hfirst.imp_right fun ⟨hnone, rest', hrest⟩ => ⟨hnone, rest' ++ rest, by simp [hrest]⟩

/-- An action that leaves no workspace behind ends the matter, if it ends no job. -/
theorem passed (h : Expects info x notes w) {more : List (Note Workspace Job JobAnswer)}
    (he : History.ended more = []) (hw : w'.phase.workspace? = none) :
    Expects info x (notes ++ more) w' :=
  h.kept he fun v hv => by
    rw [hw] at hv
    cases hv

/-- A job that is brought comes behind the one that is expected. -/
theorem accept (h : Expects info x notes w) (job : Job) :
    Expects info x (notes ++ [.accepted w.replies.length job]) (w.accept job) :=
  h.kept rfl fun _ hv => ⟨hv, rfl, [(w.replies.length, job)], waiting_accept w job⟩

/-- The job of the worker has ended: if it was the expected one, it blamed nobody, and if not, then
the expected one had ended before. -/
theorem finished (h : Expects info x notes w) (ho : InOrder notes w) {v : Workspace} {ticket : Nat}
    {job : Job} {more : List (Note Workspace Job JobAnswer)} (result : Option JobAnswer)
    (hp : w.phase = .running v ticket job)
    (hended : History.ended more = [((ticket, job), result)])
    (hresult : x = (ticket, job) → info.Suits v → Blameless result) :
    Expects info x (notes ++ more) w' := by
  have hv : w.phase.workspace? = some v := by rw [hp]; rfl
  -- a job that is running has not ended yet
  have hopen : (ticket, job) ∉ (History.ended notes).map Prod.fst := by
    intro hx
    obtain ⟨⟨y, result'⟩, hy, hyx⟩ := List.mem_map.mp hx
    have hi := getElem?_of_numbered ho.ended_tickets hy
    have hlt := (List.getElem?_eq_some_iff.mp hi).1
    obtain ⟨hticket, -⟩ := ho.ticket_of_running hp
    rw [show y = (ticket, job) from hyx] at hlt
    simp only at hlt
    omega
  constructor
  case ended =>
    intro result' hr
    rw [ended_append, hended, List.mem_append, List.mem_singleton] at hr
    rcases hr with hr | hr
    · exact h.ended result' hr
    · cases hr
      exact hresult rfl (h.ahead hopen v hv).1
  case ahead =>
    intro hx v' hv'
    rw [ended_append, hended, List.map_append, List.mem_append, not_or] at hx
    obtain ⟨-, hu | ⟨hu, -⟩⟩ := h.ahead hx.1 v hv
    · simp only [underway, hp, List.cons.injEq, and_true] at hu
      simp [hu] at hx
    · simp [underway, hp] at hu

/-- **The job is the next that begins**, and finds the project as its tool needs it. -/
theorem step {a : Action Workspace Job JobAnswer} (h : Expects info x notes w)
    (ho : InOrder notes w) (hw : w.act? a = some w')
    (hbuilt : ∀ v, a = .move (.built v) → v = .empty)
    (hfinish : ∀ v v' answer, a = .move (.finish v' answer) → w.phase = .running v x.1 x.2 →
      info.Suits v → Blameless (some answer)) :
    Expects info x (notes ++ (w.note? a).toList) w' := by
  cases acts_of_act? hw with
  | refused hr => simpa [note?, hr] using h
  | accepted hr => simpa [note?, hr] using h.accept _
  | shutDown hc =>
    have hwaiting := waiting_shutdown w
    simp only [shutdown, hc, if_true] at hwaiting
    exact h.kept rfl fun v hv => ⟨hv, rfl, [], by simpa using hwaiting⟩
  | shutBefore _ => exact h.kept rfl fun v hv => ⟨hv, rfl, [], by simp⟩
  | awaited => exact h.kept rfl fun v hv => ⟨hv, rfl, [], by simp [waiting, Worker.awaitEnd]⟩
  | abandoned _ => exact h.kept rfl fun v hv => ⟨hv, rfl, [], by simp [waiting, Worker.abandon]⟩
  | moved hm =>
    cases hm with
    | built hp =>
      obtain rfl := hbuilt _ rfl
      refine h.kept rfl fun v hv => ⟨by rw [hp]; exact hv, ?_, [], by simp [waiting]⟩
      simp [underway, hp]
    | @start v ticket job rest hp hq =>
      refine ⟨fun result hr => h.ended result (by simpa [note?, hp, hq] using hr), ?_⟩
      intro hx v' hv'
      cases hv'
      obtain ⟨hs, hu | ⟨-, rest', hfirst⟩⟩ := h.ahead (by simpa [note?, hp, hq] using hx) v
        (by rw [hp]; rfl)
      · simp [underway, hp] at hu
      · simp only [waiting, hq, List.filterMap_cons, operation?, List.cons.injEq] at hfirst
        exact ⟨hs, Or.inl (by rw [← hfirst.1]; rfl)⟩
    | @finish v v' ticket job answer hp =>
      refine h.finished ho (some answer) hp (by simp [note?, hp]) ?_
      rintro rfl hs
      exact hfinish v v' answer rfl hp hs
    | @crash v v' ticket job hp =>
      exact h.finished ho none hp (by simp [note?, hp]) fun _ _ e he => by cases he
    | _ => exact h.passed rfl rfl

end Expects

/-- A job that is brought to a vacant worker is the first of the queue. -/
theorem Vacant.expects {info : ToolInfo} {notes : List (Note Workspace Job JobAnswer)}
    {w : Worker Workspace Job JobAnswer} (h : w.Vacant) (ho : InOrder notes w)
    (hs : ∀ v, w.phase.workspace? = some v → info.Suits v) (job : Job) :
    Expects info (w.replies.length, job) (notes ++ [.accepted w.replies.length job])
      (w.accept job) where
  ended result hr := by
    have hmem : (w.replies.length, job) ∈ (History.ended notes).map Prod.fst :=
      List.mem_map.mpr ⟨_, by simpa using hr, rfl⟩
    exact absurd (ho.lt_of_accepted (ho.ended_prefix.subset hmem)) (Nat.lt_irrefl _)
  ahead _ v hv := by
    obtain ⟨hq, hu⟩ := h
    refine ⟨hs v hv, Or.inr ⟨hu, [], ?_⟩⟩
    rw [waiting_accept, hq]
    rfl

end Worker

/-! ## 2. Calls that have given up -/

/-- The task does not wait for a job any more, and does not blame the project. -/
def Task.Resigned : Task → Prop
  | .call _ (.closeFaulted _ _) => True
  | .finished a => ∀ err, a.error? = some err → err.blamesProject = false
  | _ => False

/-- What a worker refuses, it does not blame on the project. -/
theorem WorkerError.blamesProject_toToolError (e : WorkerError) :
    e.toToolError.blamesProject = false := by
  cases e <;> rfl

namespace Task

variable {ρ : Type} {r r' : Registry ρ} {c : Call}

/-- Whoever has given up stays so. -/
theorem Resigned.turn {standard : Duration} {t t' : Task} {ch : Change ρ} (hr : t.Resigned)
    (h : Engine.Turn r standard t t' ch) : t'.Resigned := by
  cases h with
  | go hg =>
    cases t with
    | call c stage =>
      cases stage with
      | closeFaulted id stage =>
        rcases Progress.cases_of_goes hg with ⟨stage', hs, rfl⟩ | ⟨a, hs, rfl⟩
        · cases CallStage.steps_of_step hs with
          | closeFaulted _ => trivial
        · cases CallStage.steps_of_step hs with
          | faulted _ =>
            rintro err ⟨⟩
            rfl
      | _ => cases hr
    | finished a => cases hg
    | _ => cases hr
  | callOff => cases hr
  | expire hg =>
    cases lapses_of_expire? hg with
    | closeFaulted hs => trivial
    | _ => cases hr
  | cutOff hp => cases hr
  | refuse hg =>
    obtain ⟨-, -, metadata, ⟨rfl, -⟩ | ⟨c', rfl, -⟩⟩ := Task.of_refuse? hg <;> cases hr
  | detour hg =>
    obtain ⟨_, _, -, ⟨rfl, -⟩ | ⟨_, rfl, -⟩⟩ := Task.of_detour? hg <;> cases hr

end Task

/-! ## 3. The way of a lone call -/

namespace Change

variable {ρ : Type}

/-- A worker makes a step of its own in a change that says so. -/
theorem work_of_actionAt? {k : Nat} {c : Change ρ} {move : Worker.Move ρ JobAnswer}
    (h : c.actionAt? k = some (.move move)) : c = .work k move := by
  unfold actionAt? at h
  split at h
  · rename_i hseat
    cases c <;> cases h
    cases hseat
    rfl
  · cases h

end Change

namespace Engine

open Worker.History

/-- Whoever builds a workspace on the disk builds one without a project. -/
theorem built_empty {context : PlanContext} {e : Engine Workspace} {event : Event Workspace}
    {k : Nat} {a : Worker.Action Workspace Job JobAnswer}
    (hallow : Workspace.backend.Allows context e event)
    (ha : (e.change event).actionAt? k = some a) :
    ∀ v, a = .move (.built v) → v = .empty := by
  rintro v rfl
  obtain rfl := work_of_change (Change.work_of_actionAt? ha)
  obtain ⟨x, x', hb⟩ := hallow
  cases hb
  rfl

/-- A tool that runs on the disk and finds the project as it needs it blames nobody. -/
theorem finish_blameless {context : PlanContext} {e : Engine Workspace} {event : Event Workspace}
    {k : Nat} {a : Worker.Action Workspace Job JobAnswer} {s : Session Workspace} {n : Nat}
    {info : ToolInfo} {arguments : Json} (hallow : Workspace.backend.Allows context e event)
    (hs : e.registry.session? k = some s) (hi : info ∈ Tool.all)
    (ha : (e.change event).actionAt? k = some a) :
    ∀ v v' answer, a = .move (.finish v' answer) →
      s.worker.phase = .running v n (.tool info arguments) → info.Suits v →
      Blameless (some answer) := by
  rintro v v' answer rfl hp hsuits
  obtain rfl := work_of_change (Change.work_of_actionAt? ha)
  obtain ⟨x, x', now, hrun⟩ := hallow s v n _ hs hp
  exact (Workspace.toldBy_of_run hi hrun).blameless hsuits

/-- The way of a call that has its session to itself, from its look at the session on. -/
inductive Lone (k q : Nat) (c : Call) (info : ToolInfo)
    (past : List (Engine Workspace × Event Workspace)) (e : Engine Workspace) : Prop where
  /-- If it is to open a project, none is open. -/
  | looks {id : String} {s : Session Workspace}
      (ht : e.tasks[q]? = some (.call c (.check info id k))) (hs : e.registry.session? k = some s)
      (hv : s.worker.Vacant)
      (ho : info.onSuccess = .attach → ∀ v, s.worker.phase.workspace? = some v → info.Suits v)
  | brings {id : String} {s : Session Workspace}
      (ht : e.tasks[q]? = some (.call c (.enter info id k))) (hs : e.registry.session? k = some s)
      (hv : s.worker.Vacant) (ho : ∀ v, s.worker.phase.workspace? = some v → info.Suits v)
  | waits {id : String} {n : Nat} {limit : Duration} {s : Session Workspace}
      (ht : e.tasks[q]? = some (.call c (.await id k n limit)))
      (hs : e.registry.session? k = some s)
      (ha : (n, .tool info c.arguments) ∈ accepted (notes k past))
      (hx : s.worker.Expects info (n, .tool info c.arguments) (notes k past))
  | through {t : Task} (ht : e.tasks[q]? = some t) (hr : t.Resigned)

section Steps

variable {k q : Nat} {c : Call} {info : ToolInfo} {context : PlanContext}
  {past : List (Engine Workspace × Event Workspace)} {e e' : Engine Workspace}
  {event : Event Workspace}

/-- A task that is not a patrol changes only when it takes its turn. -/
theorem task_kept {ρ : Type} {e e' : Engine ρ} {event : Event ρ} {q : Nat} {t : Task}
    (h : e.step? event = some e') (ht : e.tasks[q]? = some t) (hp : event.place? ≠ some q)
    (hn : ∀ stage calledOff, t ≠ .patrol stage calledOff) : e'.tasks[q]? = some t := by
  obtain ⟨t', ht', ⟨hp', -⟩ | ⟨-, rfl | ⟨stage, calledOff, rfl, -⟩⟩⟩ := task_of_step? h ht
  · exact absurd hp' hp
  · exact ht'
  · exact absurd rfl (hn stage calledOff)

/-- What happens to a vacant worker while nobody brings it a job. -/
theorem vacant_of_step? {s : Session Workspace} (hallow : Workspace.backend.Allows context e event)
    (h : e.step? event = some e') (hs : e.registry.session? k = some s) (hv : s.worker.Vacant)
    (hsubmit : ∀ bounded job, e.change event ≠ .submit k bounded job) :
    ∃ s', e'.registry.session? k = some s' ∧ s'.worker.Vacant ∧
      ∀ v, s'.worker.phase.workspace? = some v → s.worker.phase.workspace? = some v := by
  obtain ⟨s', hs', halter⟩ := session_of_step? h hs
  refine ⟨s', hs', ?_⟩
  cases hact : (e.change event).actionAt? k with
  | none =>
    rw [halter.rests hact]
    exact ⟨hv, fun _ => id⟩
  | some a =>
    refine hv.step (halter.acts a hact) ?_ (built_empty hallow hact)
    rintro bounded job rfl
    exact hsubmit bounded job (change_of_actionAt? hact)

/-- What happens to a worker that expects a job. -/
theorem expects_of_step? {s : Session Workspace} {n : Nat} {arguments : Json}
    (hst : Steady k past e) (hallow : Workspace.backend.Allows context e event)
    (h : e.step? event = some e') (hs : e.registry.session? k = some s)
    (ha : (n, .tool info arguments) ∈ accepted (notes k past))
    (hx : s.worker.Expects info (n, .tool info arguments) (notes k past)) :
    ∃ s', e'.registry.session? k = some s' ∧
      (n, .tool info arguments) ∈ accepted (notes k (past ++ [(e, event)])) ∧
      s'.worker.Expects info (n, .tool info arguments) (notes k (past ++ [(e, event)])) := by
  obtain ⟨s', hs', halter⟩ := session_of_step? h hs
  have ht : Worker.Told (notes k past) s.worker := hst.books.told.of_some hs
  refine ⟨s', hs', by simp [notes_concat, ha], ?_⟩
  rw [notes_concat]
  cases hact : (e.change event).actionAt? k with
  | none => simpa [note?, hs, hact, halter.rests hact] using hx
  | some a =>
    have hnote : note? k (e, event) = s.worker.note? a := by simp [note?, hs, hact]
    rw [hnote]
    exact hx.step ht.order (halter.acts a hact) (built_empty hallow hact)
      (finish_blameless hallow hs (hst.tools n info arguments ha) hact)

/-- **What happens to others does not hinder a lone call.** -/
theorem Lone.others (hl : Lone k q c info past e) (hst : Steady k past e)
    (hallow : Workspace.backend.Allows context e event) (h : e.step? event = some e')
    (hp : event.place? ≠ some q)
    (hsubmit : e.Heads k q c info → ∀ bounded job, e.change event ≠ .submit k bounded job) :
    Lone k q c info (past ++ [(e, event)]) e' := by
  cases hl with
  | looks ht hs hv ho =>
    obtain ⟨s', hs', hv', hw⟩ := vacant_of_step? hallow h hs hv
      (hsubmit ⟨_, ht, _, Or.inl rfl⟩)
    exact .looks (task_kept h ht hp (by rintro _ _ ⟨⟩)) hs' hv'
      fun hatt v hv => ho hatt v (hw v hv)
  | brings ht hs hv ho =>
    obtain ⟨s', hs', hv', hw⟩ := vacant_of_step? hallow h hs hv
      (hsubmit ⟨_, ht, _, Or.inr rfl⟩)
    exact .brings (task_kept h ht hp (by rintro _ _ ⟨⟩)) hs' hv' fun v hv => ho v (hw v hv)
  | waits ht hs ha hx =>
    obtain ⟨s', hs', ha', hx'⟩ := expects_of_step? hst hallow h hs ha hx
    exact .waits (task_kept h ht hp (by rintro _ _ ⟨⟩)) hs' ha' hx'
  | through ht hr =>
    refine .through (task_kept h ht hp ?_) hr
    rintro stage calledOff rfl
    cases hr

/-- What a call does itself: it goes on, its time is up, or there is no thread for its session. -/
theorem own_of_step? {stage : CallStage} (h : e.step? event = some e')
    (hp : event.place? = some q) (ht : e.tasks[q]? = some (.call c stage)) :
    ∃ r t', e' = e.proceed q r t' ∧
      ((event = .go q ∧ (Task.call c stage).go? e.registry e.callTimeout = some (r, t')) ∨
        (Task.call c stage).expire? e.registry = some (r, t') ∨
        ∃ metadata, stage = .create (.enter metadata)) := by
  cases takes_of_step? h hp ht with
  | go hg => exact ⟨_, _, rfl, Or.inl ⟨rfl, hg⟩⟩
  | expire hg => exact ⟨_, _, rfl, Or.inr (Or.inl hg)⟩
  | refuse hg =>
    obtain ⟨-, -, metadata, ⟨hcreate, -⟩ | ⟨c', hcreate, -⟩⟩ := Task.of_refuse? hg
    · cases hcreate
    · cases hcreate
      exact ⟨_, _, rfl, Or.inr (Or.inr ⟨metadata, rfl⟩)⟩
  | detour hg => cases hg

/-- A call that is on its way to a worker goes on by its own step only. -/
theorem go_of_heads {t : Task} (h : e.step? event = some e') (hp : event.place? = some q)
    (ht : e.tasks[q]? = some t) (hh : t.Heads k c info) :
    event = .go q ∧ ∃ r t', t.go? e.registry e.callTimeout = some (r, t') ∧
      e' = e.proceed q r t' := by
  obtain ⟨id, rfl | rfl⟩ := hh
  all_goals
    obtain ⟨r, t', rfl, ⟨rfl, hg⟩ | hexpire | ⟨metadata, hcreate⟩⟩ := own_of_step? h hp ht
    · exact ⟨rfl, r, t', hg, rfl⟩
    · cases hexpire
    · cases hcreate

/-- The call looks at its session: it goes on only if the tool finds the project as it needs it. -/
theorem Lone.look {id : String} {s : Session Workspace} (hst : Steady k past e)
    (h : e.step? event = some e') (hp : event.place? = some q)
    (ht : e.tasks[q]? = some (.call c (.check info id k))) (hs : e.registry.session? k = some s)
    (hv : s.worker.Vacant) (hi : info ∈ Tool.all)
    (hneeds : info.precondition = .sessionAndResource ∨ info.onSuccess = .attach)
    (ho : info.onSuccess = .attach → ∀ v, s.worker.phase.workspace? = some v → info.Suits v) :
    Lone k q c info (past ++ [(e, event)]) e' := by
  obtain ⟨-, r, t', hg, rfl⟩ := go_of_heads h hp ht ⟨id, Or.inl rfl⟩
  have hq := tasks_proceed ht r t'
  rcases Progress.cases_of_goes hg with ⟨stage', hstep, rfl⟩ | ⟨a, hstep, rfl⟩
  · cases CallStage.steps_of_step hstep with
    | suits hs₀ hsuits =>
      rw [hs] at hs₀
      cases hs₀
      refine .brings hq hs hv fun v hv => ?_
      rcases hneeds with hneeds | hneeds
      · have hstate : s.state = .resourceAttached := hsuits hneeds
        have hopen : s.isClosed = false := by simp [Session.isClosed, hstate]
        have hr := (hst.inStep s hs hopen v hv).1
        rw [hstate] at hr
        have hattach := (Tool.precondition_of_mem info hi).1 hneeds
        have hproject : v.project ≠ none := by
          intro hnone
          simp [Workspace.label?, hnone] at hr
        exact ⟨fun ha => absurd ha hattach, fun hn => absurd hn hproject⟩
      · exact ho hneeds v hv
  · cases CallStage.steps_of_step hstep with
    | lostBefore hnone =>
      rw [hs] at hnone
      cases hnone
    | unsuited _ _ _ => exact .through hq (by rintro err ⟨⟩; rfl)

/-- The call brings its job, which is the first of the queue. -/
theorem Lone.bring {id : String} {s : Session Workspace} (hst : Steady k past e)
    (h : e.step? event = some e') (hp : event.place? = some q)
    (ht : e.tasks[q]? = some (.call c (.enter info id k))) (hs : e.registry.session? k = some s)
    (hv : s.worker.Vacant) (ho : ∀ v, s.worker.phase.workspace? = some v → info.Suits v) :
    Lone k q c info (past ++ [(e, event)]) e' := by
  obtain ⟨rfl, r, t', hg, rfl⟩ := go_of_heads h hp ht ⟨id, Or.inr rfl⟩
  have hq := tasks_proceed ht r t'
  rcases Progress.cases_of_goes hg with ⟨stage', hstep, rfl⟩ | ⟨a, hstep, rfl⟩
  · cases CallStage.steps_of_step hstep with
    | refused _ _ _ _ => exact .through hq trivial
    | queued hs₀ hname hplanner hsubmit =>
      rw [hs] at hs₀
      cases hs₀
      have hchange : e.change (.go q) = .submit k true (.tool info c.arguments) := by
        have hpart : e.partAt q = .enter info c.arguments k := by
          simp only [partAt, ht, Task.part]
          exact CallStage.part_enter hname hplanner
        rw [change_of_go, hpart]
        rfl
      rw [Worker.submit_eq] at hsubmit
      split at hsubmit
      · cases hsubmit
      · rename_i hrefusal
        cases hsubmit
        have hnote : note? k (e, .go q) =
            some (.accepted s.worker.replies.length (.tool info c.arguments)) := by
          simp [note?, hs, hchange, Change.actionAt?, Change.seat?, Change.action?,
            Worker.note?, hrefusal]
        have htold : Worker.Told (notes k past) s.worker := hst.books.told.of_some hs
        have hlt : k < e.registry.sessions.length := (List.getElem?_eq_some_iff.mp hs).1
        refine .waits (s := { s with worker := s.worker.accept (.tool info c.arguments) }) hq ?_
          ?_ ?_
        · simp [proceed, Registry.put, Registry.session?, hlt]
        · simp [notes_concat, hnote]
        · rw [notes_concat, hnote]
          exact hv.expects htold.order ho _
  · cases CallStage.steps_of_step hstep with
    | lostBehind hnone =>
      rw [hs] at hnone
      cases hnone
    | told _ _ => exact .through hq (by rintro err ⟨⟩)
    | unplanned _ _ _ => exact .through hq (by rintro err ⟨⟩; rfl)
    | rejected _ _ _ _ _ =>
      exact .through hq (by rintro err ⟨⟩; exact WorkerError.blamesProject_toToolError _)

/-- The call gets the answer of its job, or gives up. -/
theorem Lone.wait {id : String} {n : Nat} {limit : Duration} {s : Session Workspace}
    (hst : Steady k past e) (h : e.step? event = some e') (hp : event.place? = some q)
    (ht : e.tasks[q]? = some (.call c (.await id k n limit))) (hs : e.registry.session? k = some s)
    (ha : (n, .tool info c.arguments) ∈ accepted (notes k past))
    (hx : s.worker.Expects info (n, .tool info c.arguments) (notes k past)) :
    Lone k q c info (past ++ [(e, event)]) e' := by
  have htold : Worker.Told (notes k past) s.worker := hst.books.told.of_some hs
  obtain ⟨r, t', rfl, ⟨-, hg⟩ | hexpire | ⟨metadata, hcreate⟩⟩ := own_of_step? h hp ht
  · have hq := tasks_proceed ht r t'
    rcases Progress.cases_of_goes hg with ⟨stage', hstep, rfl⟩ | ⟨a, hstep, rfl⟩
    · cases CallStage.steps_of_step hstep with
      | lost _ _ => exact .through hq trivial
    · cases CallStage.steps_of_step hstep with
      | lostMeanwhile hnone =>
        rw [hs] at hnone
        cases hnone
      | answered hs₀ hout =>
        rw [hs] at hs₀
        cases hs₀
        refine .through hq fun err herr => ?_
        cases a with
        | ok out => cases herr
        | error e₀ =>
          cases herr
          exact hx.ended _ (htold.answers.ended_of_value htold.order ha
            (Worker.outcome?_eq_ok.mp hout)) _ rfl
  · cases Task.lapses_of_expire? hexpire with
    | await hs' => exact .through (tasks_proceed ht _ _) (by rintro err ⟨⟩; rfl)
  · cases hcreate

/-- **A lone call goes its way.** -/
theorem Lone.step (hl : Lone k q c info past e) (hst : Steady k past e)
    (hneeds : info.precondition = .sessionAndResource ∨ info.onSuccess = .attach)
    (hallow : Workspace.backend.Allows context e event) (h : e.step? event = some e')
    (halone : e.Heads k q c info → ∀ bounded job, e.change event = .submit k bounded job →
      event = .go q) : Lone k q c info (past ++ [(e, event)]) e' := by
  by_cases hp : event.place? = some q
  · cases hl with
    | looks ht hs hv ho =>
      exact .look hst h hp ht hs hv (hst.equipped q _ info ht rfl) hneeds ho
    | brings ht hs hv ho => exact .bring hst h hp ht hs hv ho
    | waits ht hs ha hx => exact .wait hst h hp ht hs ha hx
    | through ht hr =>
      obtain ⟨t', ht', ⟨-, hturn⟩ | ⟨hne, -⟩⟩ := task_of_step? h ht
      · exact .through ht' (hr.turn hturn)
      · exact absurd hp hne
  · refine hl.others hst hallow h hp fun hh bounded job hc => ?_
    rw [halone hh bounded job hc] at hp
    exact hp rfl

/-- A lone call does not blame the project. -/
theorem Lone.blameless (hl : Lone k q c info past e) {err : ToolError}
    (hf : e.failure? q = some err) : err.blamesProject = false := by
  unfold failure? at hf
  cases hl with
  | looks ht hs hv ho =>
    rw [ht] at hf
    cases hf
  | brings ht hs hv ho =>
    rw [ht] at hf
    cases hf
  | waits ht hs ha hx =>
    rw [ht] at hf
    cases hf
  | @through t ht hr =>
    rw [ht] at hf
    cases t with
    | finished a => exact hr err hf
    | _ => cases hf

end Steps

/-! ## 4. What a session tells of its workspace -/

/-- What an open session tells of its workspace between two jobs, and what that is good for. -/
structure Attached (context : PlanContext) (k : Nat) (e : Engine Workspace)
    (s : Session Workspace) : Prop where
  /-- The session has a project attached when one is open in its workspace. -/
  attached_iff : ∀ w, s.isClosed = false → s.worker.phase = .resting w →
    (s.state = .resourceAttached ↔ w.project.isSome = true)
  /-- The label is the name of that project. -/
  label : ∀ w p, s.isClosed = false → s.worker.phase = .resting w → w.project = some p →
    s.attached = some p.name
  /-- There is no label, and the session is as it was created, when none is open. -/
  created_iff : ∀ w, s.isClosed = false → s.worker.phase = .resting w →
    (s.state = .created ∧ s.attached = none ↔ w.project = none)
  /-- So it is before the workspace is built. -/
  unbuilt : s.isClosed = false → s.worker.phase = .building →
    s.state = .created ∧ s.attached = none
  /-- A call that comes to look at the session when nothing is queued or running in it, and to which
  nobody else brings a job before it does, does not fail for want of a project if its tool needs
  one, nor for a project that is open if it is to open one and finds the session as it was
  created. -/
  alone : ∀ q c info id, e.tasks[q]? = some (.call c (.check info id k)) → s.worker.Vacant →
    info.precondition = .sessionAndResource ∨ info.name = "open_project" ∧ s.state = .created →
    ∀ later e', e.run? later = some e' → OnDisk context (e.trace later) →
    (∀ x ∈ e.trace later, x.1.Heads k q c info → ∀ bounded job,
      x.1.change x.2 = .submit k bounded job → x.2 = .go q) →
    e'.failure? q ≠ some .noProjectOpen ∧ ∀ name, e'.failure? q ≠ some (.projectAlreadyOpen name)

/-- A call that has its session to itself does not blame the project. -/
theorem Steady.alone {k q : Nat} {c : Call} {info : ToolInfo} {id : String}
    {context : PlanContext} {past : List (Engine Workspace × Event Workspace)}
    {e e' : Engine Workspace} {s : Session Workspace} {later : List (Event Workspace)}
    (hst : Steady k past e) (hs : e.registry.session? k = some s)
    (ht : e.tasks[q]? = some (.call c (.check info id k))) (hv : s.worker.Vacant)
    (hneeds : info.precondition = .sessionAndResource ∨
      info.name = "open_project" ∧ s.state = .created)
    (h : e.run? later = some e') (hd : OnDisk context (e.trace later))
    (halone : ∀ x ∈ e.trace later, x.1.Heads k q c info → ∀ bounded job,
      x.1.change x.2 = .submit k bounded job → x.2 = .go q) :
    ∀ err, e'.failure? q = some err → err.blamesProject = false := by
  have hi : info ∈ Tool.all := hst.equipped q _ info ht rfl
  have hneeds' : info.precondition = .sessionAndResource ∨ info.onSuccess = .attach :=
    hneeds.imp_right fun hn => (Tool.precondition_of_mem info hi).2 hn.1
  have hlooks : Lone k q c info past e := by
    refine .looks ht hs hv fun hattach v hw => ?_
    rcases hneeds with hneeds | ⟨-, hcreated⟩
    · exact absurd hattach ((Tool.precondition_of_mem info hi).1 hneeds)
    · have hopen : s.isClosed = false := by simp [Session.isClosed, hcreated]
      have hr := (hst.inStep s hs hopen v hw).1
      rw [hcreated] at hr
      have hnone : v.project = none := by
        cases hp : v.project with
        | none => rfl
        | some p => simp [Workspace.label?, hp] at hr
      exact ⟨fun _ => hnone, fun _ => hattach⟩
  let P : List (Engine Workspace × Event Workspace) → Engine Workspace → Prop := fun l e₁ =>
    OnDisk context l → (∀ x ∈ l, x.1.Heads k q c info → ∀ bounded job,
      x.1.change x.2 = .submit k bounded job → x.2 = .go q) →
    Steady k (past ++ l) e₁ ∧ Lone k q c info (past ++ l) e₁
  have hbase : P [] e := by
    intro _ _
    rw [List.append_nil]
    exact ⟨hst, hlooks⟩
  have hstep : ∀ l e₁ event e₂, P l e₁ → e₁.step? event = some e₂ → P (l ++ [(e₁, event)]) e₂ := by
    intro l e₁ event e₂ hP hevent hd halone
    obtain ⟨hst₁, hl₁⟩ := hP (fun x hx => hd x (List.mem_append_left _ hx))
      (fun x hx => halone x (List.mem_append_left _ hx))
    have hallow := hd (e₁, event) (by simp)
    rw [← List.append_assoc]
    exact ⟨hst₁.step hallow hevent,
      hl₁.step hst₁ hneeds' hallow hevent (halone (e₁, event) (by simp))⟩
  have hall := run?_induction (P := P) hstep h hbase
  intro err herr
  exact (hall (by simpa using hd) (by simpa using halone)).2.blameless herr

/-- **A session tells the truth of its workspace**, whatever tools are called in it and however they
end. -/
theorem attached_of_run? {context : PlanContext} {settings : SessionSettings}
    {standard : Duration} {ids : Nat → String} {now : Nat} {e : Engine Workspace}
    {events : List (Event Workspace)} {k : Nat} {s : Session Workspace}
    (h : (start settings standard ids now).run? events = some e)
    (hd : OnDisk context ((start settings standard ids now).trace events))
    (hs : e.registry.session? k = some s) : Attached context k e s := by
  have hst := steady_of_run? h hd k
  have hr : ∀ {w}, s.isClosed = false → s.worker.phase = .resting w → s.Reflects w :=
    fun hopen hp => hst.inStep s hs hopen _ (by rw [hp]; rfl)
  constructor
  case attached_iff =>
    intro w hopen hp
    rw [(hr hopen hp).1]
    cases hw : w.project <;> simp [Workspace.label?, hw]
  case label =>
    intro w p hopen hp hw
    rw [(hr hopen hp).2]
    simp [Workspace.label?, hw]
  case created_iff =>
    intro w hopen hp
    rw [(hr hopen hp).1, (hr hopen hp).2]
    cases hw : w.project <;> simp [Workspace.label?, hw]
  case unbuilt =>
    intro hopen hp
    exact hst.inStep s hs hopen _ (by rw [hp]; rfl)
  case alone =>
    intro q c info id ht hv hneeds later e' hlater hd' halone
    have hblame := hst.alone hs ht hv hneeds hlater hd' halone
    refine ⟨fun hf => ?_, fun name hf => ?_⟩
    · cases hblame _ hf
    · cases hblame _ hf

/-- What happens on the disk, event by event. -/
theorem onDisk_cons {context : PlanContext} {e e' : Engine Workspace} {event : Event Workspace}
    {rest : List (Event Workspace)} (h : e.step? event = some e')
    (hallow : Workspace.backend.Allows context e event) (hd : OnDisk context (e'.trace rest)) :
    OnDisk context (e.trace (event :: rest)) := by
  intro x hx
  simp only [trace, h, List.mem_cons] at hx
  rcases hx with rfl | hx
  · exact hallow
  · exact hd x hx

/-- A disk with one project. -/
def plantDisk : Disk := ⟨.directory "plant" (.file "Plant.ap18" "" .empty) .empty, [], none⟩

/-- The project is opened, and a call that is to close it has found the session. -/
def plantOpened : List (Event Workspace) :=
  [.arrive (.create []), .go 0, .work 0 (.built .empty), .go 0,
    .arrive (.call ⟨"open_project", plantArguments⟩), .go 1, .go 1, .go 1, .go 1, .work 0 .start,
    .work 0 (.finish ⟨some ⟨"plant", .empty, ⟨["plant"]⟩, false⟩⟩
      (.ok ⟨"Opened project plant", .object [("name", .str "plant"), ("store_path", .str ""),
        ("path", .str "plant"), ("is_modified", .bool false), ("block_count", .nat 0)]⟩)),
    .arrive (.call ⟨"close_project", plantArguments⟩), .go 2, .go 2]

theorem attached_plantOpened : ∃ (e : Engine Workspace) (s : Session Workspace),
    let e₀ := start (.ofConfig SessionConfig.standard) (.ofSeconds 60) (fun _ => "first") 0
    let context : PlanContext := ⟨⟨["exports"]⟩, none⟩
    e₀.run? plantOpened = some e ∧ OnDisk context (e₀.trace plantOpened) ∧
    e.registry.session? 0 = some s ∧ Attached context 0 e s ∧ s.state = .resourceAttached ∧
    s.attached = some "plant" ∧ s.worker.Vacant ∧
    e.tasks[2]? = some (.call ⟨"close_project", plantArguments⟩
      (.check Tool.closeProject "first" 0)) := by
  have hd : OnDisk (⟨⟨["exports"]⟩, none⟩ : PlanContext)
      ((start (.ofConfig SessionConfig.standard) (.ofSeconds 60) (fun _ => "first") 0).trace
        plantOpened) := by
    refine onDisk_cons rfl trivial (onDisk_cons rfl trivial (onDisk_cons rfl
      ⟨plantDisk, plantDisk, rfl⟩ (onDisk_cons rfl trivial (onDisk_cons rfl trivial (onDisk_cons rfl
      trivial (onDisk_cons rfl trivial (onDisk_cons rfl trivial (onDisk_cons rfl trivial
      (onDisk_cons rfl trivial (onDisk_cons rfl ?_ (onDisk_cons rfl trivial (onDisk_cons rfl trivial
      (onDisk_cons rfl trivial ?_)))))))))))))
    · intro s r₀ ticket job hs hp
      cases hs
      cases hp
      exact ⟨plantDisk, plantDisk, .ofNanos 0, rfl⟩
    · intro x hx
      cases hx
  exact ⟨_, _, rfl, hd, rfl, attached_of_run? rfl hd rfl, rfl, rfl, ⟨rfl, rfl⟩, rfl⟩

end Engine
end Workbench
