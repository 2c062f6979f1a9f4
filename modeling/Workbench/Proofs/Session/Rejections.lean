import Workbench.Proofs.Engine.Erasing
import Workbench.Proofs.Session.Patience

/-!
# Calls that are rejected

A call is rejected when its tool or its session is unknown, when a condition of the tool is not met,
when there is no room for its session or its job, or when a tool that needs no session does not get
on with its arguments.  Whatever else happens between the steps of such a call, it is as if nobody
had looked at the call.

* `CallStage.isBound` are the stages behind the point at which a call begins to leave something
  behind; in front of it the registry stays as it is (`registry_of_free_next`,
  `registry_of_free_done`), and behind it the call is not rejected any more (`Binds.step`);
* `Engine.Answering` says that the workers answer with errors of their own, so that a rejection does
  not come from them;
* `Engine.erased_of_isFree`: the run without the events of a rejected call comes to the same, in the
  registry and on the disk; `Engine.leavesNothing_of_run?` is the statement about all reachable
  states.
-/

namespace Workbench

variable {ρ : Type}

/-! ## 1. Rejections -/

namespace Call

/-- The codes that tell that a call was rejected, whatever its tool is. -/
def rejectionCodes : List String :=
  ["unknown_tool", "session_not_found", "precondition_not_met", "capacity_exceeded", "busy",
    "bridge_closed"]

/-- The call needs a session, if there is its tool at all. -/
def NeedsSession (c : Call) : Prop :=
  ∀ info, Tool.find? c.tool = some info → info.precondition ≠ .none

/-- The error rejects the call: by its code, or because the arguments do not fit a tool that needs
no session. -/
def RejectedBy (c : Call) (err : ToolError) : Prop :=
  err.code ∈ rejectionCodes ∨ err.code = "invalid_params" ∧
    ∃ info, Tool.find? c.tool = some info ∧ info.precondition = .none

theorem not_rejectedBy_of_code {c : Call} {err : ToolError} (code : String) (h : err.code = code)
    (hcode : code ∉ rejectionCodes) (hparams : code ≠ "invalid_params") : ¬ c.RejectedBy err := by
  rintro (hrejected | ⟨hinvalid, -⟩)
  · exact hcode (h ▸ hrejected)
  · exact hparams (h.symm.trans hinvalid)

/-- What a worker fails with rejects no call that needs a session. -/
theorem not_rejectedBy_of_isOwn {c : Call} (hneeds : c.NeedsSession) {err : ToolError}
    (h : err.isOwn = true) : ¬ c.RejectedBy err := by
  have hcode : err.code = "invalid_params" ∨ err.code = "handler_failure" := by
    cases err <;> first | exact Or.inl rfl | exact Or.inr rfl | cases h
  rcases hcode with hcode | hcode
  · rintro (hrejected | ⟨-, info, hfind, hnone⟩)
    · rw [hcode] at hrejected
      exact absurd hrejected (by decide)
    · exact hneeds info hfind hnone
  · exact not_rejectedBy_of_code "handler_failure" hcode (by decide) (by decide)

end Call

/-! ## 2. How far a call has come -/

/-- The close has found its session. -/
def Closing.isBound : Closing → Bool
  | lookup => false
  | lookBack => false
  | _ => true

/-- The termination has found its session. -/
def Termination.isBound : Termination → Bool
  | lookup => false
  | lookBack => false
  | _ => true

/-- The session is registered. -/
def Creation.isBound : Creation → Bool
  | enter _ => false
  | _ => true

section Free

variable {r r' : Registry ρ} {id : String}

theorem Closing.registry_of_free_done {stage : Closing} {a : Except SessionError Unit}
    (h : stage.step r id = .done r' a) (hfree : stage.isBound = false) : r' = r := by
  cases steps_of_step h with
  | remembered _ | unknown _ => rfl
  | vacant _ | second _ _ | released _ => cases hfree

theorem Termination.registry_of_free_done {stage : Termination} {a : Except SessionError Unit}
    (h : stage.step r id = .done r' a) (hfree : stage.isBound = false) : r' = r := by
  cases steps_of_step h with
  | remembered _ | unknown _ => rfl
  | vacant _ | second _ | shutDown _ => cases hfree

theorem Creation.registry_of_free_done {stage : Creation} {a : Except SessionError SessionInfo}
    (h : stage.step r = .done r' a) (hfree : stage.isBound = false) : r' = r := by
  cases steps_of_step h with
  | full _ => rfl
  | ready _ _ | vacant _ | removed _ => cases hfree

end Free

namespace CallStage

/-- The call leaves something behind, or may do so. -/
def isBound : CallStage → Bool
  | close _ stage => stage.isBound
  | terminate _ stage => stage.isBound
  | create stage => stage.isBound
  | await _ _ _ _ => true
  | closeFaulted _ _ => true
  | _ => false

/-- On the way to a worker the call needs a session. -/
def Suits (c : Call) : CallStage → Prop
  | resolve _ => c.NeedsSession
  | check _ _ _ => c.NeedsSession
  | enter _ _ _ => c.NeedsSession
  | await _ _ _ _ => c.NeedsSession
  | _ => True

/-- The session for which the call waits is there. -/
def Seated (r : Registry ρ) : CallStage → Prop
  | await _ seat _ _ => ∃ s, r.session? seat = some s
  | _ => True

section Steps

variable {r r' : Registry ρ} {standard : Duration} {c : Call} {stage stage' : CallStage}

theorem Suits.next (hs : stage.Suits c) (h : Goes r standard c stage r' stage') :
    stage'.Suits c := by
  cases h with
  | resolving hf hn =>
    intro info hfind
    rw [hf] at hfind
    cases hfind
    exact hn
  | found _ _ => exact hs
  | suits _ => exact hs
  | queued _ _ _ _ => exact hs
  | _ => trivial

theorem Goes.seated (h : Goes r standard c stage r' stage') : stage'.Seated r' := by
  cases h with
  | queued hs _ _ _ =>
    have hlt := (List.getElem?_eq_some_iff.mp hs).1
    exact ⟨_, List.getElem?_set_self hlt⟩
  | _ => trivial

/-- **A call that goes on leaves the registry as it is, or is bound from then on.** -/
theorem registry_of_free_next (h : Goes r standard c stage r' stage')
    (hfree : stage.isBound = false) : r' = r ∨ stage'.isBound = true := by
  cases h with
  | close hs =>
    cases Closing.steps_of_step hs with
    | found _ | missed _ => exact Or.inl rfl
    | won _ _ | releases _ => cases hfree
  | terminate hs =>
    cases Termination.steps_of_step hs with
    | found _ | missed _ => exact Or.inl rfl
    | closed _ | won _ | queued _ => cases hfree
  | create hs =>
    cases Creation.steps_of_step hs with
    | registered _ => exact Or.inr rfl
    | failed _ _ | closed _ _ | shutDown _ _ => cases hfree
  | queued _ _ _ _ => exact Or.inr rfl
  | closeFaulted _ => cases hfree
  | _ => exact Or.inl rfl

/-- **A call that is answered before it is bound leaves the registry as it is.** -/
theorem registry_of_free_done {a : Result} (h : stage.step r standard c = .done r' a)
    (hfree : stage.isBound = false) : r' = r := by
  cases steps_of_step h with
  | closed hs | closeFailed hs => exact Closing.registry_of_free_done hs hfree
  | terminated hs | terminateFailed hs => exact Termination.registry_of_free_done hs hfree
  | created hs | createFailed hs => exact Creation.registry_of_free_done hs hfree
  | lostMeanwhile _ | answered _ _ | faulted _ => cases hfree
  | _ => rfl

theorem isBound_next (h : Goes r standard c stage r' stage') (hbound : stage.isBound = true) :
    stage'.isBound = true := by
  cases h with
  | close hs =>
    cases Closing.steps_of_step hs with
    | found _ | missed _ => cases hbound
    | won _ _ | releases _ => rfl
  | terminate hs =>
    cases Termination.steps_of_step hs with
    | found _ | missed _ => cases hbound
    | closed _ | won _ | queued _ => rfl
  | create hs =>
    cases Creation.steps_of_step hs with
    | registered _ => cases hbound
    | failed _ _ | closed _ _ | shutDown _ _ => rfl
  | lost _ _ => rfl
  | closeFaulted _ => rfl
  | _ => cases hbound

/-- **How a bound call can fail**: its session was not built, its worker has faulted, or the worker
has answered so. -/
theorem cases_of_bound_done {err : ToolError} (h : stage.step r standard c = .done r' (.error err))
    (hbound : stage.isBound = true) (hseated : stage.Seated r) :
    (∃ reason, err = .sessionInitFailed reason) ∨ err = .workerFaulted ∨
      ∃ id seat ticket limit s, stage = await id seat ticket limit ∧
        r.session? seat = some s ∧ s.worker.outcome? ticket = some (.ok (.error err)) := by
  generalize ha : (Except.error err : Result) = a at h
  cases steps_of_step h with
  | closed _ | terminated _ | created _ => cases ha
  | closeFailed hs =>
    cases Closing.steps_of_step hs with
    | unknown _ => cases hbound
  | terminateFailed hs =>
    cases Termination.steps_of_step hs with
    | unknown _ => cases hbound
  | createFailed hs =>
    cases ha
    cases Creation.steps_of_step hs with
    | full _ => cases hbound
    | vacant _ | removed _ => exact Or.inl ⟨_, rfl⟩
  | lostMeanwhile hs =>
    obtain ⟨s, hseat⟩ := hseated
    rw [hs] at hseat
    cases hseat
  | answered hs ho =>
    cases ha
    exact Or.inr (Or.inr ⟨_, _, _, _, _, rfl, hs, ho⟩)
  | faulted _ =>
    cases ha
    exact Or.inr (Or.inl rfl)
  | _ => cases hbound

end Steps
end CallStage

/-! ## 3. What the workers answer -/

open Worker.History

namespace Engine

/-- The workers do jobs for which there is a plan, and what these fail with is their own. -/
structure Answering (past : List (Engine Workspace × Event Workspace)) (e : Engine Workspace) :
    Prop where
  told : ∀ k, ToldAt k past e
  planned : ∀ k n job, (n, job) ∈ accepted (notes k past) → job.isPlanned = true
  own : ∀ k s err, e.registry.session? k = some s → Reply.value (.error err) ∈ s.worker.replies →
    err.isOwn = true

/-- A call brings a job for which there is a plan. -/
theorem isPlanned_of_partAt {e : Engine ρ} {k q : Nat} {info : ToolInfo} {arguments : Json}
    (h : e.partAt q = .enter info arguments k) : (Job.tool info arguments).isPlanned = true := by
  obtain ⟨c, id, ht, -⟩ := heads_of_partAt h
  simp only [partAt, ht, Task.part, CallStage.part] at h
  split at h
  · cases h
  · rename_i hplan
    simp only [Bool.or_eq_true, not_or, Option.isNone_iff_eq_none] at hplan
    exact Option.isSome_iff_ne_none.mpr hplan.2

section Answers

variable {context : PlanContext} {past : List (Engine Workspace × Event Workspace)}
  {e e' : Engine Workspace} {event : Event Workspace}

/-- The job that a worker is at has been accepted. -/
theorem Answering.planned_of_running (ha : Answering past e) {k : Nat} {s : Session Workspace}
    (hs : e.registry.session? k = some s) {w : Workspace} {ticket : Nat} {job : Job}
    (hp : s.worker.phase = .running w ticket job) : job.isPlanned = true := by
  have horder := ((ha.told k).of_some hs).order
  exact ha.planned k ticket job (horder.accepted_of_running hp)

theorem Answering.step (ha : Answering past e) (hallow : Workspace.backend.Allows context e event)
    (h : e.step? event = some e') : Answering (past ++ [(e, event)]) e' where
  told k := (ha.told k).step h
  planned k n job hjob := by
    rcases accepted_concat k past e event with hsame | ⟨s, bounded, job', -, hsubmit, -, hmore⟩
    · rw [hsame] at hjob
      exact ha.planned k n job hjob
    · rw [hmore] at hjob
      rcases List.mem_append.mp hjob with hjob | hjob
      · exact ha.planned k n job hjob
      · cases List.mem_singleton.mp hjob
        obtain ⟨q, -, ⟨-, rfl⟩ | ⟨info, arguments, -, rfl, hp⟩⟩ := submit_of_step? hsubmit
        · rfl
        · exact isPlanned_of_partAt hp
  own k s' err hs' hvalue := by
    obtain ⟨s, hs, hvalue | ⟨w, ticket, job, d, now, hphase, hresult⟩⟩ :=
      value_of_step? hallow h hs' hvalue
    · exact ha.own k s err hs hvalue
    · exact Workspace.isOwn_of_carryOut (ha.planned_of_running hs hphase) hresult

/-- **Along every run on a disk**, the workers answer with errors of their own. -/
theorem answering_of_run? {settings : SessionSettings} {standard : Duration} {ids : Nat → String}
    {now : Nat} {events : List (Event Workspace)}
    (h : (start settings standard ids now).run? events = some e)
    (hd : OnDisk context ((start settings standard ids now).trace events)) :
    Answering ((start settings standard ids now).trace events) e := by
  let P : List (Engine Workspace × Event Workspace) → Engine Workspace → Prop := fun past e =>
    OnDisk context past → Answering past e
  have hbase : P [] (start settings standard ids now) := by
    intro _
    refine ⟨fun k => rfl, fun k n job hjob => ?_, fun k s err hs => ?_⟩
    · cases hjob
    · cases hs
  have hstep : ∀ past e event e', P past e → e.step? event = some e' →
      P (past ++ [(e, event)]) e' := by
    intro past e event e' hP hevent hd
    exact (hP fun x hx => hd x (List.mem_append_left _ hx)).step (hd (e, event) (by simp)) hevent
  exact run?_induction (P := P) hstep h hbase hd

end Answers

/-! ## 4. Calls that are bound -/

/-- The call at a place is bound, or it was and has not been rejected. -/
inductive Binds (q : Nat) (c : Call) (e : Engine ρ) : Prop where
  | bound {stage : CallStage} (ht : e.tasks[q]? = some (.call c stage))
      (hbound : stage.isBound = true) (hsuits : stage.Suits c)
      (hseated : stage.Seated e.registry)
  | finished {a : Answer} (ht : e.tasks[q]? = some (.finished a))
      (ha : ∀ err, a.error? = some err → ¬ c.RejectedBy err)

theorem seated_of_step? {e e' : Engine ρ} {event : Event ρ} (h : e.step? event = some e')
    {stage : CallStage} (hs : stage.Seated e.registry) : stage.Seated e'.registry := by
  cases stage with
  | await id seat ticket limit =>
    obtain ⟨s, hs⟩ := hs
    obtain ⟨s', hs', -⟩ := session_of_step? h hs
    exact ⟨s', hs'⟩
  | _ => trivial

section Binding

variable {q : Nat} {c : Call} {err : ToolError}

/-- A call that is given up waiting is not rejected, or goes on with its close. -/
theorem binds_of_expire? {e : Engine ρ} {stage : CallStage} {r : Registry ρ} {t' : Task}
    (ht : e.tasks[q]? = some (.call c stage))
    (h : (Task.call c stage).expire? e.registry = some (r, t')) :
    Binds q c (e.proceed q r t') := by
  have htask := tasks_proceed ht r t'
  cases Task.lapses_of_expire? h with
  | @await _ id seat ticket limit s hs =>
    refine .finished htask fun err herr => ?_
    cases herr
    exact Call.not_rejectedBy_of_code "timeout" rfl (by decide) (by decide)
  | @callClose _ id closing closing' hstage =>
    cases closing with
    | release seat release =>
      obtain ⟨release', -, rfl⟩ := Option.map_eq_some_iff.mp hstage
      exact .bound htask rfl trivial trivial
    | _ => cases hstage
  | closeFaulted hstage => exact .bound htask rfl trivial trivial

theorem binds_of_done {past : List (Engine Workspace × Event Workspace)} {e : Engine Workspace}
    (ha : Answering past e) {stage : CallStage} {r : Registry Workspace} {a : CallStage.Result}
    (ht : e.tasks[q]? = some (.call c stage)) (hbound : stage.isBound = true)
    (hsuits : stage.Suits c) (hseated : stage.Seated e.registry)
    (hdone : stage.step e.registry e.callTimeout c = .done r a) :
    Binds q c (e.proceed q r (.finished (.called a))) := by
  refine .finished (tasks_proceed ht _ _) fun err herr => ?_
  cases a with
  | ok out => cases herr
  | error err' =>
    cases herr
    rcases CallStage.cases_of_bound_done hdone hbound hseated with
      ⟨reason, rfl⟩ | rfl | ⟨id, seat, ticket, limit, s, rfl, hs, hout⟩
    · exact Call.not_rejectedBy_of_code "session_init_failed" rfl (by decide) (by decide)
    · exact Call.not_rejectedBy_of_code "bridge_faulted" rfl (by decide) (by decide)
    · exact Call.not_rejectedBy_of_isOwn hsuits
        (ha.own seat s err hs (Worker.mem_of_outcome? hout))

/-- **A bound call is not rejected any more**, whatever happens. -/
theorem Binds.step {past : List (Engine Workspace × Event Workspace)} {e e' : Engine Workspace}
    {event : Event Workspace} (hb : Binds q c e) (ha : Answering past e)
    (h : e.step? event = some e') : Binds q c e' := by
  cases hb with
  | @finished a ht hanswer => exact .finished (finished_of_step? h ht) hanswer
  | @bound stage ht hbound hsuits hseated =>
    obtain ⟨t', ht', ⟨hplace, -⟩ | ⟨-, rfl | ⟨_, _, hpatrol, -⟩⟩⟩ := task_of_step? h ht
    · cases takes_of_step? h hplace ht with
      | go hg =>
        rcases Progress.cases_of_goes hg with ⟨stage', hnext, rfl⟩ | ⟨a, hdone, rfl⟩
        · have hgoes := CallStage.goes_of_step hnext
          exact .bound (tasks_proceed ht _ _) (CallStage.isBound_next hgoes hbound)
            (hsuits.next hgoes) hgoes.seated
        · exact binds_of_done ha ht hbound hsuits hseated hdone
      | expire hg => exact binds_of_expire? ht hg
      | refuse hg =>
        obtain ⟨-, -, metadata, ⟨hcreate, -⟩ | ⟨c', hcreate, rfl⟩⟩ := Task.of_refuse? hg
        · cases hcreate
        · cases hcreate
          cases hbound
      | detour hg => cases hg
    · exact .bound ht' hbound hsuits (seated_of_step? h hseated)
    · cases hpatrol

theorem Binds.not_rejected {e : Engine ρ} (hb : Binds q c e) (hfail : e.failure? q = some err) :
    ¬ c.RejectedBy err := by
  cases hb with
  | bound ht _ _ _ =>
    simp only [failure?, ht] at hfail
    cases hfail
  | finished ht ha =>
    simp only [failure?, ht] at hfail
    exact ha err hfail

end Binding

/-! ## 5. Calls that have left nothing behind -/

/-- The call has left nothing behind so far. -/
inductive IsFree (c : Call) : Task → Prop where
  | call {stage : CallStage} (hfree : stage.isBound = false) (hsuits : stage.Suits c) :
      IsFree c (.call c stage)
  | finished (a : Answer) : IsFree c (.finished a)

theorem IsFree.isPatrol {c : Call} {t : Task} (h : IsFree c t) : t.isPatrol = false := by
  cases h <;> rfl

/-- **A step of such a call leaves nothing behind either, or binds it.** -/
theorem IsFree.step {e e' : Engine ρ} {event : Event ρ} {q : Nat} {c : Call} {t : Task}
    (ht : e.tasks[q]? = some t) (hfree : IsFree c t) (h : e.step? event = some e')
    (hplace : event.place? = some q) :
    (∃ t', e' = e.setTask q t' ∧ IsFree c t') ∨ Binds q c e' := by
  have htakes := takes_of_step? h hplace ht
  cases hfree with
  | finished a =>
    cases htakes with
    | go hg => cases hg
    | expire hg => cases hg
    | refuse hg => cases hg
    | detour hg => cases hg
  | @call stage hfree hsuits =>
    cases htakes with
    | go hg =>
      rcases Progress.cases_of_goes hg with ⟨stage', hnext, rfl⟩ | ⟨a, hdone, rfl⟩
      · have hgoes := CallStage.goes_of_step hnext
        cases hbound : stage'.isBound with
        | true =>
          exact Or.inr (.bound (tasks_proceed ht _ _) hbound (hsuits.next hgoes) hgoes.seated)
        | false =>
          rcases CallStage.registry_of_free_next hgoes hfree with rfl | hbound'
          · exact Or.inl ⟨_, rfl, .call hbound (hsuits.next hgoes)⟩
          · rw [hbound] at hbound'
            cases hbound'
      · rw [CallStage.registry_of_free_done hdone hfree]
        exact Or.inl ⟨_, rfl, .finished _⟩
    | expire hg => exact Or.inr (binds_of_expire? ht hg)
    | refuse hg =>
      obtain ⟨rfl, -, metadata, ⟨hcreate, -⟩ | ⟨c', hcreate, rfl⟩⟩ := Task.of_refuse? hg
      · cases hcreate
      · exact Or.inl ⟨_, rfl, .finished _⟩
    | detour hg => cases hg

section Erasing

variable {context : PlanContext} {q : Nat} {c : Call} {err : ToolError} {d d' : Disk}
  {past : List (Engine Workspace × Event Workspace)} {e e' : Engine Workspace}
  {events : List (Event Workspace)}

/-- The events of tasks do not touch the disk. -/
theorem disk_of_place {event : Event Workspace} (hplace : event.place? = some q)
    (h : Workspace.backend.Leads context e d d' event) : d' = d := by
  cases event with
  | work seat move => cases hplace
  | _ => exact h

/-- What leads the disk on does not look at the tasks. -/
theorem leads_setTask {event : Event Workspace} (t : Task)
    (h : Workspace.backend.Leads context e d d' event) :
    Workspace.backend.Leads context (e.setTask q t) d d' event := by
  cases event with
  | work seat move => cases move <;> exact h
  | _ => exact h

/-- The rest of a run, with the disk. -/
theorem exists_of_carries {event : Event Workspace} (h : e.run? (event :: events) = some e')
    (hd : Workspace.backend.Carries context d (e.trace (event :: events)) d') :
    ∃ e₁ d₁, e.step? event = some e₁ ∧ e₁.run? events = some e' ∧
      Workspace.backend.Leads context e d d₁ event ∧
      Workspace.backend.Carries context d₁ (e₁.trace events) d' := by
  simp only [run?] at h
  split at h
  · rename_i e₁ hstep
    simp only [trace, hstep] at hd
    obtain ⟨d₁, hlead, hrest⟩ := hd
    exact ⟨e₁, d₁, hstep, h, hlead, hrest⟩
  · cases h

theorem Binds.run (hb : Binds q c e) (ha : Answering past e) (h : e.run? events = some e')
    (hd : Workspace.backend.Carries context d (e.trace events) d') : Binds q c e' := by
  induction events generalizing past e d with
  | nil =>
    cases h
    exact hb
  | cons event rest ih =>
    obtain ⟨e₁, d₁, hstep, hrun, hlead, hrest⟩ := exists_of_carries h hd
    exact ih (hb.step ha hstep) (ha.step (Workspace.allows_of_leads hlead) hstep) hrun hrest

/-- **Without the steps of a call that is rejected in the end, a run comes to the same**: in the
registry, on the disk and for all other tasks. -/
theorem erased_of_isFree {t t₀ : Task} (ht : e.tasks[q]? = some t) (hfree : IsFree c t)
    (ht₀ : t₀.isPatrol = false) (ha : Answering past e) (h : e.run? events = some e')
    (hd : Workspace.backend.Carries context d (e.trace events) d')
    (hfail : e'.failure? q = some err) (hrejected : c.RejectedBy err) :
    (e.setTask q t₀).run? (others q events) = some (e'.setTask q t₀) ∧
      Workspace.backend.Carries context d ((e.setTask q t₀).trace (others q events)) d' := by
  induction events generalizing past e d t with
  | nil =>
    cases h
    exact ⟨rfl, hd⟩
  | cons event rest ih =>
    obtain ⟨e₁, d₁, hstep, hrun, hlead, hrest⟩ := exists_of_carries h hd
    have ha₁ := ha.step (Workspace.allows_of_leads hlead) hstep
    by_cases hplace : event.place? = some q
    · rw [others_cons_own hplace]
      rcases IsFree.step ht hfree hstep hplace with ⟨t₁, rfl, hfree₁⟩ | hbinds
      · have hlt := (List.getElem?_eq_some_iff.mp ht).1
        have ht₁ : (e.setTask q t₁).tasks[q]? = some t₁ := List.getElem?_set_self hlt
        have hgoal := ih ht₁ hfree₁ ha₁ hrun hrest
        rw [setTask_setTask, disk_of_place hplace hlead] at hgoal
        exact hgoal
      · exact absurd hrejected ((hbinds.run ha₁ hrun hrest).not_rejected hfail)
    · have hother : (e.setTask q t₀).step? event = some (e₁.setTask q t₀) := by
        rw [step?_setTask ht hfree.isPatrol ht₀ hplace, hstep, Option.map_some]
      have ht₁ : e₁.tasks[q]? = some t := by
        obtain ⟨t', ht', ⟨hown, -⟩ | ⟨-, rfl | ⟨stage, calledOff, rfl, -⟩⟩⟩ :=
          task_of_step? hstep ht
        · exact absurd hown hplace
        · exact ht'
        · cases hfree
      obtain ⟨hrun₁, hdisk₁⟩ := ih ht₁ hfree ha₁ hrun hrest
      rw [others_cons_other hplace]
      refine ⟨?_, carries_cons hother (leads_setTask t₀ hlead) hdisk₁⟩
      simp only [run?, hother]
      exact hrun₁

end Erasing

/-! ## 6. Rejected calls leave nothing behind -/

/-- **A call that came in has left nothing behind**: the events that followed would have come to the
same without its steps. -/
structure LeavesNothing (context : PlanContext) (c : Call) (e₀ : Engine Workspace) (d₀ : Disk)
    (events : List (Event Workspace)) (e : Engine Workspace) (d : Disk) : Prop where
  /-- If nobody had looked at the call, all other events would have been possible as well, with the
  same registry in the end and the same tasks beside the call.  The registry holds all sessions, the
  identifiers that are remembered, and the workers with their queues and their workspaces. -/
  run : e₀.run? (.arrive (.call c) :: others e₀.tasks.length events) =
    some (e.setTask e₀.tasks.length (.call c .arrive))
  /-- The files would have been the same. -/
  disk : Workspace.backend.Carries context d₀
    (e₀.trace (.arrive (.call c) :: others e₀.tasks.length events)) d
  /-- If nobody else did anything, nothing has changed at all. -/
  alone : (∀ event ∈ events, event.place? = some e₀.tasks.length) →
    e.registry = e₀.registry ∧ d = d₀

/-- **A rejected call leaves nothing behind.**  In every state that can be reached, whatever tool is
called with whatever arguments, and whatever others do in the meantime: if the call is answered with
an unknown tool or session, a condition that is not met, a lack of room, or, for a tool that needs
no session, with arguments that do not fit, then it is as if nobody had looked at it. -/
theorem leavesNothing_of_run? {context : PlanContext} {settings : SessionSettings}
    {standard : Duration} {ids : Nat → String} {now : Nat} {before events : List (Event Workspace)}
    {e₀ e : Engine Workspace} {d₀ d : Disk} {c : Call} {err : ToolError}
    (h₀ : (start settings standard ids now).run? before = some e₀)
    (hd₀ : OnDisk context ((start settings standard ids now).trace before))
    (h : e₀.run? (.arrive (.call c) :: events) = some e)
    (hd : Workspace.backend.Carries context d₀ (e₀.trace (.arrive (.call c) :: events)) d)
    (hfail : e.failure? e₀.tasks.length = some err) (hrejected : c.RejectedBy err) :
    LeavesNothing context c e₀ d₀ events e d := by
  obtain ⟨e₁, d₁, hstep, hrun, hlead, hrest⟩ := exists_of_carries h hd
  have hsame : d₁ = d₀ := hlead
  rw [hsame] at hrest hlead
  have hans := (answering_of_run? h₀ hd₀).step (Workspace.allows_of_leads hlead) hstep
  have htask : e₁.tasks[e₀.tasks.length]? = some (.call c .arrive) := by
    cases hstep
    exact List.getElem?_concat_length
  have hpatrol : (Task.call c .arrive).isPatrol = false := rfl
  obtain ⟨hothers, hdisk⟩ :=
    erased_of_isFree htask (.call rfl trivial) hpatrol hans hrun hrest hfail hrejected
  rw [setTask_self htask] at hothers hdisk
  have hall : e₀.run? (.arrive (.call c) :: others e₀.tasks.length events) =
      some (e.setTask e₀.tasks.length (.call c .arrive)) := by
    simp only [run?, hstep]
    exact hothers
  refine ⟨hall, carries_cons hstep hlead hdisk, fun halone => ?_⟩
  have hnone : others e₀.tasks.length events = [] := by
    refine List.filter_eq_nil_iff.mpr fun event hevent => ?_
    simp only [halone event hevent, bne_self_eq_false, Bool.false_eq_true, not_false_eq_true]
  rw [hnone] at hothers hdisk
  cases hstep
  have hregistry := congrArg Engine.registry (Option.some.inj hothers)
  exact ⟨hregistry.symm, hdisk⟩

/-- A project is to be saved before it is open: the call that opens it overtakes the one that saves
it. -/
def savedTooSoon : List (Event Workspace) :=
  [.go 1, .arrive (.call ⟨"open_project", plantArguments⟩), .go 2, .go 1, .go 2, .go 2, .go 1,
    .go 2, .work 0 .start,
    .work 0 (.finish plantWorkspace (.ok (plantToldAs "Opened project"))), .go 2]

theorem leavesNothing_savedTooSoon : ∃ (e : Engine Workspace) (d : Disk) (err : ToolError),
    let context : PlanContext := ⟨⟨["exports"]⟩, none⟩
    let c : Call := ⟨"save_project", plantArguments⟩
    (start (.ofConfig SessionConfig.standard) (.ofSeconds 60) (fun _ => "first") 0).run?
      sessionStarted = some sessionReady ∧
    sessionReady.run? (.arrive (.call c) :: savedTooSoon) = some e ∧
    e.failure? sessionReady.tasks.length = some err ∧ c.RejectedBy err ∧
    LeavesNothing context c sessionReady plantDisk savedTooSoon e d := by
  have hbefore : OnDisk (⟨⟨["exports"]⟩, none⟩ : PlanContext)
      ((start (.ofConfig SessionConfig.standard) (.ofSeconds 60) (fun _ => "first") 0).trace
        sessionStarted) :=
    onDisk_of_carries (d := plantDisk) (carries_cons rfl rfl (carries_cons rfl rfl
      (carries_cons rfl rfl (carries_cons rfl rfl rfl))))
  have hd : Workspace.backend.Carries ⟨⟨["exports"]⟩, none⟩ plantDisk
      (sessionReady.trace
        (.arrive (.call ⟨"save_project", plantArguments⟩) :: savedTooSoon)) plantDisk :=
    carries_cons rfl rfl (carries_cons rfl rfl (carries_cons rfl rfl (carries_cons rfl rfl
    (carries_cons rfl rfl (carries_cons rfl rfl (carries_cons rfl rfl (carries_cons rfl rfl
    (carries_cons rfl rfl (carries_cons rfl rfl (carries_cons rfl ⟨_, _, _, _, .ofNanos 0, rfl, rfl,
    rfl⟩ (carries_cons rfl rfl rfl)))))))))))
  have hrejected : (⟨"save_project", plantArguments⟩ : Call).RejectedBy
      (.preconditionNotMet "save_project requires an open project, but session first has none") :=
    Or.inl (by decide)
  exact ⟨_, _, _, rfl, rfl, rfl, hrejected, leavesNothing_of_run? rfl hbefore rfl hd rfl hrejected⟩

end Engine
end Workbench
