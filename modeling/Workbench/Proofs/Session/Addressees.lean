import Workbench.Proofs.Session.Attachment
import Workbench.Proofs.Session.Calls
import Workbench.Proofs.Tool.Addresses

/-!
# Whose work a worker does

A call reads from its raw arguments for which session it is and how long it waits, and the tool is
carried out later, on the worker of that session, from the request that the arguments decode to.

* `CallStage.Minds`: a call keeps to what it has read, from one stage to the next (`minds_of_goes`);
* `Engine.Addressed`: **every job at a seat names the session there**, be it waiting, running or
  done; kept by every event (`Addressed.step`);
* `Engine.ServesAsDecoded` is what follows for the requests: no worker ever works for another
  session, and no caller waits for another time, than the decoded request names.
-/

namespace Workbench

variable {ρ : Type}

/-! ## 1. What a call keeps to -/

namespace CallStage

/-- The session that a call is for, once it has looked. -/
def sessionId? : CallStage → Option String
  | close id _ | terminate id _ | check _ id _ | enter _ id _ | await id _ _ _
  | closeFaulted id _ => some id
  | _ => none

/-- How long a call waits for its job. -/
def patience? : CallStage → Option Duration
  | await _ _ _ limit => some limit
  | _ => none

/-- **A call keeps to what it has read from its arguments.** -/
structure Minds (standard : Duration) (c : Call) (stage : CallStage) : Prop where
  session : ∀ id, stage.sessionId? = some id → Call.sessionId c.arguments = .ok id
  time : ∀ limit, stage.patience? = some limit → limit = Call.timeout standard c.arguments

theorem Minds.arrive (standard : Duration) (c : Call) : Minds standard c arrive :=
  ⟨nofun, nofun⟩

/-- At a stage without a wait for a job it is the session that counts. -/
theorem Minds.of_session {standard : Duration} {c : Call} {stage : CallStage} {id : String}
    (hstage : stage.sessionId? = some id) (hwait : stage.patience? = none)
    (hid : Call.sessionId c.arguments = .ok id) : Minds standard c stage where
  session id' h := by
    rw [hstage] at h
    cases h
    exact hid
  time limit h := by
    rw [hwait] at h
    cases h

theorem minds_of_goes {r r' : Registry ρ} {standard : Duration} {c : Call}
    {stage stage' : CallStage} (h : stage.Minds standard c)
    (hg : Goes r standard c stage r' stage') :
    stage'.Minds standard c := by
  cases hg with
  | closing hf hn hid => exact .of_session rfl rfl hid
  | terminating hf hn hid => exact .of_session rfl rfl hid
  | resolving hf hn => exact ⟨nofun, nofun⟩
  | creating hf hn hm => exact ⟨nofun, nofun⟩
  | close hs => exact .of_session rfl rfl (h.session _ rfl)
  | terminate hs => exact .of_session rfl rfl (h.session _ rfl)
  | create hs => exact ⟨nofun, nofun⟩
  | found hid hl => exact .of_session rfl rfl hid
  | suits hs => exact .of_session rfl rfl (h.session _ rfl)
  | queued hs hn hp hw =>
    exact ⟨fun id hid => h.session id hid, fun limit hlimit => (Option.some.inj hlimit).symm⟩
  | refused hs hw => exact .of_session rfl rfl (h.session _ rfl)
  | lost hs ho => exact .of_session rfl rfl (h.session _ rfl)
  | closeFaulted hs => exact .of_session rfl rfl (h.session _ rfl)

end CallStage

namespace Engine

open Worker.History

theorem callTimeout_callOff (e : Engine ρ) : e.callOff.callTimeout = e.callTimeout := by
  unfold callOff
  split
  · rfl
  · split <;> rfl

/-- The standard time stays as it is. -/
theorem callTimeout_of_step? {e e' : Engine ρ} {event : Event ρ} (h : e.step? event = some e') :
    e'.callTimeout = e.callTimeout := by
  cases steps_of_step? h with
  | callOff ht => exact callTimeout_callOff e
  | _ => rfl

/-- Every call keeps to what it has read. -/
def Minding (e : Engine ρ) : Prop :=
  ∀ (q : Nat) (c : Call) (stage : CallStage), e.tasks[q]? = some (.call c stage) →
    stage.Minds e.callTimeout c

theorem Minding.step {e e' : Engine ρ} {event : Event ρ} (hm : Minding e)
    (h : e.step? event = some e') : Minding e' := by
  intro q c stage' ht'
  rw [callTimeout_of_step? h]
  cases ht : e.tasks[q]? with
  | none =>
    rcases fresh_of_step? h ht ht' with ⟨request, hr⟩ | hr | hr
    · cases request with
      | call c' =>
        cases hr
        exact .arrive _ _
      | _ => cases hr
    · cases hr
    · cases hr
  | some t =>
    obtain ⟨stage, rfl⟩ := call_of_step? h ht ht'
    have hstage : stage.Minds e.callTimeout c := hm q c stage ht
    obtain ⟨t₁, ht₁, ⟨hplace, -⟩ | ⟨-, rfl | ⟨_, _, hcall, -⟩⟩⟩ := task_of_step? h ht
    · cases takes_of_step? h hplace ht with
      | @go _ t₂ r hg =>
        rw [tasks_proceed ht r t₂] at ht'
        cases ht'
        rcases Progress.cases_of_goes hg with ⟨stage₁, hs, heq⟩ | ⟨a, -, heq⟩
        · cases heq
          exact CallStage.minds_of_goes hstage (CallStage.goes_of_step hs)
        · cases heq
      | @expire _ t₂ r hg =>
        rw [tasks_proceed ht r t₂] at ht'
        cases ht'
        cases Task.lapses_of_expire? hg with
        | callClose hs => exact .of_session rfl rfl (hstage.session _ rfl)
        | closeFaulted hs => exact .of_session rfl rfl (hstage.session _ rfl)
      | @refuse _ t₂ r reason hg =>
        rw [tasks_proceed ht r t₂] at ht'
        cases ht'
        obtain ⟨-, -, metadata, ⟨-, heq⟩ | ⟨c', -, heq⟩⟩ := Task.of_refuse? hg <;> cases heq
      | detour hg => cases hg
    · rw [ht'] at ht₁
      cases ht₁
      exact hstage
    · cases hcall

/-! ## 2. Whose jobs are at a seat -/

/-- **Every job of a tool at a seat names the session there.** -/
def Addressed (past : List (Engine ρ × Event ρ)) (e : Engine ρ) : Prop :=
  ∀ k n info arguments, (n, .tool info arguments) ∈ accepted (notes k past) →
    ∃ s, e.registry.session? k = some s ∧ Call.sessionId arguments = .ok s.id

theorem Addressed.step {past : List (Engine ρ × Event ρ)} {e e' : Engine ρ} {event : Event ρ}
    (ha : Addressed past e) (hattentive : Attentive past e) (h : e.step? event = some e') :
    Addressed (past ++ [(e, event)]) e' := by
  intro k n info arguments hn
  have hnames : ∃ s, e.registry.session? k = some s ∧ Call.sessionId arguments = .ok s.id := by
    rcases accepted_concat k past e event with hkept | ⟨s, bounded, job, hs, hc, -, hadd⟩
    · exact ha k n info arguments (hkept ▸ hn)
    · rw [hadd, List.mem_append, List.mem_singleton] at hn
      rcases hn with hn | hn
      · exact ha k n info arguments hn
      · cases hn
        obtain ⟨q, rfl, ⟨-, hjob⟩ | ⟨info', arguments', -, hjob, hpart⟩⟩ := submit_of_step? hc
        · cases hjob
        · cases hjob
          obtain ⟨c, id, ht, rfl⟩ := heads_of_partAt hpart
          -- the call that brings the job has found its session at this seat
          rcases hattentive.now q c _ ht with ⟨stage, htask, hknows⟩ | ⟨a, htask, -⟩
          · rw [ht] at htask
            cases htask
            obtain ⟨hid, s', hs', rfl⟩ := hknows.2
            exact ⟨s', hs', hid⟩
          · rw [ht] at htask
            cases htask
  obtain ⟨s, hs, hid⟩ := hnames
  obtain ⟨s', hs', halt⟩ := session_of_step? h hs
  exact ⟨s', hs', halt.id ▸ hid⟩

/-- **Workers and callers keep to the decoded requests**, after a run that has left a trace. -/
structure ServesAsDecoded (past : List (Engine ρ × Event ρ)) (e : Engine ρ) : Prop where
  /-- A job that was accepted at a seat is for the session there. -/
  accepted : ∀ k n info arguments a, (n, .tool info arguments) ∈ accepted (notes k past) →
    Tool.address? info.name arguments = some (.ok a) →
    ∃ s, e.registry.session? k = some s ∧ s.id = a.sessionId
  /-- So is the job that a worker has in hand. -/
  running : ∀ k s w n info arguments a, e.registry.session? k = some s →
    s.worker.phase = .running w n (.tool info arguments) →
    Tool.address? info.name arguments = some (.ok a) → s.id = a.sessionId
  /-- A call is for the session that its request names, at every stage. -/
  called : ∀ (q : Nat) (c : Call) (stage : CallStage) (id : String) (a : Address),
    e.tasks[q]? = some (.call c stage) → stage.sessionId? = some id →
    Tool.address? c.tool c.arguments = some (.ok a) → id = a.sessionId
  /-- Who waits for a job has brought it to that session, and waits as long as the request says. -/
  awaited : ∀ (q : Nat) (c : Call) (id : String) (k n : Nat) (limit : Duration) (a : Address),
    e.tasks[q]? = some (.call c (.await id k n limit)) →
    Tool.address? c.tool c.arguments = some (.ok a) →
    limit = a.limit e.callTimeout ∧
      (∃ s, e.registry.session? k = some s ∧ s.id = a.sessionId) ∧
      ∃ info, Tool.find? c.tool = some info ∧
        (n, .tool info c.arguments) ∈ Worker.History.accepted (notes k past)

section Serving

variable {past : List (Engine ρ × Event ρ)} {e : Engine ρ}

theorem servesAsDecoded (hm : Minding e) (ha : Addressed past e) (hattentive : Attentive past e)
    (ht : ∀ k, ToldAt k past e) : ServesAsDecoded past e := by
  have haccepted : ∀ k n info arguments a, (n, .tool info arguments) ∈ accepted (notes k past) →
      Tool.address? info.name arguments = some (.ok a) →
      ∃ s, e.registry.session? k = some s ∧ s.id = a.sessionId := by
    intro k n info arguments a hn haddress
    obtain ⟨s, hs, hid⟩ := ha k n info arguments hn
    exact ⟨s, hs, (reads_of_sessionId hid haddress).1.symm⟩
  refine ⟨haccepted, fun k s w n info arguments a hs hphase haddress => ?_,
    fun q c stage id a htask hid haddress => ?_,
    fun q c id k n limit a htask haddress => ?_⟩
  · have horder := ((ht k).of_some hs).order
    obtain ⟨s', hs', hid⟩ :=
      haccepted k n info arguments a (horder.accepted_of_running hphase) haddress
    rw [hs] at hs'
    cases hs'
    exact hid
  · have hread := (hm q c stage htask).session id hid
    exact (reads_of_sessionId hread haddress).1.symm
  · have hminds := hm q c _ htask
    obtain ⟨hsession, htime⟩ := reads_of_sessionId (hminds.session id rfl) haddress
    rcases hattentive.now q c _ htask with ⟨stage, hthere, hknows⟩ | ⟨_, hthere, -⟩
    · rw [htask] at hthere
      cases hthere
      obtain ⟨⟨-, s, hs, hsid⟩, info, hfind, hn⟩ := hknows
      exact ⟨(hminds.time limit rfl).trans (htime _), ⟨s, hs, hsid.trans hsession.symm⟩,
        info, hfind, hn⟩
    · rw [htask] at hthere
      cases hthere

end Serving

/-! ## 3. Along a run -/

/-- **Everybody keeps to the requests as they are decoded.** -/
structure KeepsToRequests (past : List (Engine ρ × Event ρ)) (e : Engine ρ) : Prop where
  /-- What a tool that works in a session reads from its raw arguments is what the request names. -/
  reads : ∀ info ∈ Tool.all, info.precondition ≠ .none → ∀ members,
    ∃ read, Tool.address? info.name (.obj members) = some read ∧
      Json.ReadsAlike (.obj members) read
  /-- Arguments that are no request of a tool are an error of the caller, and touch neither the
  resource nor what it shares with others. -/
  refuses : ∀ (info : ToolInfo) (planner : Planner) (arguments : Json),
    Tool.planner? info.name = some planner →
    ∃ read, Tool.address? info.name arguments = some read ∧ ∀ m, read = .error m →
      (ToolError.ofMismatch m).code = "invalid_params" ∧
      ∀ (σ : Type) (b : Backend ρ σ) (context : PlanContext) (seat : Nat) (resource : ρ)
        (surroundings : σ) (now : Timestamp),
        b.run context seat (.tool info arguments) resource surroundings now =
          (surroundings, some (.value resource (.error (.ofMismatch m))))
  /-- Workers and callers keep to what the requests name. -/
  serves : ServesAsDecoded past e

theorem Minding.start (settings : SessionSettings) (standard : Duration) (ids : Nat → String)
    (now : Nat) : Minding (start settings standard ids now : Engine ρ) := by
  intro q c stage ht
  cases ht

/-- **Along every run, everybody keeps to the requests as they are decoded.** -/
theorem keepsToRequests_of_run? {settings : SessionSettings} {standard : Duration}
    {ids : Nat → String} {now : Nat} {e : Engine ρ} {events : List (Event ρ)}
    (hids : Function.Injective ids)
    (h : (start settings standard ids now).run? events = some e) :
    KeepsToRequests ((start settings standard ids now).trace events) e := by
  refine ⟨fun info hinfo hscoped members => ?_, fun info planner arguments hp => ?_, ?_⟩
  · have hsome := Tool.isSome_address? info hinfo (.obj members)
    rw [bne_iff_ne.mpr hscoped] at hsome
    obtain ⟨read, hread⟩ := Option.isSome_iff_exists.mp hsome
    exact ⟨read, hread, readsAlike_of_address? hread⟩
  · obtain ⟨read, hread⟩ := Tool.exists_address? hp arguments
    refine ⟨read, hread, ?_⟩
    rintro m rfl
    exact ⟨rfl, fun σ b context seat resource surroundings now =>
      run_of_mismatch hp hread b context seat resource surroundings now⟩
  · let P : List (Engine ρ × Event ρ) → Engine ρ → Prop := fun past e =>
      (∀ k, ToldAt k past e) ∧ Orderly e ∧ Attentive past e ∧ Minding e ∧ Addressed past e
    have hnothing : (start settings standard ids now : Engine ρ).run? [] =
        some (start settings standard ids now) := rfl
    have hstart : P [] (start settings standard ids now) := by
      refine ⟨toldAt_of_run? hnothing, Orderly.start settings standard now hids,
        attentive_of_run? hids hnothing, Minding.start _ _ _ _, ?_⟩
      intro k n info arguments hn
      cases hn
    have hstep : ∀ past e event e', P past e → e.step? event = some e' →
        P (past ++ [(e, event)]) e' := by
      rintro past e event e' ⟨htold, horderly, hattentive, hminding, haddressed⟩ hevent
      exact ⟨fun k => (htold k).step hevent, horderly.step hevent,
        hattentive.step htold horderly hevent, hminding.step hevent,
        haddressed.step hattentive hevent⟩
    obtain ⟨htold, -, hattentive, hminding, haddressed⟩ :=
      run?_induction (P := P) hstep h hstart
    exact servesAsDecoded hminding haddressed hattentive htold

/-- Arguments under other names, with a deadline beyond the limit. -/
def hurriedArguments : Json := .object [("sessionId", .str (strokes 0)), ("path", .str "plant"),
  ("timeout_secs", .nat 900)]

/-- A call brings its job to the worker of its session and waits. -/
def openedInHurry : List (Event Nat) :=
  [.arrive (.create []), .go 0, .work 0 (.built 7), .go 0,
    .arrive (.call ⟨"open_project", hurriedArguments⟩), .go 1, .go 1, .go 1, .go 1, .work 0 .start]

theorem keepsToRequests_openedInHurry : ∃ e : Engine Nat,
    let e₀ := start (.ofConfig SessionConfig.standard) (.ofSeconds 60) strokes 0
    Function.Injective strokes ∧ e₀.run? openedInHurry = some e ∧
    KeepsToRequests (e₀.trace openedInHurry) e ∧
    Tool.address? "open_project" hurriedArguments = some (.ok ⟨strokes 0, some 900⟩) ∧
    e.tasks[1]? = some (.call ⟨"open_project", hurriedArguments⟩
      (.await (strokes 0) 0 0 (.ofSeconds 600))) :=
  ⟨_, strokes_injective, rfl, keepsToRequests_of_run? strokes_injective rfl, rfl, rfl⟩

end Engine
end Workbench
