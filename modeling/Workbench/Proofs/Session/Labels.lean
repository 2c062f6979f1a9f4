import Mathlib.Data.List.Induction
import Workbench.Proofs.Session.Attachment
import Workbench.Proofs.Session.Calls

/-!
# The label of a session

A session shows the label of the project that is attached to it.  While the session is open, the
label is there exactly if a project is attached.  A close changes the state and nothing else, so a
session that is closed with a project keeps the label of that project, although no project is
attached to it any more.

* `LifeStep` are the steps of a session's life, in whatever order they come (`Session.liveAll`);
* `Session.Displays` says what a snapshot shows after such a life; it holds after every life
  (`Session.displays_of_liveAll`);
* `Engine.TellsLabels` says that for every snapshot that leaves the engine: the engine does nothing
  to a session that is not such a step (`Session.Lives.alter`).
-/

namespace Workbench

variable {ρ : Type}

/-! ## 1. The steps of a session's life -/

/-- A step of a session's life. -/
inductive LifeStep where
  | touch
  | attach (label : String)
  | detach
  | markSuspect
  | beginClose
  /-- A close that looks at the idle time first. -/
  | beginCloseIf (evict : Duration → Bool)

/-- A session in this state bears the label: there is a label if and only if a project is
attached. -/
def SessionState.Bears (state : SessionState) (label : Option String) : Prop :=
  label.isSome = true ↔ state = .resourceAttached

namespace Session

/-- Closes the session if its idle time is found to call for that; whether it did. -/
def beginCloseIf (s : Session ρ) (now : Nat) (evict : Duration → Bool) : Session ρ × Bool :=
  if s.isClosed || !evict (s.idle now) then (s, false) else ({ s with state := .closed }, true)

/-- What a sweep thinks of an idle time of the session. -/
def evicts (s : Session ρ) (idleTimeout idle : Duration) : Bool :=
  s.worker.isFaulted ||
    (s.worker.isIdle &&
      (s.suspect || (!idleTimeout.isZero && idleTimeout.nanos ≤ idle.nanos)))

/-- What it thinks of it in its last look at the worker, if it takes that apart. -/
def evictsAtLast (s : Session ρ) (idleTimeout idle : Duration) : Bool :=
  !s.worker.busy && (s.suspect || (!idleTimeout.isZero && idleTimeout.nanos ≤ idle.nanos))

/-- **A sweep closes a session by looking at its idle time**, and in no other way. -/
theorem step_judge {r : Registry ρ} {seat : Nat} {s : Session ρ} (rest : List Nat)
    (closed : List String) (hs : r.session? seat = some s) :
    (Sweep.judge (seat :: rest) closed).step r =
      if (s.beginCloseIf r.now (s.evicts r.settings.idleTimeout)).2 then
        .next (r.put seat (s.beginCloseIf r.now (s.evicts r.settings.idleTimeout)).1)
          (.release seat .queue rest closed)
      else .next r (.judge rest closed) := by
  have hdue : s.isDue r.settings.idleTimeout r.now =
    s.evicts r.settings.idleTimeout (s.idle r.now) := rfl
  by_cases hc : s.isClosed = true
  · simp [Sweep.step, hs, beginCloseIf, hc]
  · by_cases he : s.evicts r.settings.idleTimeout (s.idle r.now) = true
    · simp [Sweep.step, hs, hdue, beginCloseIf, beginClose, hc, he]
    · simp [Sweep.step, hs, hdue, beginCloseIf, hc, he]

theorem step_weigh {r : Registry ρ} {seat : Nat} {s : Session ρ} (rest : List Nat)
    (closed : List String) (hs : r.session? seat = some s) :
    (Sweep.weigh seat rest closed).step r =
      if (s.beginCloseIf r.now (s.evictsAtLast r.settings.idleTimeout)).2 then
        .next (r.put seat (s.beginCloseIf r.now (s.evictsAtLast r.settings.idleTimeout)).1)
          (.release seat .queue rest closed)
      else .next r (.judge rest closed) := by
  have hdue : (!s.worker.busy && s.isStale r.settings.idleTimeout r.now) =
    s.evictsAtLast r.settings.idleTimeout (s.idle r.now) := rfl
  by_cases hc : s.isClosed = true
  · simp [Sweep.step, hs, beginCloseIf, hc]
  · by_cases he : s.evictsAtLast r.settings.idleTimeout (s.idle r.now) = true
    · simp [Sweep.step, hs, hdue, beginCloseIf, beginClose, hc, he]
    · simp [Sweep.step, hs, hdue, beginCloseIf, hc, he]

/-- The session after a step of its life. -/
def live (s : Session ρ) (now : Nat) : LifeStep → Session ρ
  | .touch => s.touch now
  | .attach label => s.attach label
  | .detach => s.detach
  | .markSuspect => s.markSuspect
  | .beginClose => s.beginClose.1
  | .beginCloseIf evict => (s.beginCloseIf now evict).1

/-- The session after steps of its life, each with its moment. -/
def liveAll (s : Session ρ) (steps : List (Nat × LifeStep)) : Session ρ :=
  steps.foldl (fun s x => s.live x.1 x.2) s

@[simp] theorem liveAll_concat (s : Session ρ) (steps : List (Nat × LifeStep))
    (x : Nat × LifeStep) : s.liveAll (steps ++ [x]) = (s.liveAll steps).live x.1 x.2 := by
  simp [liveAll]

/-- **What a step of its life does to a session**: it leaves it open, with a label if and only if a
project is attached; or it leaves the label alone. -/
theorem live_cases (s : Session ρ) (now : Nat) (x : LifeStep) :
    ((s.live now x).isClosed = s.isClosed ∧ (s.live now x).state.Bears (s.live now x).attached) ∨
      ((s.live now x).attached = s.attached ∧
        ((s.live now x).state = s.state ∨ (s.live now x).state = .closed)) := by
  cases x with
  | touch => exact Or.inr ⟨rfl, Or.inl rfl⟩
  | markSuspect => exact Or.inr ⟨rfl, Or.inl rfl⟩
  | attach label =>
    by_cases hc : s.isClosed = true
    · exact Or.inr (by simp [live, attach, hc])
    · refine Or.inl ⟨isClosed_attach s label, ?_⟩
      simp [live, attach, hc, SessionState.Bears]
  | detach =>
    by_cases hc : s.isClosed = true
    · exact Or.inr (by simp [live, detach, hc])
    · refine Or.inl ⟨isClosed_detach s, ?_⟩
      simp [live, detach, hc, SessionState.Bears]
  | beginClose =>
    refine Or.inr ?_
    simp only [live, beginClose]
    split
    · exact ⟨rfl, Or.inl rfl⟩
    · exact ⟨rfl, Or.inr rfl⟩
  | beginCloseIf evict =>
    refine Or.inr ?_
    simp only [live, beginCloseIf]
    split
    · exact ⟨rfl, Or.inl rfl⟩
    · exact ⟨rfl, Or.inr rfl⟩

/-- A closed session stays as it is, but for its times and its being suspect. -/
theorem live_of_closed {s : Session ρ} (hc : s.isClosed = true) (now : Nat) (x : LifeStep) :
    (s.live now x).state = s.state ∧ (s.live now x).attached = s.attached := by
  cases x <;> simp [live, touch, attach, detach, markSuspect, beginClose, beginCloseIf, hc]

/-! ## 2. What a session shows after a life -/

/-- What a snapshot shows of a session after the steps of its life. -/
structure Displays (s₀ : Session ρ) (steps : List (Nat × LifeStep)) (i : SessionInfo) : Prop where
  state : i.state = (s₀.liveAll steps).state
  label : i.attached = (s₀.liveAll steps).attached
  /-- **As long as it is open, there is a label if and only if a project is attached.** -/
  opened : i.state ≠ .closed → i.state.Bears i.attached
  /-- A closed session shows the label that it had when it was closed, which tells whether a project
  was attached then. -/
  closed : i.state = .closed → ∃ before step after, steps = before ++ step :: after ∧
    (s₀.liveAll before).state ≠ .closed ∧ i.attached = (s₀.liveAll before).attached ∧
    (s₀.liveAll before).state.Bears i.attached

theorem isClosed_eq_true {s : Session ρ} : s.isClosed = true ↔ s.state = .closed := by
  simp [isClosed]

/-- A step more is seen in a snapshot. -/
theorem Displays.concat {s₀ : Session ρ} {steps : List (Nat × LifeStep)} {now now' : Nat}
    (h : s₀.Displays steps ((s₀.liveAll steps).info now)) (x : Nat × LifeStep) :
    s₀.Displays (steps ++ [x]) ((s₀.liveAll (steps ++ [x])).info now') := by
  generalize ht : s₀.liveAll steps = t at h
  have hlive : s₀.liveAll (steps ++ [x]) = t.live x.1 x.2 := by rw [liveAll_concat, ht]
  by_cases hc : t.isClosed = true
  case pos =>
    obtain ⟨hstate, hlabel⟩ := live_of_closed hc x.1 x.2
    have hclosed := isClosed_eq_true.mp hc
    refine ⟨rfl, rfl, fun hn => absurd (by rw [hlive]; exact hstate.trans hclosed) hn, fun _ => ?_⟩
    obtain ⟨before, step, after, rfl, hopen, hat, hbears⟩ := h.closed hclosed
    refine ⟨before, step, after ++ [x], by simp, hopen, ?_⟩
    rw [hlive, show ((t.live x.1 x.2).info now').attached = (t.info now).attached from hlabel]
    exact ⟨hat, hbears⟩
  case neg =>
    have hopen : t.state ≠ .closed := fun hs => hc (isClosed_eq_true.mpr hs)
    have hbears : t.state.Bears t.attached := h.opened hopen
    rw [hlive]
    refine ⟨by rw [hlive]; rfl, by rw [hlive]; rfl, fun hn => ?_, fun hcl => ?_⟩
    · rcases live_cases t x.1 x.2 with ⟨-, hb⟩ | ⟨hlabel, hstate | hstate⟩
      · exact hb
      · show (t.live x.1 x.2).state.Bears (t.live x.1 x.2).attached
        rw [hlabel, hstate]
        exact hbears
      · exact absurd hstate hn
    · rcases live_cases t x.1 x.2 with ⟨hsame, -⟩ | ⟨hlabel, -⟩
      · exact absurd (hsame ▸ isClosed_eq_true.mpr hcl) hc
      · refine ⟨steps, x, [], rfl, by rw [ht]; exact hopen, by rw [ht]; exact hlabel, ?_⟩
        rw [ht]
        show t.state.Bears (t.live x.1 x.2).attached
        rw [hlabel]
        exact hbears

/-- **After every life**, from the start of the session on. -/
theorem displays_of_liveAll (id : String) (metadata : List (String × Json)) (queueLimit born : Nat)
    (steps : List (Nat × LifeStep)) (now : Nat) :
    let s₀ : Session ρ := .create id metadata queueLimit born
    s₀.Displays steps ((s₀.liveAll steps).info now) := by
  intro s₀
  induction steps using List.reverseRecOn generalizing now with
  | nil => exact ⟨rfl, rfl, fun _ => by simp [SessionState.Bears, liveAll, s₀, create, info], nofun⟩
  | append_singleton steps x ih => exact (ih now).concat x

/-! ## 3. The lives that the engine gives to sessions -/

/-- Two sessions at the same point of their lives; their workers do not count. -/
def SameLife (s t : Session ρ) : Prop := t = { s with worker := t.worker, listed := t.listed }

theorem SameLife.refl (s : Session ρ) : s.SameLife s := rfl

theorem SameLife.trans {s t u : Session ρ} (h : s.SameLife t) (h' : t.SameLife u) :
    s.SameLife u := by
  unfold SameLife at *
  rw [h', h]

/-- A step does not look at the worker. -/
theorem SameLife.live {s t : Session ρ} (h : s.SameLife t) (now : Nat) (x : LifeStep) :
    (s.live now x).SameLife (t.live now x) := by
  have hclosed : t.isClosed = s.isClosed := by rw [show t = _ from h]; rfl
  have hidle : t.idle now = s.idle now := by rw [show t = _ from h]; rfl
  have hkept : ∀ {b : Bool} {s₁ t₁ : Session ρ}, s₁.SameLife t₁ →
      (if b then s else s₁).SameLife (if b then t else t₁) := by
    intro b s₁ t₁ h₁
    cases b
    · exact h₁
    · exact h
  cases x with
  | attach label =>
    simp only [Session.live, attach, hclosed]
    exact hkept (by rw [show t = _ from h]; rfl)
  | detach =>
    simp only [Session.live, detach, hclosed]
    exact hkept (by rw [show t = _ from h]; rfl)
  | beginClose =>
    simp only [Session.live, beginClose, hclosed, apply_ite Prod.fst]
    exact hkept (by rw [show t = _ from h]; rfl)
  | beginCloseIf evict =>
    simp only [Session.live, beginCloseIf, hclosed, hidle, apply_ite Prod.fst]
    exact hkept (by rw [show t = _ from h]; rfl)
  | _ =>
    rw [show t = _ from h]
    rfl

/-- The session has come where it is by steps of its life. -/
def Lives (s : Session ρ) : Prop :=
  ∃ id metadata queueLimit born steps,
    ((create id metadata queueLimit born : Session ρ).liveAll steps).SameLife s

theorem lives_create (id : String) (metadata : List (String × Json)) (queueLimit now : Nat) :
    (create id metadata queueLimit now : Session ρ).Lives :=
  ⟨id, metadata, queueLimit, now, [], SameLife.refl _⟩

theorem Lives.sameLife {s t : Session ρ} (h : s.Lives) (hst : s.SameLife t) : t.Lives := by
  obtain ⟨id, metadata, queueLimit, born, steps, hs⟩ := h
  exact ⟨id, metadata, queueLimit, born, steps, hs.trans hst⟩

theorem Lives.live {s : Session ρ} (h : s.Lives) (now : Nat) (x : LifeStep) :
    (s.live now x).Lives := by
  obtain ⟨id, metadata, queueLimit, born, steps, hs⟩ := h
  refine ⟨id, metadata, queueLimit, born, steps ++ [(now, x)], ?_⟩
  rw [liveAll_concat]
  exact hs.live now x

/-- What the end of a job means for a session are steps of its life. -/
theorem Lives.record {s : Session ρ} (h : s.Lives) (now : Nat) (job : Job) (answer : JobAnswer) :
    (s.record now job answer).Lives := by
  have htouched : (s.touch now).Lives := h.live now .touch
  unfold Session.record
  split
  · exact h
  · split
    · exact htouched
    · split
      · exact htouched
      · exact htouched.live now (.attach _)
      · exact htouched.live now .detach

theorem Lives.advance {s s' : Session ρ} {now : Nat} {move : Worker.Move ρ JobAnswer} (h : s.Lives)
    (hs : s.advance? now move = some s') : s'.Lives := by
  have hworker : ∀ w, ({ s with worker := w } : Session ρ).Lives := fun w => h.sameLife rfl
  rcases advance?_cases hs with ⟨r₀, r, ticket, job, answer, -, -, -, he⟩ | ⟨-, he⟩
  · rw [he]
    exact (hworker _).record now job answer
  · rw [he]
    exact hworker _

/-- **The engine does nothing to a session that is not a step of its life**, but to its worker. -/
theorem Lives.alter {s : Session ρ} (h : s.Lives) (k now : Nat) (c : Change ρ) :
    (c.alter k now s).Lives := by
  have hworker : ∀ w, ({ s with worker := w } : Session ρ).Lives := fun w => h.sameLife rfl
  unfold Change.alter
  split
  · split
    · exact h.sameLife rfl
    · exact h
  · split
    · cases c with
      | close seat => exact h.live now .beginClose
      | suspect seat => exact h.live now .markSuspect
      | submit seat bounded job => exact hworker _
      | shutdown seat => exact hworker _
      | awaitEnd seat => exact hworker _
      | work seat move =>
        simp only [Change.on]
        cases hm : s.advance? now move with
        | none => exact h
        | some s' => exact h.advance hm
      | _ => exact h
    · exact h

end Session

/-- A snapshot of a session that has come where it is by steps of its life. -/
def SessionInfo.Lifelike (ρ : Type) (i : SessionInfo) : Prop :=
  ∃ id metadata queueLimit born steps,
    (Session.create id metadata queueLimit born : Session ρ).Displays steps i

theorem Session.Lives.lifelike {s : Session ρ} (h : s.Lives) (now : Nat) :
    (s.info now).Lifelike ρ := by
  obtain ⟨id, metadata, queueLimit, born, steps, hs⟩ := h
  refine ⟨id, metadata, queueLimit, born, steps, ?_⟩
  rw [show s = _ from hs]
  obtain ⟨hstate, hlabel, hopened, hclosed⟩ :=
    Session.displays_of_liveAll (ρ := ρ) id metadata queueLimit born steps now
  exact ⟨hstate, hlabel, hopened, hclosed⟩

/-! ## 4. Which tool a call is for -/

theorem Tool.name_of_find? {name : String} {info : ToolInfo} (h : find? name = some info) :
    info.name = name := by
  simpa using List.find?_some h

namespace CallStage

/-- What the stage of a call tells of its tool. -/
def OfTool (c : Call) : CallStage → Prop
  | close _ _ => c.tool = "close_session"
  | terminate _ _ => c.tool = "terminate_session"
  | create _ => c.tool = "create_session"
  | resolve info | check info _ _ | enter info _ _ =>
    Tool.find? c.tool = some info ∧ info.precondition ≠ .none
  | await _ _ _ _ => ∃ info, Tool.find? c.tool = some info ∧ info.precondition ≠ .none ∧
      info.name ≠ "session_info"
  | arrive | closeFaulted _ _ => True

/-- A call keeps to its tool. -/
theorem OfTool.goes {r r' : Registry ρ} {standard : Duration} {c : Call} {stage stage' : CallStage}
    (h : stage.OfTool c) (hg : Goes r standard c stage r' stage') : stage'.OfTool c := by
  cases hg with
  | closing hf hn hid => exact (Tool.name_of_find? hf).symm.trans hn
  | terminating hf hn hid => exact (Tool.name_of_find? hf).symm.trans hn
  | creating hf hn hm => exact (Tool.name_of_find? hf).symm.trans hn
  | resolving hf hn => exact ⟨hf, hn⟩
  | queued hs hn hp hw => exact ⟨_, h.1, h.2, hn⟩
  | refused hs hw => trivial
  | lost hs ho => trivial
  | _ => exact h

/-- What a call tells of sessions, if it is a call that does. -/
structure TellsOfSessions (r : Registry ρ) (c : Call) (out : ToolOutput) : Prop where
  one : c.tool = "session_info" →
    ∃ k s, r.session? k = some s ∧ out = Call.infoOutput "Session" (s.info r.now)
  started : c.tool = "create_session" →
    ∃ k s, r.session? k = some s ∧ out = Call.infoOutput "Created session" (s.info r.now)
  all : c.tool = "list_sessions" → out = ⟨toString r.listed.length ++ " sessions", r.overview⟩

/-- A call of another tool tells nothing of sessions. -/
theorem TellsOfSessions.of_other {r : Registry ρ} {c : Call} {out : ToolOutput}
    (h : c.tool ∉ ["session_info", "create_session", "list_sessions"]) :
    TellsOfSessions r c out := by
  simp only [List.mem_cons, List.not_mem_nil, or_false, not_or] at h
  exact ⟨fun ht => absurd ht h.1, fun ht => absurd ht h.2.1, fun ht => absurd ht h.2.2⟩

/-- A tool that needs a session neither starts one nor lists them. -/
theorem tool_of_precondition {c : Call} {info : ToolInfo} (hf : Tool.find? c.tool = some info)
    (hp : info.precondition ≠ .none) :
    c.tool ≠ "create_session" ∧ c.tool ≠ "list_sessions" := by
  constructor <;> intro ht <;> rw [ht] at hf <;> cases hf <;> exact hp rfl

/-- A call of a tool of another name tells nothing of sessions. -/
theorem TellsOfSessions.of_name {r : Registry ρ} {c : Call} {info : ToolInfo} {out : ToolOutput}
    (hf : Tool.find? c.tool = some info)
    (h : info.name ∉ ["session_info", "create_session", "list_sessions"]) :
    TellsOfSessions r c out :=
  .of_other (Tool.name_of_find? hf ▸ h)

/-- What a start that ends well tells is the session. -/
theorem session_of_creation {r r' : Registry ρ} {stage : Creation} {i : SessionInfo}
    (h : stage.step r = .done r' (.ok i)) : ∃ k s, r.session? k = some s ∧ i = s.info r.now := by
  cases Creation.steps_of_step h with
  | ready hs _ => exact ⟨_, _, hs, rfl⟩

/-- **What a call tells of sessions is what the registry knows of them.** -/
theorem tellsOfSessions_of_done {r r' : Registry ρ} {standard : Duration} {c : Call}
    {stage : CallStage} {out : ToolOutput} (ht : stage.OfTool c)
    (h : stage.step r standard c = .done r' (.ok out)) : TellsOfSessions r c out := by
  generalize ha : (Except.ok out : Result) = a at h
  cases steps_of_step h with
  | listed hf hn =>
    cases ha
    have hc : c.tool = "list_sessions" := (Tool.name_of_find? hf).symm.trans hn
    exact ⟨by simp [hc], by simp [hc], fun _ => rfl⟩
  | catalog hf hn | help hf hn => exact .of_name hf (by rw [hn]; decide)
  | closed _ | terminated _ =>
    refine .of_other ?_
    rw [show c.tool = _ from ht]
    decide
  | created hs =>
    cases ha
    have hc : c.tool = "create_session" := ht
    obtain ⟨k, s, hseat, rfl⟩ := session_of_creation hs
    exact ⟨by simp [hc], fun _ => ⟨k, s, hseat, rfl⟩, by simp [hc]⟩
  | told hs _ =>
    cases ha
    obtain ⟨hcreate, hlist⟩ := tool_of_precondition ht.1 ht.2
    exact ⟨fun _ => ⟨_, _, hs, rfl⟩, fun hc => absurd hc hcreate, fun hc => absurd hc hlist⟩
  | answered _ _ =>
    obtain ⟨info, hf, hp, hn⟩ := ht
    obtain ⟨hcreate, hlist⟩ := tool_of_precondition hf hp
    rw [Tool.name_of_find? hf] at hn
    exact ⟨fun hc => absurd hc hn, fun hc => absurd hc hcreate, fun hc => absurd hc hlist⟩
  | _ => cases ha

end CallStage

namespace Engine

/-- Every call is at a stage for its tool. -/
def Tooled (e : Engine ρ) : Prop :=
  ∀ (q : Nat) (c : Call) (stage : CallStage), e.tasks[q]? = some (.call c stage) → stage.OfTool c

theorem Tooled.step {e e' : Engine ρ} {event : Event ρ} (hm : Tooled e)
    (h : e.step? event = some e') : Tooled e' := by
  intro q c stage' ht'
  cases ht : e.tasks[q]? with
  | none =>
    rcases fresh_of_step? h ht ht' with ⟨request, hr⟩ | hr | hr
    · cases request <;> cases hr
      trivial
    · cases hr
    · cases hr
  | some t =>
    obtain ⟨stage, rfl⟩ := call_of_step? h ht ht'
    have hstage : stage.OfTool c := hm q c stage ht
    obtain ⟨t₁, ht₁, ⟨hplace, -⟩ | ⟨-, rfl | ⟨_, _, hcall, -⟩⟩⟩ := task_of_step? h ht
    · cases takes_of_step? h hplace ht with
      | @go _ t₂ r hg =>
        rw [tasks_proceed ht r t₂] at ht'
        cases ht'
        rcases Progress.cases_of_goes hg with ⟨stage₁, hs, heq⟩ | ⟨a, -, heq⟩
        · cases heq
          exact hstage.goes (CallStage.goes_of_step hs)
        · cases heq
      | @expire _ t₂ r hg =>
        rw [tasks_proceed ht r t₂] at ht'
        cases ht'
        cases Task.lapses_of_expire? hg with
        | callClose hs => exact hstage
        | closeFaulted hs => trivial
      | @refuse _ t₂ r reason hg =>
        rw [tasks_proceed ht r t₂] at ht'
        cases ht'
        obtain ⟨-, -, metadata, ⟨-, heq⟩ | ⟨c', -, heq⟩⟩ := Task.of_refuse? hg <;> cases heq
      | detour hg => cases hg
    · rw [ht'] at ht₁
      cases ht₁
      exact hstage
    · cases hcall

/-! ## 5. What the engine tells -/

/-- A call answers well by a step of its own. -/
theorem done_of_called {e e' : Engine ρ} {event : Event ρ} {q : Nat} {c : Call} {stage : CallStage}
    {out : ToolOutput} (h : e.step? event = some e') (ht : e.tasks[q]? = some (.call c stage))
    (ha : e'.answer? q = some (.called (.ok out))) :
    ∃ r, stage.step e.registry e.callTimeout c = .done r (.ok out) := by
  obtain ⟨t₁, ht₁, ⟨hplace, -⟩ | ⟨-, rfl | ⟨_, _, hcall, -⟩⟩⟩ := task_of_step? h ht
  · cases takes_of_step? h hplace ht with
    | @go _ t₂ r hg =>
      rw [answer?, tasks_proceed ht r t₂] at ha
      rcases Progress.cases_of_goes hg with ⟨stage₁, hs, rfl⟩ | ⟨a, hs, rfl⟩
      · cases ha
      · cases ha
        exact ⟨r, hs⟩
    | @expire _ t₂ r hg =>
      rw [answer?, tasks_proceed ht r t₂] at ha
      cases Task.lapses_of_expire? hg <;> cases ha
    | @refuse _ t₂ r reason hg =>
      rw [answer?, tasks_proceed ht r t₂] at ha
      obtain ⟨-, -, metadata, ⟨-, rfl⟩ | ⟨c', -, rfl⟩⟩ := Task.of_refuse? hg <;> cases ha
    | detour hg => cases hg
  · rw [answer?, ht₁] at ha
    cases ha
  · cases hcall

/-- So does a start. -/
theorem done_of_created {e e' : Engine ρ} {event : Event ρ} {q : Nat} {stage : Creation}
    {i : SessionInfo} (h : e.step? event = some e') (ht : e.tasks[q]? = some (.create stage))
    (ha : e'.answer? q = some (.created (.ok i))) :
    ∃ r, stage.step e.registry = .done r (.ok i) := by
  obtain ⟨t₁, ht₁, ⟨hplace, -⟩ | ⟨-, rfl | ⟨_, _, hcall, -⟩⟩⟩ := task_of_step? h ht
  · cases takes_of_step? h hplace ht with
    | @go _ t₂ r hg =>
      rw [answer?, tasks_proceed ht r t₂] at ha
      rcases Progress.cases_of_goes hg with ⟨stage₁, hs, rfl⟩ | ⟨a, hs, rfl⟩
      · cases ha
      · cases ha
        exact ⟨r, hs⟩
    | @expire _ t₂ r hg => cases Task.lapses_of_expire? hg
    | @refuse _ t₂ r reason hg =>
      rw [answer?, tasks_proceed ht r t₂] at ha
      obtain ⟨-, -, metadata, ⟨-, rfl⟩ | ⟨c', -, rfl⟩⟩ := Task.of_refuse? hg <;> cases ha
    | detour hg => cases hg
  · rw [answer?, ht₁] at ha
    cases ha
  · cases hcall

/-- Every session has come where it is by steps of its life. -/
def Living (e : Engine ρ) : Prop := ∀ k s, e.registry.session? k = some s → s.Lives

theorem Living.step {e e' : Engine ρ} {event : Event ρ} (hl : Living e)
    (h : e.step? event = some e') : Living e' := by
  intro k s' hs'
  cases hs : e.registry.session? k with
  | none =>
    obtain ⟨metadata, -, -, rfl⟩ := born_of_step? h hs hs'
    exact Session.lives_create _ _ _ _
  | some s =>
    rw [registry_of_step? h, Registry.session?_after_of_some _ hs] at hs'
    cases hs'
    exact (hl k s hs).alter _ _ _

/-- What every snapshot shows that leaves the engine. -/
structure TellsLabels (e : Engine ρ) : Prop where
  /-- The listing of the sessions, at any moment. -/
  listed : ∀ i ∈ e.registry.infos, i.Lifelike ρ
  /-- The answer to a start. -/
  started : ∀ event e' q stage i, e.step? event = some e' → e.tasks[q]? = some (.create stage) →
    e'.answer? q = some (.created (.ok i)) → i.Lifelike ρ
  /-- The answers to calls. -/
  called : ∀ event e' q c stage out, e.step? event = some e' →
    e.tasks[q]? = some (.call c stage) → e'.answer? q = some (.called (.ok out)) →
    (c.tool = "session_info" → ∃ i, out = Call.infoOutput "Session" i ∧ i.Lifelike ρ) ∧
    (c.tool = "create_session" →
      ∃ i, out = Call.infoOutput "Created session" i ∧ i.Lifelike ρ) ∧
    (c.tool = "list_sessions" → out.data = e.registry.overview)

theorem TellsLabels.of_living {e : Engine ρ} (hl : Living e) (ht : Tooled e) : TellsLabels e where
  listed := by
    intro i hi
    obtain ⟨s, hs, rfl⟩ := List.mem_map.mp hi
    obtain ⟨k, hk⟩ := List.mem_iff_getElem?.mp (List.mem_filter.mp hs).1
    exact (hl k s hk).lifelike _
  started := by
    intro event e' q stage i hstep hq ha
    obtain ⟨r, hdone⟩ := done_of_created hstep hq ha
    obtain ⟨k, s, hs, rfl⟩ := CallStage.session_of_creation hdone
    exact (hl k s hs).lifelike _
  called := by
    intro event e' q c stage out hstep hq ha
    obtain ⟨r, hdone⟩ := done_of_called hstep hq ha
    have htells := CallStage.tellsOfSessions_of_done (ht q c stage hq) hdone
    refine ⟨fun hc => ?_, fun hc => ?_, fun hc => by rw [htells.all hc]⟩
    · obtain ⟨k, s, hs, rfl⟩ := htells.one hc
      exact ⟨_, rfl, (hl k s hs).lifelike _⟩
    · obtain ⟨k, s, hs, rfl⟩ := htells.started hc
      exact ⟨_, rfl, (hl k s hs).lifelike _⟩

/-- **What sessions show of their projects**, after every life and in every run. -/
theorem displays_and_tellsLabels :
    (∀ id metadata queueLimit born steps now,
      (Session.create id metadata queueLimit born : Session ρ).Displays steps
        (((Session.create id metadata queueLimit born : Session ρ).liveAll steps).info now)) ∧
    ∀ settings standard ids now events (e : Engine ρ),
      (start settings standard ids now).run? events = some e → TellsLabels e := by
  refine ⟨Session.displays_of_liveAll, fun settings standard ids now events e h => ?_⟩
  obtain ⟨hliving, htooled⟩ := run?_invariant (P := fun e => Living e ∧ Tooled e)
    (fun _ _ _ hP h => ⟨hP.1.step h, hP.2.step h⟩) h
    ⟨fun k s hs => by simp [start, Registry.start, Registry.session?] at hs,
      fun q c stage hq => by simp [start] at hq⟩
  exact TellsLabels.of_living hliving htooled

/-- A project is opened in a session, and the session is being closed. -/
def closedWithProject : List (Event Nat) :=
  [.arrive (.create []), .go 0, .work 0 (.built 7), .go 0,
    .arrive (.call ⟨"open_project",
      .object [("session_id", .str "first"), ("project_path", .str "plant")]⟩),
    .go 1, .go 1, .go 1, .go 1, .work 0 .start,
    .work 0 (.finish 7 (.ok ⟨"Opened project plant", .object [("name", .str "plant")]⟩)), .go 1,
    .arrive (.close "first"), .go 2, .go 2]

theorem tellsLabels_closedWithProject : ∃ (e : Engine Nat) (i : SessionInfo),
    (start (.ofConfig SessionConfig.standard) (.ofSeconds 60) (fun _ => "first") 0).run?
      closedWithProject = some e ∧ TellsLabels e ∧ e.registry.infos = [i] ∧
    i.state = .closed ∧ i.attached = some "plant" :=
  ⟨_, _, rfl, displays_and_tellsLabels.2 (.ofConfig SessionConfig.standard) (.ofSeconds 60)
    (fun _ => "first") 0 closedWithProject _ rfl, rfl, rfl, rfl⟩

end Engine

/-- A session bears its label in every state of its life. -/
def Session.AlwaysBears (s₀ : Session ρ) : Prop :=
  ∀ steps, (s₀.liveAll steps).state.Bears (s₀.liveAll steps).attached

/-- Every listed session bears its label, in every run. -/
def Engine.AlwaysBears (e₀ : Engine ρ) : Prop :=
  ∀ events e, e₀.run? events = some e → ∀ i ∈ e.registry.infos, i.state.Bears i.attached

/-- **A session that is closed with a project keeps the label**, and is listed with it until its
close has come to an end. -/
theorem Engine.not_alwaysBears :
    ¬ Session.AlwaysBears (.create "first" [] 64 0 : Session Nat) ∧
    ¬ Engine.AlwaysBears (start (.ofConfig SessionConfig.standard) (.ofSeconds 60)
      (fun _ => "first") 0 : Engine Nat) := by
  constructor
  · intro h
    have := (h [(0, .attach "plant"), (0, .beginClose)]).mp rfl
    cases this
  · intro h
    have := (h closedWithProject _ rfl _ (List.mem_singleton.mpr rfl)).mp rfl
    cases this

end Workbench
