import Workbench.Engine.Host
import Workbench.Proofs.Engine.Kept
import Workbench.Proofs.Project.Opening
import Workbench.Proofs.Session.LastRelease

/-!
# The attachment of a session

A session says whether a project is open in it, and which one.  It does not look into its workspace
for that, but goes by the tools that have ended.

* `Backend.Allows` is what the resource of a session may do in an event, in whatever surroundings;
  a host brings about nothing else (`Backend.allows_of_nextMove`);
* `Engine.Equipped` says that calls take their tools from the table;
* `Session.InStep` says that the session tells the truth of its workspace, as long as it is open and
  its worker has not crashed; `Steady` is that along a run, and is kept by every event that the disk
  allows (`Steady.step`).
-/

namespace Workbench

/-! ## 1. What a backend brings about -/

namespace Backend

variable {ρ σ : Type}

/-- The backend can bring the event about in some surroundings.  The surroundings may be others each
time, since the sessions are not alone in them. -/
def Allows (b : Backend ρ σ) (context : PlanContext) (e : Engine ρ) : Event ρ → Prop
  | .work seat (.built r) => ∃ x x', b.build seat x = (x', some (.ok r))
  | .work seat (.finish r answer) => ∀ s r₀ ticket job, e.registry.session? seat = some s →
      s.worker.phase = .running r₀ ticket job →
      ∃ x x' now, b.run context seat job r₀ x now = (x', some ⟨r, some answer⟩)
  | _ => True

/-- **A host brings about what its backend allows**, and nothing else. -/
theorem allows_of_nextMove {h : Host ρ σ} {seat : Nat} {s : Session ρ} {x : σ}
    {move : Worker.Move ρ JobAnswer} (hs : h.engine.registry.session? seat = some s)
    (hm : h.nextMove seat s.worker = (x, some move)) :
    h.backend.Allows h.context h.engine (.work seat move) := by
  unfold Host.nextMove at hm
  split at hm
  · split at hm <;> cases hm
    · exact ⟨_, _, ‹_›⟩
    · trivial
  · split at hm
    · cases hm
      trivial
    · cases hm
      trivial
    · split at hm <;> cases hm
      trivial
  · rename_i r ticket job hp
    split at hm <;> cases hm
    · rename_i hrun
      intro s' r' ticket' job' hs' hp'
      rw [hs] at hs'
      cases hs'
      rw [hp] at hp'
      cases hp'
      exact ⟨_, _, _, hrun⟩
    · trivial
  all_goals cases hm <;> trivial

end Backend

/-! ## 2. The tools that calls bring -/

variable {ρ : Type}

/-- The tool with which a call is on its way to a worker. -/
def CallStage.info? : CallStage → Option ToolInfo
  | resolve info => some info
  | check info _ _ => some info
  | enter info _ _ => some info
  | _ => none

/-- The tool with which a task is on its way to a worker. -/
def Task.info? : Task → Option ToolInfo
  | call _ stage => stage.info?
  | _ => none

namespace CallStage

/-- **A call takes its tool from the table**, and keeps it. -/
theorem info?_of_step {r r' : Registry ρ} {standard : Duration} {c : Call}
    {stage stage' : CallStage} (h : stage.step r standard c = .next r' stage') {info : ToolInfo}
    (hi : stage'.info? = some info) : info ∈ Tool.all ∨ stage.info? = some info := by
  cases steps_of_step h with
  | resolving hf _ =>
    cases hi
    exact Or.inl (List.mem_of_find?_eq_some hf)
  | found _ _ | suits _ _ => exact Or.inr hi
  | _ => cases hi

end CallStage

namespace Engine

/-- Whoever is on the way to a worker brings a tool of the table. -/
def Equipped (e : Engine ρ) : Prop :=
  ∀ (q : Nat) (t : Task) (info : ToolInfo),
    e.tasks[q]? = some t → t.info? = some info → info ∈ Tool.all

/-- A task that gives up waiting is not on the way to a worker. -/
theorem info?_of_expire? {r r' : Registry ρ} {t t' : Task} (h : t.expire? r = some (r', t')) :
    t'.info? = none := by
  cases Task.lapses_of_expire? h <;> rfl

theorem Equipped.step {e e' : Engine ρ} {event : Event ρ} (he : Equipped e)
    (h : e.step? event = some e') : Equipped e' := by
  intro q t' info ht' hi
  obtain ⟨c, stage, rfl⟩ : ∃ c stage, t' = .call c stage := by
    cases t' <;> first | exact ⟨_, _, rfl⟩ | cases hi
  cases ht : e.tasks[q]? with
  | none =>
    rcases fresh_of_step? h ht ht' with ⟨request, hr⟩ | hr | hr
    · cases request <;> cases hr
      cases hi
    · cases hr
    · cases hr
  | some t =>
    obtain ⟨t₁, ht₁, hturn⟩ := task_of_step? h ht
    rw [ht'] at ht₁
    cases ht₁
    rcases hturn with ⟨-, hturn⟩ | ⟨-, rfl | ⟨stage, calledOff, -, hp⟩⟩
    · generalize e.change event = ch at hturn
      cases hturn with
      | go hgo =>
        obtain ⟨stage₀, rfl, hs⟩ := call_of_go? hgo
        exact (CallStage.info?_of_step hs hi).elim id fun h₀ => he q _ info ht h₀
      | expire hexp =>
        rw [info?_of_expire? hexp] at hi
        cases hi
      | refuse href =>
        obtain ⟨-, -, metadata, ⟨-, hp⟩ | ⟨c', -, hp⟩⟩ := Task.of_refuse? href <;> cases hp
      | detour hway =>
        obtain ⟨_, _, -, ⟨-, hp⟩ | ⟨_, -, hp⟩⟩ := Task.of_detour? hway <;> cases hp
    · exact he q _ info ht hi
    · cases hp

/-- **Only tools of the table are queued.** -/
theorem tool_of_submit {e : Engine ρ} (he : Equipped e) {event : Event ρ} {k : Nat}
    {bounded : Bool} {info : ToolInfo} {arguments : Json}
    (h : e.change event = .submit k bounded (.tool info arguments)) : info ∈ Tool.all := by
  obtain ⟨q, -, ⟨-, hj⟩ | ⟨info', arguments', -, hj, hp⟩⟩ := submit_of_step? h
  · cases hj
  · cases hj
    obtain ⟨c, id, ht, -⟩ := heads_of_partAt hp
    exact he q _ info ht rfl

end Engine

/-! ## 3. The session and its workspace -/

/-- The workspace between two jobs, and while a job is running as it was before; until it is built,
one without a project.  After a crash there is none that counts. -/
def Phase.workspace? {J : Type} : Phase Workspace J → Option Workspace
  | building => some .empty
  | resting w => some w
  | running w _ _ => some w
  | _ => none

namespace Session

/-- The session tells the truth of a workspace. -/
def Reflects (s : Session ρ) (w : Workspace) : Prop :=
  s.state = (if w.label?.isSome then .resourceAttached else .created) ∧ s.attached = w.label?

/-- The session tells the truth of its workspace, as long as it is open and its worker has not
crashed. -/
def InStep (s : Session Workspace) : Prop :=
  s.isClosed = false → ∀ w, s.worker.phase.workspace? = some w → s.Reflects w

theorem Reflects.congr {s s' : Session ρ} {w w' : Workspace} (h : s.Reflects w)
    (hs : s'.state = s.state) (ha : s'.attached = s.attached) (hw : w'.label? = w.label?) :
    s'.Reflects w' := by
  unfold Reflects
  rw [hs, ha, hw]
  exact h

/-- **What the session notes of a tool is what the tool has done.** -/
theorem reflects_record {s : Session ρ} {w w' : Workspace} {now : Nat} {info : ToolInfo}
    {arguments : Json} {answer : JobAnswer} (hopen : s.isClosed = false) (h : s.Reflects w)
    (ht : w.ToldBy info w' answer) : (s.record now (.tool info arguments) answer).Reflects w' := by
  cases answer with
  | error err => exact h.congr rfl rfl ht.1
  | ok out =>
    simp only [Workspace.ToldBy] at ht
    simp only [record]
    split
    · rename_i heff
      rw [heff] at ht
      exact h.congr rfl rfl ht
    · rename_i heff
      rw [heff] at ht
      have hopen' : (s.touch now).isClosed = false := hopen
      simp [Reflects, attach, hopen', show w'.label? = _ from ht]
    · rename_i heff
      rw [heff] at ht
      have hopen' : (s.touch now).isClosed = false := hopen
      simp [Reflects, detach, hopen', show w'.label? = _ from ht]

/-- A step of the worker keeps the session in step, if the resource is built without a project, and
the tools do what they tell. -/
theorem InStep.advance {s s' : Session Workspace} {now : Nat}
    {move : Worker.Move Workspace JobAnswer} (hs : s.InStep) (h : s.advance? now move = some s')
    (hbuilt : ∀ w, move = .built w → w = .empty)
    (hfinish : ∀ w w' answer ticket job, s.isClosed = false → move = .finish w' answer →
      s.worker.phase = .running w ticket job →
      ∃ info arguments, job = .tool info arguments ∧ w.ToldBy info w' answer) : s'.InStep := by
  obtain ⟨-, -, hw, hclosed⟩ := advance?_fields h
  intro hopen w₁ hw₁
  rw [hclosed] at hopen
  have hin := hs hopen
  rcases advance?_cases h with ⟨w, w', ticket, job, answer, rfl, hp, hp', he⟩ | ⟨hno, he⟩
  · obtain ⟨info, arguments, rfl, htold⟩ := hfinish w w' answer ticket job hopen rfl hp
    rw [hp'] at hw₁
    cases hw₁
    rw [he]
    exact reflects_record hopen (hin w (by rw [hp]; rfl)) htold
  · rw [he]
    refine hin w₁ ?_
    generalize s'.worker = w' at hw hw₁
    cases Worker.advance_of_advance? hw with
    | built hp =>
      rw [hbuilt _ rfl] at hw₁
      rw [hp]
      exact hw₁
    | start hp hq =>
      rw [hp]
      exact hw₁
    | finish hp => exact absurd rfl (hno _ _)
    | _ => cases hw₁

end Session

namespace Change

/-- What a change other than a close and a step of the worker leaves alone. -/
theorem still_of_alter {k : Nat} {c : Change ρ} (now : Nat) (s : Session ρ) (hclose : c ≠ .close k)
    (hwork : ∀ move, c ≠ .work k move) : (c.alter k now s).state = s.state ∧
      (c.alter k now s).attached = s.attached ∧
      (c.alter k now s).worker.phase = s.worker.phase := by
  unfold alter
  split
  · split <;> exact ⟨rfl, rfl, rfl⟩
  · split
    · rename_i hseat
      cases c with
      | close seat =>
        cases hseat
        exact absurd rfl hclose
      | work seat move =>
        cases hseat
        exact absurd rfl (hwork move)
      | submit seat bounded job =>
        refine ⟨rfl, rfl, ?_⟩
        simp only [on, Worker.submit_eq]
        split <;> rfl
      | shutdown seat =>
        refine ⟨rfl, rfl, ?_⟩
        simp only [on, Worker.shutdown]
        split <;> rfl
      | _ => exact ⟨rfl, rfl, rfl⟩
    · exact ⟨rfl, rfl, rfl⟩

end Change

/-! ## 4. Along a run -/

namespace Engine

open Worker.History

/-- What holds of the session at a seat, whatever happened. -/
structure Steady (k : Nat) (past : List (Engine Workspace × Event Workspace))
    (e : Engine Workspace) : Prop where
  books : Books k past e
  equipped : Equipped e
  /-- Nothing but tools of the table and the release is queued. -/
  tools : ∀ n info arguments, (n, .tool info arguments) ∈ accepted (notes k past) →
    info ∈ Tool.all
  inStep : ∀ s, e.registry.session? k = some s → s.InStep

/-- What is running in an open session is a tool of the table. -/
theorem Steady.running {k : Nat} {past : List (Engine Workspace × Event Workspace)}
    {e : Engine Workspace} (hst : Steady k past e) {s : Session Workspace}
    (hs : e.registry.session? k = some s) (hopen : s.isClosed = false) {w : Workspace}
    {ticket : Nat} {job : Job} (hp : s.worker.phase = .running w ticket job) :
    ∃ info arguments, job = .tool info arguments ∧ info ∈ Tool.all := by
  have ht : Worker.Told (notes k past) s.worker := hst.books.told.of_some hs
  have hacc : (ticket, job) ∈ accepted (notes k past) := ht.order.accepted_of_running hp
  cases job with
  | release =>
    obtain ⟨s', hs', hc⟩ := hst.books.closed_of_attempts (hst.books.attempts_ne_nil hacc)
    rw [hs] at hs'
    cases hs'
    rw [hopen] at hc
    cases hc
  | tool info arguments => exact ⟨info, arguments, rfl, hst.tools ticket info arguments hacc⟩

/-- An event that the disk allows keeps a session in step, if no release is running before the
session is closed. -/
theorem inStep_of_step? {k : Nat} {context : PlanContext} {e e' : Engine Workspace}
    {event : Event Workspace} {s s' : Session Workspace} (hin : s.InStep)
    (hallow : Workspace.backend.Allows context e event) (h : e.step? event = some e')
    (hs : e.registry.session? k = some s) (hs' : e'.registry.session? k = some s')
    (hrunning : s.isClosed = false → ∀ w ticket job, s.worker.phase = .running w ticket job →
      ∃ info arguments, job = .tool info arguments ∧ info ∈ Tool.all) : s'.InStep := by
  have halter := Registry.session?_after_of_some (e.change event) hs
  rw [← registry_of_step? h, hs', Option.some.injEq] at halter
  by_cases hclose : e.change event = .close k
  · obtain ⟨s₁, hs₁, ha⟩ := session_of_step? h hs
    rw [hs'] at hs₁
    cases hs₁
    intro hopen
    rw [ha.closed_iff.mpr (Or.inr hclose)] at hopen
    cases hopen
  · by_cases hwork : ∃ move, e.change event = .work k move
    · obtain ⟨move, hc⟩ := hwork
      obtain rfl := work_of_change hc
      cases steps_of_step? h with
      | @work _ _ s₁ s₁' hs₁ hm =>
        rw [hs] at hs₁
        cases hs₁
        obtain rfl : s' = s₁' := by simpa [hc, Change.alter, Change.unlisted?, Change.seat?,
          Change.on, hm] using halter
        refine hin.advance hm (fun w hb => ?_) fun w w' answer ticket job hopen hf hp => ?_
        · subst hb
          obtain ⟨x, x', hb⟩ := hallow
          cases hb
          rfl
        · subst hf
          obtain ⟨info, arguments, rfl, hi⟩ := hrunning hopen w ticket job hp
          obtain ⟨x, x', now, hrun⟩ := hallow s w ticket _ hs hp
          exact ⟨info, arguments, rfl, Workspace.toldBy_of_run hi hrun⟩
    · obtain ⟨hstate, hattached, hphase⟩ := Change.still_of_alter e.registry.now s hclose
        fun move hc => hwork ⟨move, hc⟩
      rw [← halter] at hstate hattached hphase
      intro hopen w hw
      rw [Session.isClosed, hstate] at hopen
      rw [hphase] at hw
      exact (hin hopen w hw).congr hstate hattached rfl

/-- **Every event that the disk allows keeps the session in step.** -/
theorem Steady.step {k : Nat} {context : PlanContext}
    {past : List (Engine Workspace × Event Workspace)} {e e' : Engine Workspace}
    {event : Event Workspace} (hst : Steady k past e)
    (hallow : Workspace.backend.Allows context e event) (h : e.step? event = some e') :
    Steady k (past ++ [(e, event)]) e' where
  books := hst.books.step h
  equipped := hst.equipped.step h
  tools := by
    intro n info arguments hn
    rcases accepted_concat k past e event with hkept | ⟨s, bounded, job, -, hc, -, hadd⟩
    · rw [hkept] at hn
      exact hst.tools n info arguments hn
    · rw [hadd, List.mem_append, List.mem_singleton] at hn
      rcases hn with hn | hn
      · exact hst.tools n info arguments hn
      · cases hn
        exact tool_of_submit hst.equipped hc
  inStep := by
    intro s' hs'
    cases hs : e.registry.session? k with
    | none =>
      obtain ⟨metadata, -, -, rfl⟩ := born_of_step? h hs hs'
      intro _ w hw
      cases hw
      exact ⟨rfl, rfl⟩
    | some s =>
      exact inStep_of_step? (hst.inStep s hs) hallow h hs hs' fun hopen w ticket job hp =>
        hst.running hs hopen hp

/-- Everything that happened along a run is what the disk allows, whatever else was on it. -/
def OnDisk (context : PlanContext) (past : List (Engine Workspace × Event Workspace)) : Prop :=
  ∀ x ∈ past, Workspace.backend.Allows context x.1 x.2

theorem Steady.start (settings : SessionSettings) (standard : Duration) (ids : Nat → String)
    (now k : Nat) : Steady k [] (start settings standard ids now : Engine Workspace) where
  books := Books.start settings standard ids now k
  equipped := by
    intro q t info ht
    simp [Engine.start] at ht
  tools := by
    intro n info arguments hn
    cases hn
  inStep := by
    intro s hs
    simp [Engine.start, Registry.start, Registry.session?] at hs

/-- **A session is in step from the beginning**, whatever tools are called in it. -/
theorem steady_of_run? {context : PlanContext} {settings : SessionSettings} {standard : Duration}
    {ids : Nat → String} {now : Nat} {e : Engine Workspace} {events : List (Event Workspace)}
    (h : (start settings standard ids now).run? events = some e)
    (hd : OnDisk context ((start settings standard ids now).trace events)) (k : Nat) :
    Steady k ((start settings standard ids now).trace events) e :=
  run?_induction (P := fun past e => OnDisk context past → Steady k past e)
    (fun past e event e' hP hstep hd => by
      have hst := hP fun x hx => hd x (List.mem_append_left _ hx)
      exact hst.step (hd (e, event) (by simp)) hstep)
    h (fun _ => Steady.start settings standard ids now k) hd

end Engine
end Workbench
