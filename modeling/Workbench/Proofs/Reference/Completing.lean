import Workbench.Proofs.Reference.Rounds
import Workbench.Proofs.Session.Turns

/-!
# Every call comes to what the machine says

A call that is served as the machine serves it never gets stuck: as long as it is not answered, or
something is left to be done, it can go on itself or the worker of its session can.  And this ends.
So any calls at all can be served one after the other.

* `CallStage.turns` is lowered by every step of a call, as `Worker.load` is by every step of a
  worker;
* `CallStage.Waits` lists what a call waits for, and `Serving.canWork_of_waits` says that its worker
  can bring it about;
* `Serves.completes` puts both together: whatever is called, there is a round for it;
* `FollowsReference` is the main statement, on any calls and on however many sessions
  (`followsReference_of_calls`): they can be served, and however they are, the answers and the disk
  are those of the machine.
-/

namespace Workbench

/-! ## 1. The turns of a call -/

/-- How many turns a start takes at most. -/
def Creation.turns : Creation → Nat
  | enter _ => 5
  | awaitReady _ => 4
  | beginClose _ _ => 3
  | shutdown _ _ => 2
  | remove _ _ => 1

/-- How many turns a call takes at most. -/
def CallStage.turns : CallStage → Nat
  | arrive => 13
  | resolve _ => 12
  | check _ _ _ => 11
  | enter _ _ _ => 10
  | await _ _ _ _ => 9
  | close _ stage => stage.turns
  | terminate _ stage => stage.turns
  | create stage => stage.turns
  | closeFaulted _ stage => stage.turns

section Turns

variable {ρ : Type} {r r' : Registry ρ} {standard : Duration}

theorem Creation.turns_of_step {stage stage' : Creation} (h : stage.step r = .next r' stage') :
    stage'.turns < stage.turns := by
  cases steps_of_step h <;> exact Nat.lt_succ_self _

/-- **Each step of a call lowers the number of turns** that it takes. -/
theorem CallStage.turns_of_step {c : Call} {stage stage' : CallStage}
    (h : stage.step r standard c = .next r' stage') : stage'.turns < stage.turns := by
  cases goes_of_step h with
  | close hstep => exact Closing.turns_of_step hstep
  | terminate hstep => exact Termination.turns_of_step hstep
  | create hstep => exact Creation.turns_of_step hstep
  | closeFaulted hstep => exact Closing.turns_of_step hstep
  | _ => simp [turns, Closing.turns, Termination.turns, Creation.turns]

theorem CallStage.turns_pos (stage : CallStage) : 0 < stage.turns := by
  cases stage with
  | close id stage => exact stage.turns_bounds.1
  | terminate id stage => exact stage.turns_bounds.1
  | closeFaulted id stage => exact stage.turns_bounds.1
  | create stage => cases stage <;> exact Nat.succ_pos _
  | _ => exact Nat.succ_pos _

end Turns

/-! ## 2. What a worker can do -/

/-- Some worker can make a step, with what it does to the disk. -/
def Engine.CanWork (context : PlanContext) (e : Engine Workspace) (d : Disk) : Prop :=
  ∃ k move e' d', e.step? (.work k move) = some e' ∧
    Workspace.backend.Leads context e d d' (.work k move)

section Working

variable {context : PlanContext} {e : Engine Workspace} {d d' : Disk} {k : Nat}
  {s : Session Workspace}

theorem canWork_of_advance? (move : Worker.Move Workspace JobAnswer)
    (hs : e.registry.session? k = some s) (hw : s.worker.advance? move ≠ none)
    (hlead : Workspace.backend.Leads context e d d' (.work k move)) : e.CanWork context d := by
  obtain ⟨w', hw⟩ := Option.ne_none_iff_exists'.mp hw
  have hadv : ∃ s', s.advance? e.registry.now move = some s' := by
    simp only [Session.advance?, hw]
    split <;> exact ⟨_, rfl⟩
  obtain ⟨s', hadv⟩ := hadv
  refine ⟨k, move, { e with registry := e.registry.put k s' }, d', ?_, hlead⟩
  simp only [Engine.step?, hs, hadv]

/-- A workspace can be built. -/
theorem canWork_of_building (hs : e.registry.session? k = some s)
    (hp : s.worker.phase = .building) : e.CanWork context d :=
  canWork_of_advance? (.built .empty) hs (by simp [Worker.advance?, hp]) rfl

/-- A worker with a job in hand can go on with it. -/
theorem canWork_of_holds {v : Workspace} {ticket : Nat} {job : Job}
    (hs : e.registry.session? k = some s) (h : s.worker.Holds v ticket job) :
    e.CanWork context d := by
  cases h with
  | waits hp hu hq hrest hreply =>
    cases hphase : s.worker.phase with
    | building => exact canWork_of_building hs hphase
    | resting r =>
      exact canWork_of_advance? .start hs (by simp [Worker.advance?, hphase, hq]) rfl
    | running r ticket' job' => simp [Worker.underway, hphase] at hu
    | _ => simp [hphase, Phase.workspace?] at hp
  | runs hp hq hreply =>
    let o := v.carryOut context d Reference.moment job
    exact canWork_of_advance? (.finish o.workspace o.result) hs (by simp [Worker.advance?, hp])
      ⟨s, v, ticket, job, Reference.moment, hs, hp, Workspace.run_eq _ _ _ _ _ _⟩

/-- A worker that has nothing to do and was told to leave can go on leaving, unless it has left. -/
theorem canWork_of_spent (hs : e.registry.session? k = some s) (h : s.worker.Spent)
    (hc : s.worker.connected = false) (hended : s.worker.hasEnded = false) :
    e.CanWork context d := by
  have hunsettled : ¬ s.worker.Settled := by
    intro hsettled
    rcases hsettled.cases with ⟨r, -, -, hconnected⟩ | ⟨said, hp⟩
    · rw [hc] at hconnected
      cases hconnected
    · simp [Worker.hasEnded, hp] at hended
  obtain ⟨move, hmove⟩ := Classical.not_forall.mp hunsettled
  obtain ⟨w', hw⟩ := Option.ne_none_iff_exists'.mp hmove
  obtain ⟨-, hm, hbuilt, hfinish⟩ := h.step hw
  -- such a step leaves the disk alone
  have hlead : Workspace.backend.Leads context e d d (.work k move) := by
    cases move with
    | built v => exact absurd rfl (hbuilt v)
    | finish v a => exact absurd rfl (hfinish v a)
    | buildFailed reason => cases hm
    | crash v => cases hm
    | _ => rfl
  exact canWork_of_advance? move hs hmove hlead

end Working

/-! ## 3. Someone can make a step -/

/-- What a call waits for, at the stages at which it does. -/
inductive CallStage.Waits {ρ : Type} (r : Registry ρ) : CallStage → Prop where
  | ready {k : Nat} (h : ∀ s, r.session? k = some s → s.worker.readiness = .building) :
      Waits r (create (.awaitReady k))
  | job {id : String} {k ticket : Nat} {limit : Duration} {s : Session ρ}
      (hs : r.session? k = some s) (h : s.worker.outcome? ticket = none) :
      Waits r (await id k ticket limit)
  | release {id : String} {k ticket : Nat} {s : Session ρ} (hs : r.session? k = some s)
      (h : s.worker.outcome? ticket = none) :
      Waits r (close id (.release k (.awaitAnswer ticket)))
  | leaving {id : String} {k : Nat} {s : Session ρ} (hs : r.session? k = some s)
      (h : s.worker.hasEnded = false) : Waits r (close id (.release k .awaitEnd))
  | faulted {id : String} {stage : Closing} (h : stage.step r id = .wait) :
      Waits r (closeFaulted id stage)

section Waiting

variable {ρ : Type} {r : Registry ρ} {standard : Duration} {c : Call}

/-- **A call waits for nothing else.** -/
theorem CallStage.waits_of_step {stage : CallStage} (h : stage.step r standard c = .wait) :
    stage.Waits r := by
  cases steps_of_step h with
  | closeWaits hclosing =>
    cases Closing.steps_of_step hclosing with
    | waits hrelease =>
      cases Release.steps_of_step hrelease with
      | unanswered hs ho => exact .release hs ho
      | lives hs he => exact .leaving hs he
  | terminateWaits hending => exact absurd hending (Termination.step_ne_wait _)
  | createWaits hcreation =>
    cases Creation.steps_of_step hcreation with
    | unseated hnone =>
      refine .ready fun s hs => ?_
      rw [hnone] at hs
      cases hs
    | building hs₀ hr =>
      refine .ready fun s hs => ?_
      rw [hs₀] at hs
      cases hs
      exact hr
  | unanswered hs ho => exact .job hs ho
  | closeFaultedWaits hclosing => exact .faulted hclosing

end Waiting

section Advancing

variable {since : Nat} {m : Reference} {c : Call} {e : Engine Workspace} {d : Disk}

/-- **What a call waits for, its worker can bring about.** -/
theorem Serving.canWork_of_waits {stage : CallStage}
    (h : Serving since m c e.registry d (.call c stage)) (hw : stage.Waits e.registry) :
    e.CanWork m.context d := by
  cases h with
  | due hr hd h => cases h <;> cases hw
  | @starting id k x hr hd hk ha =>
    obtain ⟨s, hs⟩ := hr.session_of_seat hk
    cases hr.seated hs hk with
    | live hshows hrests =>
      cases hw with
      | ready h => exact canWork_of_building hs (hshows.up.built (h s hs))
  | working hi hr hd hs hy hshows hholds h => exact canWork_of_holds hs hholds
  | worked hr hd hs hup hrests hp hout =>
    cases hw with
    | job hs' h =>
      rw [hs] at hs'
      cases hs'
      rw [hout] at h
      cases h
  | @ending id k x s t p hl hp ht h =>
    have hs := hl.session
    generalize (m.serve c).2 = answer at ht
    generalize s.listed = listed at ht
    cases hw with
    | release hs' hout =>
      cases ht with
      | await ticket =>
        cases hp with
        | handed hholds hd => exact canWork_of_holds hs hholds
        | answered hspent hreply hd =>
          rw [hs] at hs'
          cases hs'
          exact absurd (Worker.outcome?_eq_none.mp hout) hreply
      | late hstage => cases hstage
    | leaving hs' hended =>
      cases ht with
      | late hstage =>
        cases hp with
        | done hspent hc hd =>
          rw [hs] at hs'
          cases hs'
          exact canWork_of_spent hs hspent (hc rfl) hended
    | _ => cases ht

/-- Where nothing is left to be done for a session, nothing runs and nothing waits. -/
theorem Worker.Spent.vacant {w : Worker Workspace Job JobAnswer} (h : w.Spent) : w.Vacant := by
  refine ⟨h.waiting, ?_⟩
  have hquiet := h.phase
  cases hp : w.phase <;> simp_all [Worker.underway, Phase.isQuiet]

theorem Session.Mirrors.vacant {s : Session Workspace} {y : Seat} (h : s.Mirrors y) :
    s.worker.Vacant := by
  cases h with
  | live hshows hrests => exact ⟨hrests.waiting, hrests.underway⟩
  | gone hgone => exact hgone.spent.vacant

/-- **A call that has been answered** has left nothing to be done, or the worker can go on. -/
theorem Serving.vacant_or_canWork {answer : Answer}
    (h : Serving since m c e.registry d (.finished answer)) :
    Engine.Workers Worker.Vacant e ∨ e.CanWork m.context d := by
  cases h with
  | answered hr hd ha =>
    refine .inl fun k s hs => ?_
    obtain ⟨y, hy⟩ := hr.seat_of_session hs
    exact (hr.seated hs hy).vacant
  | @ending id k x s t p hl hp ht h =>
    obtain ⟨-, -, ticket, rfl⟩ := ht.of_finished
    cases hp with
    | handed hholds hd => exact .inr (canWork_of_holds hl.session hholds)
    | answered hspent hreply hd =>
      refine .inl fun j s' hs' => ?_
      by_cases hkj : k = j
      · subst hkj
        rw [hl.session] at hs'
        cases hs'
        exact hspent.vacant
      · obtain ⟨y, hy⟩ := hl.mirrors.seat_of_session hs'
        exact (hl.mirrors.sessions j s' y (by simpa using hkj) hs' hy).vacant

end Advancing
/-! ## 4. The end of a call -/

namespace Engine

/-- How many turns the call at a place takes at most. -/
def turnsAt {ρ : Type} (e : Engine ρ) (q : Nat) : Nat :=
  match e.tasks[q]? with
  | some (.call _ stage) => stage.turns
  | _ => 0

/-- What all workers together have still to do. -/
def load {ρ : Type} (e : Engine ρ) : Nat :=
  e.registry.sessions.foldr (fun s total => s.worker.load + total) 0

theorem foldr_set_lt {α : Type} (f : α → Nat) {l : List α} {k : Nat} {x y : α}
    (h : l[k]? = some x) (hlt : f y < f x) :
    (l.set k y).foldr (fun x total => f x + total) 0 < l.foldr (fun x total => f x + total) 0 := by
  induction l generalizing k with
  | nil => cases h
  | cons z l ih =>
    cases k with
    | zero =>
      cases h
      exact Nat.add_lt_add_right hlt _
    | succ k => exact Nat.add_lt_add_left (ih h) _

section Ending

variable {e e' : Engine Workspace}

/-- A step of a worker takes from what is to be done, and nothing else. -/
theorem load_of_work {k : Nat} {move : Worker.Move Workspace JobAnswer}
    (h : e.step? (.work k move) = some e') : e'.load < e.load ∧ e'.tasks = e.tasks := by
  cases steps_of_step? h with
  | work hs hadv =>
    obtain ⟨-, -, hworker, -⟩ := Session.advance?_fields hadv
    exact ⟨foldr_set_lt _ hs (Worker.load_advance? hworker), rfl⟩

/-- Nothing but the passing of time moves the clock. -/
theorem now_of_step? {event : Event Workspace} (h : e.step? event = some e')
    (hp : ∀ time, event ≠ .pass time) : e'.registry.now = e.registry.now := by
  rw [registry_of_step? h]
  refine Registry.now_after fun time hc => ?_
  unfold change at hc
  split at hc
  · split at hc
    · have hasked := Part.isAsked_change (r := e.registry) (Task.part ‹_›)
      rw [Task.change] at hc
      rw [hc] at hasked
      cases hasked
    · cases hc
  · split at hc
    · have hasked := Task.isAsked_lapse (ρ := Workspace) ‹_›
      rw [hc] at hasked
      cases hasked
    · cases hc
  · cases hc
  · exact hp _ rfl
  · cases hc

/-- A call that does not wait has a turn to take. -/
theorem turn_of_call {q : Nat} {c : Call} {stage : CallStage}
    (ht : e.tasks[q]? = some (.call c stage)) (hw : ¬ stage.Waits e.registry) :
    ∃ e', e.step? (.go q) = some e' ∧ e'.turnsAt q < e.turnsAt q := by
  have hgo : e.step? (.go q) =
      e.follow? q (.call c) .called (stage.step e.registry e.callTimeout c) := by
    simp only [step?, go?, ht]
  have hturns : e.turnsAt q = stage.turns := by simp only [turnsAt, ht]
  rw [hgo, hturns]
  cases hp : stage.step e.registry e.callTimeout c with
  | wait => exact absurd (CallStage.waits_of_step hp) hw
  | next r stage' =>
    refine ⟨_, rfl, ?_⟩
    simp only [turnsAt, tasks_proceed ht]
    exact CallStage.turns_of_step hp
  | done r answer =>
    refine ⟨_, rfl, ?_⟩
    simp only [turnsAt, tasks_proceed ht]
    exact stage.turns_pos

/-- The call at a place is answered by events of a round in which no time passes, and then nothing
is left to be done. -/
structure Completes (context : PlanContext) (q : Nat) (e : Engine Workspace) (d : Disk)
    (events : List (Event Workspace)) (answer : CallStage.Result) (e' : Engine Workspace)
    (d' : Disk) : Prop where
  quiet : ∀ event ∈ events, event.isQuiet = true
  run : e.run? events = some e'
  disk : Workspace.backend.Carries context d (e.trace events) d'
  answer : e'.answer? q = some (.called answer)
  vacant : Workers Worker.Vacant e'
  now : e'.registry.now = e.registry.now

variable {context : PlanContext} {q : Nat} {d d' : Disk}

theorem Completes.cons {e₁ : Engine Workspace} {d₁ : Disk} {event : Event Workspace}
    {events : List (Event Workspace)} {answer : CallStage.Result}
    (h : Completes context q e₁ d₁ events answer e' d') (hstep : e.step? event = some e₁)
    (hquiet : event.isQuiet = true) (hlead : Workspace.backend.Leads context e d d₁ event)
    (hnow : e₁.registry.now = e.registry.now) :
    Completes context q e d (event :: events) answer e' d' where
  quiet := List.forall_mem_cons.mpr ⟨hquiet, h.quiet⟩
  run := by simp only [run?, hstep, h.run]
  disk := carries_cons hstep hlead h.disk
  answer := h.answer
  vacant := h.vacant
  now := h.now.trans hnow

/-- **A call that is served comes to its end.** -/
theorem Serves.completes {since : Nat} {m : Reference} {c : Call} {q : Nat} {d : Disk}
    {e : Engine Workspace} (h : Serves since m c d q e)
    (hnow : e.registry.now < since + Registry.retention.nanos) :
    ∃ events answer e' d', Completes m.context q e d events answer e' d' := by
  obtain ⟨t, ht, hserving⟩ := h.call
  by_cases hwork : e.CanWork m.context d
  · obtain ⟨k, move, e₁, d₁, hstep, hlead⟩ := hwork
    obtain ⟨hload, htasks⟩ := load_of_work hstep
    have hnow₁ : e₁.registry.now = e.registry.now := now_of_step? hstep nofun
    have h₁ : Serves since m c d₁ q e₁ := h.step hstep rfl hlead hnow
    obtain ⟨events, answer, e', d', hrest⟩ := h₁.completes (by rwa [hnow₁])
    exact ⟨_, answer, e', d', hrest.cons hstep rfl hlead hnow₁⟩
  · rcases hserving.task with ⟨stage, rfl⟩ | ⟨answer, rfl⟩
    · obtain ⟨e₁, hstep, hturns⟩ := turn_of_call ht fun hwaits =>
        hwork (hserving.canWork_of_waits hwaits)
      have hnow₁ : e₁.registry.now = e.registry.now := now_of_step? hstep nofun
      have h₁ : Serves since m c d q e₁ := h.step hstep rfl rfl hnow
      obtain ⟨events, answer, e', d', hrest⟩ := h₁.completes (by rwa [hnow₁])
      exact ⟨_, answer, e', d', hrest.cons hstep rfl rfl hnow₁⟩
    · have hvacant : Workers Worker.Vacant e := hserving.vacant_or_canWork.resolve_right hwork
      have hanswer : e.answer? q = some (.called answer) := answer?_of_finished ht
      exact ⟨[], answer, e, d, nofun, rfl, rfl, hanswer, hvacant, rfl⟩
termination_by (e.turnsAt q, e.load)
decreasing_by
  · have hturns : e₁.turnsAt q = e.turnsAt q := by simp only [turnsAt, htasks]
    rw [hturns]
    exact Prod.Lex.right _ hload
  · exact Prod.Lex.left _ _ hturns

end Ending

/-! ## 5. Calls one after the other -/

section Calls

variable {since : Nat} {m : Reference} {d : Disk} {e : Engine Workspace}

/-- Between two calls, any call can be made. -/
theorem Matches.exists_round (h : Matches since m d e) (c : Call)
    (hnow : e.registry.now < since + Registry.retention.nanos) :
    ∃ events answer e' d', Round m.context e d c events answer e' d' ∧
      e'.registry.now = e.registry.now := by
  obtain ⟨events, answer, e', d', hc⟩ := (h.arrive c).completes hnow
  have hround : Round m.context e d c events answer e' d' :=
    { quiet := hc.quiet
      run := hc.run
      disk := carries_cons rfl rfl hc.disk
      answer := hc.answer
      vacant := hc.vacant }
  exact ⟨events, answer, e', d', hround, hc.now⟩

theorem Matches.exists_rounds (h : Matches since m d e)
    (hnow : e.registry.now < since + Registry.retention.nanos) (calls : List Call) :
    ∃ answers e' d', Rounds m.context e d calls answers e' d' ∧
      e'.registry.now = e.registry.now := by
  induction calls generalizing m d e with
  | nil => exact ⟨[], e, d, .nil e d, rfl⟩
  | cons c calls ih =>
    obtain ⟨events, answer, e₁, d₁, hround, hnow₁⟩ := h.exists_round c hnow
    rw [← hnow₁] at hnow
    obtain ⟨hm₁, -⟩ := hround.matches h rfl hnow
    obtain ⟨answers, e', d', hrounds, hnow'⟩ := ih hm₁ hnow
    rw [m.serve_context] at hrounds
    exact ⟨answer :: answers, e', d', .cons events hround hrounds, hnow'.trans hnow₁⟩

end Calls

/-- What calls come to, from a start without sessions, if each of them is answered and has nothing
left to be done before the next one arrives, while no wait is up, no sweep begins and no worker is
refused.  The machine gives the sessions the same fresh identifiers. -/
structure FollowsReference (settings : SessionSettings) (context : PlanContext)
    (standard : Duration) (ids : Nat → String) (now : Nat) (d : Disk) (calls : List Call) :
    Prop where
  /-- The calls can be served so, and without any time passing. -/
  served : ∃ answers e' d', Rounds context (start settings standard ids now) d calls answers e' d' ∧
    e'.registry.now = now
  /-- However they are served, if it takes less than the time for which closed sessions are
  remembered, the answers are those of the machine up to times. -/
  answers : ∀ {answers e' d'},
    Rounds context (start settings standard ids now) d calls answers e' d' →
    e'.registry.now < now + Registry.retention.nanos →
    List.Forall₂ SameButTimes answers ((Reference.start settings context ids d).serveAll calls).2
  /-- So is the disk. -/
  disk : ∀ {answers e' d'},
    Rounds context (start settings standard ids now) d calls answers e' d' →
    e'.registry.now < now + Registry.retention.nanos →
    d'.Alike Workspace.SavedAlike
      ((Reference.start settings context ids d).serveAll calls).1.disk

/-- **Calls one after the other come to what the reference machine says**, whatever is called. -/
theorem followsReference_of_calls {settings : SessionSettings} {context : PlanContext}
    {standard : Duration} {ids : Nat → String} {now : Nat} {d : Disk}
    (hids : Function.Injective ids) (calls : List Call) :
    FollowsReference settings context standard ids now d calls := by
  have hstart : Matches now (.start settings context ids d) d (start settings standard ids now) :=
    matches_start hids
  constructor
  case served => exact hstart.exists_rounds (Nat.lt_add_of_pos_right (by decide)) calls
  case answers => exact fun h hnow => (h.matches hstart rfl hnow).2
  case disk => exact fun h hnow => (h.matches hstart rfl hnow).1.disk

/-- Names of sessions, of which the first one is `first`. -/
def firstNames (k : Nat) : String := "first" ++ strokes k

theorem firstNames_injective : Function.Injective firstNames := fun _ _ h =>
  strokes_injective (String.append_right_inj _ |>.mp h)

/-- A project is opened, its session is terminated, and then ended and looked at again. -/
def plantCalls : List Call :=
  [⟨"create_session", .obj []⟩, ⟨"open_project", plantArguments⟩,
    ⟨"terminate_session", plantArguments⟩, ⟨"close_session", plantArguments⟩,
    ⟨"session_info", plantArguments⟩]

theorem vacant_of_single {e : Engine Workspace} {s : Session Workspace}
    (hs : e.registry.sessions = [s]) (hw : s.worker.Vacant) : Workers Worker.Vacant e := by
  intro k s' hs'
  rw [Registry.session?, hs] at hs'
  cases k with
  | zero =>
    cases hs'
    exact hw
  | succ k => cases hs'

theorem followsReference_plantCalls : ∃ (answers : List CallStage.Result) (e : Engine Workspace)
    (d : Disk),
    let context : PlanContext := ⟨⟨["exports"]⟩, none⟩
    let settings := SessionSettings.ofConfig SessionConfig.standard
    Rounds context (start settings (.ofSeconds 60) firstNames 0) plantDisk plantCalls answers e d ∧
    e.registry.now < 0 + Registry.retention.nanos ∧
    (List.Forall₂ SameButTimes answers
        ((Reference.start settings context firstNames plantDisk).serveAll plantCalls).2 ∧
      d.Alike Workspace.SavedAlike
        ((Reference.start settings context firstNames plantDisk).serveAll plantCalls).1.disk) ∧
    answers.drop 1 = [.ok (plantToldAs "Opened project"),
      .ok (Call.endedOutput "Terminated" "first" "terminated"),
      .ok (Call.endedOutput "Closed" "first" "closed"), .error (.sessionNotFound "first")] := by
  have h : Rounds ⟨⟨["exports"]⟩, none⟩
      (start (.ofConfig SessionConfig.standard) (.ofSeconds 60) firstNames 0) plantDisk plantCalls
      _ _ _ :=
    .cons [.go 0, .go 0, .pass (.ofSeconds 5), .work 0 (.built .empty), .go 0]
      ⟨by simp [Event.isQuiet], rfl, carries_cons rfl rfl (carries_cons rfl rfl
        (carries_cons rfl rfl (carries_cons rfl rfl (carries_cons rfl rfl (carries_cons rfl rfl
        rfl))))), rfl, vacant_of_single rfl ⟨rfl, rfl⟩⟩ <|
    .cons [.go 1, .go 1, .go 1, .go 1, .work 0 .start,
        .work 0 (.finish plantWorkspace (.ok (plantToldAs "Opened project"))), .go 1]
      ⟨by simp [Event.isQuiet], rfl, carries_cons rfl rfl (carries_cons rfl rfl
        (carries_cons rfl rfl (carries_cons rfl rfl (carries_cons rfl rfl (carries_cons rfl rfl
        (carries_cons rfl ⟨_, _, _, _, .ofNanos 5000000000, rfl, rfl, rfl⟩
        (carries_cons rfl rfl rfl))))))), rfl, vacant_of_single rfl ⟨rfl, rfl⟩⟩ <|
    .cons [.go 2, .go 2, .go 2, .go 2, .go 2, .go 2, .work 0 .start,
        .work 0 (.finish .empty (.ok ⟨"", .null⟩))]
      ⟨by simp [Event.isQuiet], rfl, carries_cons rfl rfl (carries_cons rfl rfl
        (carries_cons rfl rfl (carries_cons rfl rfl (carries_cons rfl rfl (carries_cons rfl rfl
        (carries_cons rfl rfl (carries_cons rfl rfl
        (carries_cons rfl ⟨_, _, _, _, .ofNanos 5000000000, rfl, rfl, rfl⟩ rfl)))))))), rfl,
        vacant_of_single rfl ⟨rfl, rfl⟩⟩ <|
    .cons [.go 3, .go 3, .go 3]
      ⟨by simp [Event.isQuiet], rfl, carries_cons rfl rfl (carries_cons rfl rfl
        (carries_cons rfl rfl (carries_cons rfl rfl rfl))), rfl,
        vacant_of_single rfl ⟨rfl, rfl⟩⟩ <|
    .cons [.go 4, .go 4]
      ⟨by simp [Event.isQuiet], rfl, carries_cons rfl rfl (carries_cons rfl rfl
        (carries_cons rfl rfl rfl)), rfl, vacant_of_single rfl ⟨rfl, rfl⟩⟩ <|
    .nil _ _
  have hfollows : FollowsReference (.ofConfig SessionConfig.standard) ⟨⟨["exports"]⟩, none⟩
      (.ofSeconds 60) firstNames 0 plantDisk plantCalls :=
    followsReference_of_calls firstNames_injective plantCalls
  exact ⟨_, _, _, h, by decide, ⟨hfollows.answers h (by decide), hfollows.disk h (by decide)⟩, rfl⟩

end Engine
end Workbench
