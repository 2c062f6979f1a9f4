import Workbench.Proofs.Session.LoneCalls
import Workbench.Proofs.Session.Surroundings
import Workbench.Proofs.Tool.Deadlines
import Workbench.Proofs.Worker.Continuing

/-!
# The work of a session, replayed

What the worker of a session has done can be done again without the worker: its jobs are carried out
one after the other on its workspace and on the disk, and each leaves its mark on the session.

* `Bench` is what the jobs work on, and `Bench.serve` carries out one of them;
* `Engine.Replays` says that the worker at a seat, from some moment on, has done just that, if no
  other worker ends a job meanwhile; it is kept by every event (`Replays.step`, `replays_of_run?`);
* `Bench.serveAll_alike`: jobs that differ in their deadlines only come to the same at any times.
-/

namespace Workbench

/-! ## 1. The mark of a job -/

/-- What a session tells of its project. -/
structure Mark where
  state : SessionState
  attached : Option String
  deriving DecidableEq, Repr

/-- The mark of a session at this moment. -/
def Session.mark {ρ : Type} (s : Session ρ) : Mark := ⟨s.state, s.attached⟩

/-- The mark after a job, as its answer says.  That of a closed session stays. -/
def Mark.after (m : Mark) (job : Job) (answer : JobAnswer) : Mark :=
  match job with
  | .release => m
  | .tool info _ =>
    match answer with
    | .error _ => m
    | .ok out =>
      match info.onSuccess with
      | .none => m
      | .attach => if m.state == .closed then m else ⟨.resourceAttached, some (Session.label out)⟩
      | .detach => if m.state == .closed then m else ⟨.created, none⟩

theorem Session.mark_record {ρ : Type} (s : Session ρ) (now : Nat) (job : Job)
    (answer : JobAnswer) : (s.record now job answer).mark = s.mark.after job answer := by
  cases job with
  | release => rfl
  | tool info arguments =>
    cases answer with
    | error e => rfl
    | ok out =>
      simp only [record, Mark.after]
      cases info.onSuccess with
      | none => rfl
      | attach => cases hs : s.state <;> simp [attach, mark, touch, isClosed, hs]
      | detach => cases hs : s.state <;> simp [detach, mark, touch, isClosed, hs]

theorem Job.SameButDeadline.after {job job' : Job} (h : job.SameButDeadline job') (m : Mark)
    (answer : JobAnswer) : m.after job answer = m.after job' answer := by
  cases h <;> rfl

/-! ## 2. Jobs without a worker -/

/-- What the jobs of a session work on, and what they have answered so far. -/
structure Bench where
  workspace : Workspace
  disk : Disk
  mark : Mark
  answers : List JobAnswer

namespace Bench

/-- Carries out a job at a moment. -/
def serve (context : PlanContext) (b : Bench) (x : Job × Timestamp) : Bench :=
  let o := b.workspace.carryOut context b.disk x.2 x.1
  ⟨o.workspace, o.disk, b.mark.after x.1 o.result, b.answers ++ [o.result]⟩

/-- Carries out jobs, one after the other, each at its moment. -/
def serveAll (context : PlanContext) (b : Bench) (done : List (Job × Timestamp)) : Bench :=
  done.foldl (serve context) b

/-- Two benches are the same apart from times. -/
structure Alike (b b' : Bench) : Prop where
  workspace : b.workspace = b'.workspace
  disk : b.disk.Alike Workspace.SavedAlike b'.disk
  mark : b.mark = b'.mark
  answers : b.answers = b'.answers

theorem Alike.refl (b : Bench) : b.Alike b := ⟨rfl, .refl .same _, rfl, rfl⟩

theorem serve_alike {context : PlanContext} {b b' : Bench} (h : b.Alike b')
    {x x' : Job × Timestamp} (hjob : x.1.SameButDeadline x'.1) :
    (b.serve context x).Alike (b'.serve context x') := by
  have ho := Workspace.carryOut_alike (hjob.agrees context) b.workspace h.disk x.2 x'.2
  simp only [serve]
  rw [← h.workspace, ← h.mark, ← h.answers, ← ho.result, hjob.after]
  exact ⟨ho.workspace, ho.disk, rfl, rfl⟩

/-- **Jobs that differ in their deadlines come to the same**, whenever they are carried out. -/
theorem serveAll_alike {context : PlanContext} {b b' : Bench} (h : b.Alike b')
    {done done' : List (Job × Timestamp)}
    (hjobs : List.Forall₂ Job.SameButDeadline (done.map Prod.fst) (done'.map Prod.fst)) :
    (b.serveAll context done).Alike (b'.serveAll context done') := by
  induction done generalizing b b' done' with
  | nil =>
    cases done' with
    | nil => exact h
    | cons x' done' => cases hjobs
  | cons x done ih =>
    cases done' with
    | nil => cases hjobs
    | cons x' done' =>
      rw [List.map_cons, List.map_cons, List.forall₂_cons] at hjobs
      exact ih (serve_alike h hjobs.1) hjobs.2

theorem serveAll_concat (context : PlanContext) (b : Bench) (done : List (Job × Timestamp))
    (x : Job × Timestamp) :
    b.serveAll context (done ++ [x]) = (b.serveAll context done).serve context x := by
  simp only [serveAll, List.foldl_append, List.foldl_cons, List.foldl_nil]

end Bench

/-! ## 3. The worker at a seat -/

namespace Engine

open Worker.History

/-- No job ends in the event, unless it is one of the session at the seat. -/
def SparesDisk (k : Nat) : Event Workspace → Prop
  | .work seat (.finish _ _) => seat = k
  | _ => True

/-- **What the worker at a seat has done since a moment can be done again**: the jobs that have
ended since, each at some time, bring the workspace, the disk and the mark of the session to where
they are, and answer what was answered. -/
structure Replays (context : PlanContext) (k : Nat) (s₀ : Session Workspace) (w₀ : Workspace)
    (d₀ : Disk) (past : List (Engine Workspace × Event Workspace)) (s : Session Workspace)
    (w : Workspace) (d : Disk) : Prop where
  continues : Worker.Continues s₀.worker (notes k past) s.worker
  done : ∃ (done : List (Job × Timestamp)) (answers : List JobAnswer),
    (ended (notes k past)).map (fun x => x.1.2) = done.map Prod.fst ∧
    (ended (notes k past)).map Prod.snd = answers.map some ∧
    (⟨w₀, d₀, s₀.mark, []⟩ : Bench).serveAll context done = ⟨w, d, s.mark, answers⟩

/-- A workspace that is there was there before. -/
theorem workspace?_of_act? {w w' : Worker Workspace Job JobAnswer}
    {a : Worker.Action Workspace Job JobAnswer} (hw : w.act? a = some w') {v' : Workspace}
    (hv' : w'.phase.workspace? = some v') : ∃ v, w.phase.workspace? = some v := by
  cases Worker.acts_of_act? hw with
  | moved hm =>
    cases hm with
    | built hp => exact ⟨.empty, by rw [hp]; rfl⟩
    | start hp hq => exact ⟨_, by rw [hp]; rfl⟩
    | finish hp => exact ⟨_, by rw [hp]; rfl⟩
    | _ => cases hv'
  | _ => exact ⟨v', hv'⟩

theorem listens_of_workspace? {J : Type} {p : Phase Workspace J} {w : Workspace}
    (h : p.workspace? = some w) : p.listens = true := by
  cases p <;> first | rfl | cases h

/-- Only a job that ends is noted as one. -/
theorem ended_note? {ρ J A : Type} {w : Worker ρ J A} {a : Worker.Action ρ J A}
    (hf : ∀ r x, a ≠ .move (.finish r x)) (hc : ∀ r, a ≠ .move (.crash r)) :
    ended (w.note? a).toList = [] := by
  cases a with
  | submit bounded j =>
    simp only [Worker.note?]
    split <;> rfl
  | move m =>
    cases m with
    | finish r x => exact absurd rfl (hf r x)
    | crash r => exact absurd rfl (hc r)
    | start =>
      simp only [Worker.note?]
      split <;> rfl
    | _ => rfl
  | _ => rfl

/-- A workspace changes only when it is built or when a job ends. -/
theorem workspace?_of_advance? {w w' : Worker Workspace Job JobAnswer}
    {m : Worker.Move Workspace JobAnswer} (hm : w.advance? m = some w')
    (hf : ∀ r x, m ≠ .finish r x) (hb : ∀ r, m = .built r → r = .empty) {v v' : Workspace}
    (hv : w.phase.workspace? = some v) (hv' : w'.phase.workspace? = some v') : v' = v := by
  cases Worker.advance_of_advance? hm with
  | built hp =>
    rw [hp] at hv
    cases hv
    cases hv'
    exact hb _ rfl
  | start hp hq =>
    rw [hp] at hv
    cases hv
    cases hv'
    rfl
  | finish hp => exact absurd rfl (hf _ _)
  | _ => cases hv'

section Replaying

variable {context : PlanContext} {k : Nat} {e e' : Engine Workspace} {event : Event Workspace}
  {d d' : Disk}

/-- An event in which no job ends leaves the disk alone. -/
theorem disk_of_leads (hd : Workspace.backend.Leads context e d d' event)
    (hquiet : ∀ seat r a, event ≠ .work seat (.finish r a)) : d' = d := by
  cases event with
  | work seat move =>
    cases move with
    | built r => exact (Workspace.leads_built hd).2
    | buildFailed reason => exact absurd hd Workspace.not_leads_buildFailed
    | finish r a => exact absurd rfl (hquiet seat r a)
    | crash r => exact absurd hd Workspace.not_leads_crash
    | _ => exact hd
  | _ => exact hd

/-- The mark of a session stays, unless it is closed or its worker moves. -/
theorem mark_of_step? {s s' : Session Workspace} (h : e.step? event = some e')
    (hs : e.registry.session? k = some s) (hs' : e'.registry.session? k = some s')
    (hopen : s'.isClosed = false) (hwork : ∀ move, event ≠ .work k move) :
    s'.mark = s.mark ∧ s'.worker.phase = s.worker.phase := by
  obtain ⟨s₁, hs₁, ha⟩ := session_of_step? h hs
  rw [hs'] at hs₁
  cases hs₁
  have hclose : e.change event ≠ .close k := by
    intro hc
    rw [ha.closed_iff.mpr (.inr hc)] at hopen
    cases hopen
  have hmove : ∀ move, e.change event ≠ .work k move :=
    fun move hc => hwork move (work_of_change hc)
  have halter := Registry.session?_after_of_some (e.change event) hs
  rw [← registry_of_step? h, hs'] at halter
  cases halter
  obtain ⟨hstate, hattached, hphase⟩ := Change.still_of_alter e.registry.now s hclose hmove
  exact ⟨congrArg₂ Mark.mk hstate hattached, hphase⟩

variable {s₀ s s' : Session Workspace} {w₀ w w' : Workspace} {d₀ : Disk}
  {past : List (Engine Workspace × Event Workspace)}

theorem Replays.refl (s₀ : Session Workspace) (w₀ : Workspace) (d₀ : Disk) :
    Replays context k s₀ w₀ d₀ [] s₀ w₀ d₀ where
  continues := .refl _
  done := ⟨[], [], rfl, rfl, rfl⟩

/-- Nothing is carried out where no job ends. -/
theorem Replays.kept (hr : Replays context k s₀ w₀ d₀ past s w d) {more}
    (hc : Worker.Continues s₀.worker (notes k (past ++ more)) s'.worker)
    (he : ended (notes k (past ++ more)) = ended (notes k past)) (hmark : s'.mark = s.mark) :
    Replays context k s₀ w₀ d₀ (past ++ more) s' w d where
  continues := hc
  done := by
    rw [he, hmark]
    exact hr.done

/-- A step of the worker at the seat carries out the job that ends in it. -/
theorem Replays.work (hr : Replays context k s₀ w₀ d₀ past s w d) {now : Nat}
    {move : Worker.Move Workspace JobAnswer} (hs : e.registry.session? k = some s)
    (hm : s.advance? now move = some s') (hw : s.worker.phase.workspace? = some w)
    (hw' : s'.worker.phase.workspace? = some w')
    (hd : Workspace.backend.Leads context e d d' (.work k move)) :
    Replays context k s₀ w₀ d₀ (past ++ [(e, .work k move)]) s' w' d' := by
  have hact : s.worker.act? (.move move) = some s'.worker := (Session.advance?_fields hm).2.2.1
  have hnote : notes k (past ++ [(e, .work k move)]) =
      notes k past ++ (s.worker.note? (.move move)).toList := by
    rw [notes_concat]
    simp only [note?, hs, change, Change.actionAt?, Change.seat?, Change.action?, if_true,
      Option.bind_some]
  have hc := hr.continues.step hact (listens_of_workspace? hw')
  rw [← hnote] at hc
  rcases Session.advance?_cases hm with
    ⟨v, r, ticket, job, answer, rfl, hp, hp', hs'⟩ | ⟨hother, hs'⟩
  · -- the job is carried out on what the earlier ones have left
    rw [hp] at hw
    rw [hp'] at hw'
    cases hw
    cases hw'
    obtain ⟨at', hdisk, hworkspace, hresult⟩ := Workspace.leads_finish hd hs hp
    obtain ⟨done, answers, hjobs, hanswers, hall⟩ := hr.done
    have hended : ended (notes k (past ++ [(e, .work k (.finish w' answer))])) =
        ended (notes k past) ++ [((ticket, job), some answer)] := by
      rw [hnote]
      simp [Worker.note?, hp]
    refine ⟨hc, done ++ [(job, at')], answers ++ [answer], ?_, ?_, ?_⟩
    · simp only [hended, List.map_append, hjobs, List.map_cons, List.map_nil]
    · simp only [hended, List.map_append, hanswers, List.map_cons, List.map_nil]
    · have hmark : s'.mark = s.mark.after job answer := by
        rw [hs', Session.mark_record]
        rfl
      rw [Bench.serveAll_concat, hall, hmark]
      simp only [Bench.serve, hdisk, hworkspace, hresult]
  · have hmark : s'.mark = s.mark := by
      rw [hs']
      rfl
    have hcrash : ∀ r, move ≠ .crash r := by
      rintro r rfl
      exact Workspace.not_leads_crash hd
    have hdisk : d' = d := disk_of_leads hd fun seat r a heq => by
      cases heq
      exact hother _ _ rfl
    have hsame : w' = w := workspace?_of_advance? (Session.advance?_fields hm).2.2.1 hother
      (fun r hr => (Workspace.leads_built (hr ▸ hd)).1) hw hw'
    subst hdisk hsame
    refine hr.kept hc ?_ hmark
    rw [hnote, ended_append, ended_note? (fun r x => by rintro ⟨⟩; exact hother r x rfl)
      (fun r => by rintro ⟨⟩; exact hcrash r rfl), List.append_nil]

/-- **Every event keeps to the replay**, while the session is open. -/
theorem Replays.step (hr : Replays context k s₀ w₀ d₀ past s w d) (h : e.step? event = some e')
    (hs : e.registry.session? k = some s) (hs' : e'.registry.session? k = some s')
    (hopen : s'.isClosed = false) (hw : s.worker.phase.workspace? = some w)
    (hw' : s'.worker.phase.workspace? = some w')
    (hd : Workspace.backend.Leads context e d d' event) (hspare : SparesDisk k event) :
    Replays context k s₀ w₀ d₀ (past ++ [(e, event)]) s' w' d' := by
  by_cases hwork : ∃ move, event = .work k move
  · obtain ⟨move, rfl⟩ := hwork
    exact hr.work hs (advance?_of_step? h hs hs') hw hw' hd
  · have hwork' : ∀ move, event ≠ .work k move := fun move heq => hwork ⟨move, heq⟩
    obtain ⟨hmark, hphase⟩ := mark_of_step? h hs hs' hopen hwork'
    have hdisk : d' = d := disk_of_leads hd fun seat r a heq => by
      subst heq
      cases (show seat = k from hspare)
      exact hwork' _ rfl
    rw [hphase, hw] at hw'
    cases hw'
    subst hdisk
    obtain ⟨s₁, hs₁, ha⟩ := session_of_step? h hs
    rw [hs'] at hs₁
    cases hs₁
    have hnotes := notes_concat k past (e, event)
    cases hact : (e.change event).actionAt? k with
    | none =>
      have hnone : note? k (e, event) = none := by simp only [note?, hs, hact, Option.bind_none]
      rw [hnone, Option.toList_none, List.append_nil] at hnotes
      refine hr.kept ?_ (by rw [hnotes]) hmark
      rw [hnotes, ha.rests hact]
      exact hr.continues
    | some a =>
      have hsome : note? k (e, event) = s.worker.note? a := by
        simp only [note?, hs, hact, Option.bind_some]
      have hmove : ∀ m, a ≠ .move m := by
        rintro m rfl
        exact hwork' m (work_of_change (Change.work_of_actionAt? hact))
      rw [hsome] at hnotes
      refine hr.kept ?_ ?_ hmark
      · rw [hnotes]
        exact hr.continues.step (ha.acts a hact)
          (listens_of_workspace? (by rw [hphase]; exact hw))
      · rw [hnotes, ended_append, ended_note? (fun r x => hmove _) (fun r => hmove _),
          List.append_nil]

/-- **Along a run, the worker at a seat does what can be done again without it**, if its session is
open at the end and no other worker ends a job meanwhile. -/
theorem replays_of_run? {e₀ : Engine Workspace} {events : List (Event Workspace)}
    (h : e₀.run? events = some e) (hs₀ : e₀.registry.session? k = some s₀)
    (hs : e.registry.session? k = some s) (hopen : s.isClosed = false)
    (hw : s.worker.phase.workspace? = some w)
    (hd : Workspace.backend.Carries context d₀ (e₀.trace events) d)
    (hspare : ∀ x ∈ e₀.trace events, SparesDisk k x.2) :
    ∃ w₀, s₀.worker.phase.workspace? = some w₀ ∧
      Replays context k s₀ w₀ d₀ (e₀.trace events) s w d := by
  let P : List (Engine Workspace × Event Workspace) → Engine Workspace → Prop := fun past e =>
    ∃ s, e.registry.session? k = some s ∧ ∀ w d, s.isClosed = false →
      s.worker.phase.workspace? = some w → Workspace.backend.Carries context d₀ past d →
      (∀ x ∈ past, SparesDisk k x.2) → ∃ w₀, s₀.worker.phase.workspace? = some w₀ ∧
        Replays context k s₀ w₀ d₀ past s w d
  have hbase : P [] e₀ := by
    refine ⟨s₀, hs₀, fun w d hopen hw hd hspare => ⟨w, hw, ?_⟩⟩
    rw [show d = d₀ from hd]
    exact .refl s₀ w d₀
  have hstep : ∀ past e event e', P past e → e.step? event = some e' →
      P (past ++ [(e, event)]) e' := by
    rintro past e event e' ⟨s, hs, hP⟩ hevent
    obtain ⟨s', hs', ha⟩ := session_of_step? hevent hs
    refine ⟨s', hs', fun w' d' hopen hw' hd' hspare => ?_⟩
    obtain ⟨d, hd, hlead⟩ := Backend.carries_concat.mp hd'
    have hwas : s.isClosed = false := by
      rw [← Bool.not_eq_true] at hopen ⊢
      exact fun hc => hopen (ha.closed_iff.mpr (.inl hc))
    have hbefore : ∃ w, s.worker.phase.workspace? = some w := by
      cases hact : (e.change event).actionAt? k with
      | none => exact ⟨w', by rw [← ha.rests hact]; exact hw'⟩
      | some a => exact workspace?_of_act? (ha.acts a hact) hw'
    obtain ⟨w, hw⟩ := hbefore
    obtain ⟨w₀, hw₀, hr⟩ := hP w d hwas hw hd fun x hx => hspare x (List.mem_append_left _ hx)
    exact ⟨w₀, hw₀, hr.step hevent hs hs' hopen hw hw' hlead (hspare (e, event) (by simp))⟩
  obtain ⟨s₁, hs₁, hall⟩ := run?_induction (P := P) hstep h hbase
  rw [hs] at hs₁
  cases hs₁
  exact hall w d hopen hw hd hspare

end Replaying
end Engine
end Workbench
