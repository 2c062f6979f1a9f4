import Workbench.Proofs.Engine.Kept
import Workbench.Proofs.Session.Closing
import Workbench.Proofs.Worker.Continuing

/-!
# The verdicts of a sweep

A sweep closes a session that is due.  Whether it is due is asked of the fault of its worker, of the
two counters of its worker and of the session itself.  Nothing holds the worker up meanwhile, and it
may be that an operation is on its way from one counter to the other while the sweep looks from one
to the other.  Then the sweep finds a session to be due that never was.

* `Session.Due` says who is to be closed, and `Engine.FoundDue` whom a sweep finds to be due;
* `Glances` is the first look of a sweep at a worker, and `Undisturbed` says that nothing was on its
  way then and nothing has come in since;
* `Unhurried` is what holds from such a look on, and `Looked` all that is kept about looks
  (`looked_of_run?`);
* `dueAt_of_foundDue` and `foundDue_of_dueAt` say that an undisturbed verdict is right.
-/

namespace Workbench

variable {ρ : Type}

/-! ## 1. Who is due -/

/-- The session is to be closed by a sweep: its worker has faulted, or the worker has nothing to do
and the session is suspected, or has not been used for as long as it may, where there is a limit. -/
def Session.Due (s : Session ρ) (idleTimeout : Duration) (now : Nat) : Prop :=
  s.worker.isFaulted = true ∨ (s.suspect = true ∧ s.worker.isIdle = true) ∨
    (s.worker.isIdle = true ∧ idleTimeout.nanos ≠ 0 ∧ idleTimeout.nanos ≤ now - s.lastActivity)

namespace Session

variable {s : Session ρ} {idleTimeout : Duration} {now : Nat}

theorem isStale_iff : s.isStale idleTimeout now = true ↔
    s.suspect = true ∨ idleTimeout.nanos ≠ 0 ∧ idleTimeout.nanos ≤ now - s.lastActivity := by
  have hidle : (s.idle now).nanos = now - s.lastActivity := rfl
  simp [isStale, Duration.isZero, hidle]

theorem due_iff : s.Due idleTimeout now ↔ s.worker.isFaulted = true ∨
    s.worker.isIdle = true ∧ s.isStale idleTimeout now = true := by
  rw [isStale_iff, Due, and_comm (a := s.suspect = true), ← and_or_left]

theorem isDue_iff : s.isDue idleTimeout now = true ↔ s.Due idleTimeout now := by
  rw [due_iff]
  simp [isDue]

end Session

/-- The session at a seat is open and due. -/
def Registry.DueAt (r : Registry ρ) (k : Nat) (s : Session ρ) : Prop :=
  r.session? k = some s ∧ s.isClosed = false ∧ s.Due r.settings.idleTimeout r.now

namespace Registry

variable {r : Registry ρ} {k : Nat}

/-- A sweep closes the sessions that are open and due. -/
theorem condemns_iff : r.condemns k = true ↔ ∃ s, r.DueAt k s := by
  unfold condemns DueAt
  cases r.session? k with
  | none => simp
  | some s => simp [Session.isDue_iff]

theorem convicts_iff : r.convicts k = true ↔ ∃ s, r.session? k = some s ∧ s.isClosed = false ∧
    s.worker.busy = false ∧ s.isStale r.settings.idleTimeout r.now = true := by
  unfold convicts
  cases r.session? k with
  | none => simp
  | some s => simp [and_assoc]

end Registry

/-- A release closes nobody. -/
theorem Release.change_ne_close (r : Registry ρ) (seat k : Nat) (stage : Release) :
    stage.change r seat ≠ .close k := by
  cases stage with
  | forget =>
    simp only [Release.change]
    split <;> rintro ⟨⟩
  | _ => rintro ⟨⟩

namespace Engine

/-! ## 2. Whom a sweep finds to be due -/

/-- The session at a seat is found to be open and due by the sweep at a place that gives its
verdict on it: in both looks at once, or in the second one if the first is taken. -/
inductive FoundDue (q k : Nat) (e : Engine ρ) (s : Session ρ) : Prop where
  | atOnce {rest : List Nat} {closed : List String}
      (hp : e.partAt q = .sweep (.judge (k :: rest) closed)) (hd : e.registry.DueAt k s)
  | atLast {rest : List Nat} {closed : List String}
      (hp : e.partAt q = .sweep (.weigh k rest closed)) (hs : e.registry.session? k = some s)
      (ho : s.isClosed = false) (hb : s.worker.busy = false)
      (hi : s.isStale e.registry.settings.idleTimeout e.registry.now = true)

/-- The sweep at a place closes the session at a seat in its next step. -/
def condemns (q k : Nat) (e : Engine ρ) : Bool := (e.change (.go q)).closed? == some k

theorem FoundDue.session {q k : Nat} {e : Engine ρ} {s : Session ρ} (h : FoundDue q k e s) :
    e.registry.session? k = some s := by
  cases h with
  | atOnce hp hd => exact hd.1
  | atLast hp hs ho hb hi => exact hs

/-- **A sweep closes whom it finds to be due**, and nobody else. -/
theorem condemns_iff {q k : Nat} {e : Engine ρ} {stage : Sweep} (hp : e.partAt q = .sweep stage) :
    e.condemns q k = true ↔ ∃ s, FoundDue q k e s := by
  have hchange : e.change (.go q) = stage.change e.registry := by
    rw [change_of_go, hp]
    rfl
  rw [condemns, beq_iff_eq, Change.closed?_eq_some, hchange]
  constructor
  · intro hc
    cases stage with
    | scan => cases hc
    | judge rest closed =>
      cases rest with
      | nil => cases hc
      | cons seat rest =>
        simp only [Sweep.change] at hc
        split at hc <;> cases hc
        obtain ⟨s, hd⟩ := Registry.condemns_iff.mp ‹_›
        exact ⟨s, .atOnce hp hd⟩
    | weigh seat rest closed =>
      simp only [Sweep.change] at hc
      split at hc <;> cases hc
      obtain ⟨s, hs, ho, hb, hi⟩ := Registry.convicts_iff.mp ‹_›
      exact ⟨s, .atLast hp hs ho hb hi⟩
    | release seat stage rest closed => exact absurd hc (stage.change_ne_close _ _ _)
  · rintro ⟨s, hd⟩
    cases hd with
    | atOnce hp' hd =>
      rw [hp] at hp'
      cases hp'
      exact if_pos (Registry.condemns_iff.mpr ⟨s, hd⟩)
    | atLast hp' hs ho hb hi =>
      rw [hp] at hp'
      cases hp'
      exact if_pos (Registry.convicts_iff.mpr ⟨s, hs, ho, hb, hi⟩)

theorem FoundDue.condemns {q k : Nat} {e : Engine ρ} {s : Session ρ} (h : FoundDue q k e s) :
    e.condemns q k = true := by
  have hsome := h
  cases h with
  | atOnce hp _ => exact (condemns_iff hp).mpr ⟨s, hsome⟩
  | atLast hp _ _ _ _ => exact (condemns_iff hp).mpr ⟨s, hsome⟩

/-! ## 3. From one look to the next -/

/-- The sweep at a place takes its first look at the worker of the session at a seat, and finds that
nothing waits there. -/
def Glances (q k : Nat) (x : Engine ρ × Event ρ) : Prop :=
  x.2.place? = some q ∧ (∃ rest closed, x.1.partAt q = .sweep (.judge (k :: rest) closed)) ∧
    ∃ s, x.1.registry.session? k = some s ∧ s.isClosed = false ∧ s.worker.isFaulted = false ∧
      s.isStale x.1.registry.settings.idleTimeout x.1.registry.now = true ∧
      s.worker.seemsDrained = true

/-- The sweep at a place has taken its first look at a session, and no turn since. -/
structure Glanced (q k : Nat) (past : List (Engine ρ × Event ρ)) (look : Engine ρ × Event ρ)
    (since : List (Engine ρ × Event ρ)) : Prop where
  split : ∃ before, past = before ++ look :: since
  glance : Glances q k look
  still : ∀ z ∈ since, z.2.place? ≠ some q

/-- The worker at a seat accepts nothing in an event. -/
def AcceptsNone (k : Nat) (x : Engine ρ × Event ρ) : Prop :=
  ∀ n job, note? k x ≠ some (.accepted n job)

/-- Nothing comes between the two looks of the sweep at a place, if it takes two: in the first one
the count is right, and nothing is accepted from then on. -/
def Undisturbed (q k : Nat) (past : List (Engine ρ × Event ρ)) (e : Engine ρ) : Prop :=
  ∀ rest closed, e.partAt q = .sweep (.weigh k rest closed) → ∃ look since,
    Glanced q k past look since ∧
    (∀ s, look.1.registry.session? k = some s → s.worker.pending = 0) ∧
    ∀ z ∈ look :: since, AcceptsNone k z

/-- No operation waits for the worker at a seat; and either the session is stale still, or the
worker has gone on with the last one since, and has ended it well. -/
def Unhurried (k : Nat) (e : Engine ρ) : Prop :=
  ∃ s, e.registry.session? k = some s ∧ s.worker.pending = 0 ∧
    (s.isStale e.registry.settings.idleTimeout e.registry.now = true ∨
      s.worker.phase.isQuiet = true ∧ s.worker.isFaulted = false)

end Engine

namespace Worker

variable {J A : Type} {w w' : Worker ρ J A} {a : Action ρ J A}

/-- Only an operation that is accepted raises the count. -/
theorem pending_of_act? (hw : w.act? a = some w') (hn : ∀ n j, w.note? a ≠ some (.accepted n j)) :
    w'.pending ≤ w.pending := by
  cases acts_of_act? hw with
  | @accepted _ j hr => exact absurd (by simp [note?, hr]) (hn w.replies.length j)
  | refused _ | shutDown _ | shutBefore _ | awaited | abandoned _ => exact Nat.le_refl _
  | moved hm =>
    cases hm with
    | start hp hq => exact Nat.sub_le _ _
    | _ => exact Nat.le_refl _

/-- Nothing goes wrong at a worker that has nothing to do. -/
theorem quiet_of_act? (hw : w.act? a = some w') (hc : w.Counted) (hp : w.pending = 0)
    (hq : w.phase.isQuiet = true) (hf : w.isFaulted = false) :
    w'.phase.isQuiet = true ∧ w'.isFaulted = false := by
  cases acts_of_act? hw with
  | accepted _ | refused _ | shutBefore _ | awaited | abandoned _ => exact ⟨hq, hf⟩
  | shutDown hconnected =>
    have hfaulted := w.isFaulted_shutdown
    simp only [shutdown, hconnected, if_true] at hfaulted
    exact ⟨hq, hfaulted.trans hf⟩
  | moved hm =>
    cases hm with
    | start hphase hqueue =>
      have hcount := hc.pending (by rw [hphase]; rfl)
      rw [hp, waiting, hqueue] at hcount
      cases hcount
    | takeStop | notice | hangUp | hangUpUnbuilt | discard => exact ⟨rfl, hf⟩
    | _ hphase =>
      rw [hphase] at hq
      cases hq

end Worker

namespace Engine

section Looking

variable {k : Nat} {past : List (Engine ρ × Event ρ)} {e e' : Engine ρ} {event : Event ρ}
  {s s' : Session ρ}

/-- A session is stale until a job ends. -/
theorem isStale_of_step? (h : e.step? event = some e') (hs : e.registry.session? k = some s)
    (hs' : e'.registry.session? k = some s') (hn : ∀ r a, event ≠ .work k (.finish r a))
    (hstale : s.isStale e.registry.settings.idleTimeout e.registry.now = true) :
    s'.isStale e'.registry.settings.idleTimeout e'.registry.now = true := by
  have hactivity : s'.lastActivity = s.lastActivity := by
    by_cases hwork : ∃ move, event = .work k move
    · obtain ⟨move, rfl⟩ := hwork
      rcases Session.advance?_cases (advance?_of_step? h hs hs') with
        ⟨-, r, -, -, answer, rfl, -⟩ | ⟨-, hkept⟩
      · exact absurd rfl (hn r answer)
      · rw [hkept]
    · have halter := Registry.session?_after_of_some (e.change event) hs
      rw [← registry_of_step? h, hs'] at halter
      rw [Option.some.inj halter]
      exact Change.lastActivity_alter s fun move hc => hwork ⟨move, work_of_change hc⟩
  have hnow := now_le_of_step? h
  rw [Session.isStale_iff] at hstale ⊢
  rw [(settings_of_step? h).1, (kept_of_step? h hs hs').2.2, hactivity]
  rcases hstale with hsuspect | ⟨hlimit, hle⟩
  · exact Or.inl (Or.inl hsuspect)
  · exact Or.inr ⟨hlimit, by omega⟩

/-- **From a look on that finds no operation, none waits**, and no fault comes from a job that has
ended, as long as nothing is accepted. -/
theorem Unhurried.step (hu : Unhurried k e) (htold : ToldAt k past e)
    (hcounted : Workers Worker.Counted e) (h : e.step? event = some e')
    (hn : AcceptsNone k (e, event)) : Unhurried k e' := by
  obtain ⟨s, hs, hpending, hstands⟩ := hu
  obtain ⟨s', hs', ha⟩ := session_of_step? h hs
  refine ⟨s', hs', ?_⟩
  cases hact : (e.change event).actionAt? k with
  | none =>
    rw [ha.rests hact]
    refine ⟨hpending, hstands.imp_left fun hstale => isStale_of_step? h hs hs' ?_ hstale⟩
    rintro r a rfl
    simp [change, Change.actionAt?, Change.seat?, Change.action?] at hact
  | some a =>
    have hw := ha.acts a hact
    have hnone : ∀ n j, s.worker.note? a ≠ some (.accepted n j) := by
      intro n j hnote
      exact hn n j (by simp [note?, hs, hact, hnote])
    refine ⟨Nat.le_zero.mp (hpending ▸ Worker.pending_of_act? hw hnone), ?_⟩
    rcases hstands with hstale | ⟨hquiet, hfaulted⟩
    · by_cases hfinish : ∃ r x, event = .work k (.finish r x)
      · obtain ⟨r, x, rfl⟩ := hfinish
        -- the job has ended, so the worker has not faulted on it
        have hfate := (htold.of_some hs).fate
        simp only [change, Change.actionAt?, Change.seat?, Change.action?, if_true,
          Option.some.injEq] at hact
        subst hact
        generalize s'.worker = w' at hw
        cases Worker.acts_of_act? hw with
        | moved hm =>
          cases hm with
          | finish hp =>
            rw [Worker.Fated, hp] at hfate
            exact Or.inr ⟨rfl, hfate.2⟩
      · refine Or.inl (isStale_of_step? h hs hs' ?_ hstale)
        rintro r x rfl
        exact hfinish ⟨r, x, rfl⟩
    · exact Or.inr (Worker.quiet_of_act? hw (hcounted k s hs) hpending hquiet hfaulted)

/-- Only a first look brings a sweep to the second. -/
theorem glance_of_goes {r : Registry ρ} {p : Part} {c : Change ρ} {rest : List Nat}
    {closed : List String} (h : p.Goes r (.sweep (.weigh k rest closed)) c) :
    p = .sweep (.judge (k :: rest) closed) ∧ ∃ s, r.session? k = some s ∧ s.isClosed = false ∧
      s.worker.isFaulted = false ∧ s.isStale r.settings.idleTimeout r.now = true ∧
      s.worker.seemsDrained = true := by
  cases h with
  | begin hp => cases hp
  | entered hp => cases hp
  | sweep hs => cases Sweep.steps_of_step hs
  | strayed hs =>
    cases Sweep.detours_of_detour? hs with
    | glanced hsession ho hf hi hd => exact ⟨rfl, _, hsession, ho, hf, hi, hd⟩
  | @sweepExpired stage _ hs =>
    cases stage with
    | release seat stage rest closed =>
      obtain ⟨_, -, hsame⟩ := Option.map_eq_some_iff.mp hs
      cases hsame
    | _ => cases hs

/-- What is kept about the looks of all sweeps, from the beginning of a run. -/
structure Looked (past : List (Engine ρ × Event ρ)) (e : Engine ρ) : Prop where
  told : ∀ k, ToldAt k past e
  counted : Workers Worker.Counted e
  glanced : ∀ q k rest closed, e.partAt q = .sweep (.weigh k rest closed) →
    ∃ look since, Glanced q k past look since
  unhurried : ∀ k before look since, past = before ++ look :: since → Unhurried k look.1 →
    (∀ z ∈ look :: since, AcceptsNone k z) → Unhurried k e

/-- **Every event keeps that.** -/
theorem Looked.step (hl : Looked past e) (h : e.step? event = some e') :
    Looked (past ++ [(e, event)]) e' where
  told k := (hl.told k).step h
  counted := hl.counted.step Worker.Counted.spawn (fun _ _ _ hc hw => hc.step hw) h
  glanced q k rest closed hp := by
    rcases partAt_of_step? h q with ⟨hplace, hgoes⟩ | ⟨hplace, hsame | ⟨-, hinitial⟩⟩
    · rw [hp] at hgoes
      obtain ⟨hjudge, hlook⟩ := glance_of_goes hgoes
      exact ⟨(e, event), [], ⟨past, rfl⟩, ⟨hplace, ⟨rest, closed, hjudge⟩, hlook⟩, by simp⟩
    · rw [hp] at hsame
      obtain ⟨look, since, ⟨before, hsplit⟩, hlook, hstill⟩ := hl.glanced q k rest closed hsame.symm
      refine ⟨look, since ++ [(e, event)], ⟨before, by simp [hsplit]⟩, hlook, fun z hz => ?_⟩
      rcases List.mem_append.mp hz with hz | hz
      · exact hstill z hz
      · rw [List.mem_singleton.mp hz]
        exact hplace
    · rw [hp] at hinitial
      cases hinitial
  unhurried k before look since hsplit hlook hnone := by
    rcases Worker.concat_eq_append_cons hsplit with ⟨-, -, rfl⟩ | ⟨kept, rfl, hpast⟩
    · exact hlook.step (hl.told k) hl.counted h (hnone _ (by simp))
    · have hu : Unhurried k e := hl.unhurried k before look kept hpast hlook fun z hz =>
        hnone z (List.mem_append_left _ hz)
      exact hu.step (hl.told k) hl.counted h (hnone _ (by simp))

end Looking

/-- And so does every run. -/
theorem Looked.run {past : List (Engine ρ × Event ρ)} {e e' : Engine ρ} {events : List (Event ρ)}
    (hl : Looked past e) (h : e.run? events = some e') : Looked (past ++ e.trace events) e' :=
  run?_induction (P := Looked) (fun _ _ _ _ hl h => hl.step h) h hl

/-- **What is kept about looks holds along every run.** -/
theorem looked_of_run? {settings : SessionSettings} {standard : Duration} {ids : Nat → String}
    {now : Nat} {e : Engine ρ} {events : List (Event ρ)}
    (h : (start settings standard ids now).run? events = some e) :
    Looked ((start settings standard ids now).trace events) e := by
  have hbase : Looked [] (start settings standard ids now : Engine ρ) := by
    refine ⟨fun k => ?_, workers_start _ _ _ _ _, ?_, ?_⟩
    · simp [ToldAt, start, Registry.start, Registry.session?, notes]
    · intro q k rest closed hp
      simp [partAt, start] at hp
    · intro k before look since hsplit
      simp at hsplit
  exact hbase.run h

/-! ## 4. Undisturbed verdicts -/

section Undisturbed

variable {q k : Nat} {past : List (Engine ρ × Event ρ)} {e : Engine ρ} {s : Session ρ}

/-- Before the second look of an undisturbed verdict, no operation waits. -/
theorem Looked.unhurried_of_undisturbed (hl : Looked past e) {rest : List Nat}
    {closed : List String} (hp : e.partAt q = .sweep (.weigh k rest closed))
    (hu : Undisturbed q k past e) : Unhurried k e := by
  obtain ⟨look, since, ⟨⟨before, hsplit⟩, ⟨-, -, s, hs, -, -, hi, -⟩, -⟩, hpending, hnone⟩ :=
    hu rest closed hp
  exact hl.unhurried k before look since hsplit ⟨s, hs, hpending s hs, Or.inl hi⟩ hnone

/-- **An undisturbed sweep finds only sessions to be due that are.** -/
theorem dueAt_of_foundDue (hl : Looked past e) (hu : Undisturbed q k past e)
    (h : FoundDue q k e s) : e.registry.DueAt k s := by
  cases h with
  | atOnce hp hd => exact hd
  | atLast hp hs ho hb hi =>
    obtain ⟨s', hs', hpending, -⟩ := hl.unhurried_of_undisturbed hp hu
    rw [hs] at hs'
    cases hs'
    exact ⟨hs, ho, Session.due_iff.mpr (Or.inr ⟨by simp [Worker.isIdle, hpending, hb], hi⟩)⟩

/-- A worker that has faulted is not at work. -/
theorem not_busy_of_isFaulted (hl : Looked past e) (hs : e.registry.session? k = some s)
    (hf : s.worker.isFaulted = true) : s.worker.busy = false := by
  refine Bool.eq_false_iff.mpr fun hb => ?_
  have hunderway := (hl.counted k s hs).busy.mp hb
  have hfate := ((hl.told k).of_some hs).fate
  unfold Worker.underway at hunderway
  split at hunderway
  · rename_i r ticket job hp
    rw [Worker.Fated, hp] at hfate
    rw [hfate.2] at hf
    cases hf
  · exact hunderway rfl

/-- **And it finds all of them.** -/
theorem foundDue_of_dueAt (hl : Looked past e) (hu : Undisturbed q k past e) {rest : List Nat}
    {closed : List String} (hp : e.partAt q = .sweep (.weigh k rest closed))
    (h : e.registry.DueAt k s) : FoundDue q k e s := by
  obtain ⟨hs, ho, hdue⟩ := h
  obtain ⟨s', hs', hpending, hstands⟩ := hl.unhurried_of_undisturbed hp hu
  rw [hs] at hs'
  cases hs'
  rcases Session.due_iff.mp hdue with hf | ⟨hidle, hstale⟩
  · refine .atLast hp hs ho (not_busy_of_isFaulted hl hs hf) ?_
    refine hstands.resolve_right fun hquiet => ?_
    rw [hquiet.2] at hf
    cases hf
  · refine .atLast hp hs ho ?_ hstale
    simp only [Worker.isIdle, Bool.and_eq_true, Bool.not_eq_true'] at hidle
    exact hidle.2

end Undisturbed

end Engine
end Workbench
