import Workbench.Proofs.Engine.Step
import Workbench.Proofs.Worker.Answers

/-!
# The trace of an engine

The state of an engine does not tell who did what, and when.  Its trace does: it is the list of all
events of a run, each with the engine as it was before.  Whatever is asked about the past of a
session or a task is read off the trace.

* `Engine.run?_induction` is the induction along a run, over the trace and the engine together;
* `Engine.notes` is the history of the worker at a seat, and `toldAt_of_run?` says that it is the
  history of a worker of its own: the workers of all sessions run side by side, and what holds of
  one worker holds of each of them;
* `Engine.session_of_step?` is the step of a session, for statements about its life, and
  `Engine.origin_of_step?` says where a session comes from.
-/

namespace Workbench

variable {ρ : Type}

/-! ## 1. Sessions under a change -/

namespace Session

/-- A closed session stays closed, and an open one is not closed by its project. -/
theorem isClosed_attach (s : Session ρ) (label : String) :
    (s.attach label).isClosed = s.isClosed := by
  unfold attach
  split
  · rfl
  · rename_i hc
    rw [Bool.not_eq_true] at hc
    rw [hc]
    rfl

theorem isClosed_detach (s : Session ρ) : s.detach.isClosed = s.isClosed := by
  unfold detach
  split
  · rfl
  · rename_i hc
    rw [Bool.not_eq_true] at hc
    rw [hc]
    rfl

theorem isClosed_beginClose (s : Session ρ) : s.beginClose.1.isClosed = true := by
  unfold beginClose
  split
  · assumption
  · rfl

theorem beginClose_fields (s : Session ρ) : s.beginClose.1.id = s.id ∧
    s.beginClose.1.listed = s.listed ∧ s.beginClose.1.worker = s.worker := by
  unfold beginClose
  split <;> exact ⟨rfl, rfl, rfl⟩

/-- What the end of a job means for a session. -/
theorem record_fields (s : Session ρ) (now : Nat) (job : Job) (answer : JobAnswer) :
    (s.record now job answer).id = s.id ∧ (s.record now job answer).listed = s.listed ∧
      (s.record now job answer).worker = s.worker ∧
      (s.record now job answer).isClosed = s.isClosed := by
  have hattach : ∀ label, (s.touch now |>.attach label).id = s.id ∧
      (s.touch now |>.attach label).listed = s.listed ∧
      (s.touch now |>.attach label).worker = s.worker := by
    intro label
    unfold attach
    split <;> exact ⟨rfl, rfl, rfl⟩
  have hdetach : (s.touch now).detach.id = s.id ∧ (s.touch now).detach.listed = s.listed ∧
      (s.touch now).detach.worker = s.worker := by
    unfold detach
    split <;> exact ⟨rfl, rfl, rfl⟩
  unfold record
  split
  · exact ⟨rfl, rfl, rfl, rfl⟩
  · split
    · exact ⟨rfl, rfl, rfl, rfl⟩
    · split
      · exact ⟨rfl, rfl, rfl, rfl⟩
      · obtain ⟨h₁, h₂, h₃⟩ := hattach (label _)
        exact ⟨h₁, h₂, h₃, isClosed_attach _ _⟩
      · obtain ⟨h₁, h₂, h₃⟩ := hdetach
        exact ⟨h₁, h₂, h₃, isClosed_detach _⟩

/-- A step of its worker leaves a session where it is in its life. -/
theorem advance?_fields {s s' : Session ρ} {now : Nat} {m : Worker.Move ρ JobAnswer}
    (h : s.advance? now m = some s') :
    s'.id = s.id ∧ s'.listed = s.listed ∧ s.worker.advance? m = some s'.worker ∧
      s'.isClosed = s.isClosed := by
  unfold advance? at h
  split at h
  · cases h
  · rename_i w hw
    simp only at h
    split at h
    · cases h
      obtain ⟨h₁, h₂, h₃, h₄⟩ := record_fields { s with worker := w } now _ _
      exact ⟨h₁, h₂, by rw [h₃, hw], h₄⟩
    · cases h
      exact ⟨rfl, rfl, hw, rfl⟩

end Session

namespace Change

/-- What the worker at a seat is told or does in a change. -/
def actionAt? (k : Nat) (c : Change ρ) : Option (Worker.Action ρ Job JobAnswer) :=
  if c.seat? = some k then c.action? else none

/-- The change is possible: a step of a worker is due. -/
def Due (k : Nat) (s : Session ρ) (now : Nat) : Change ρ → Prop
  | work seat move => seat = k → s.advance? now move ≠ none
  | _ => True

/-- **What a change does to a session**: its identifier stays, it can leave the list and be closed,
each for good, and its worker does what it is told or makes a step of its own. -/
structure Altered (k : Nat) (c : Change ρ) (s s' : Session ρ) : Prop where
  id : s'.id = s.id
  listed : s'.listed = (s.listed && c.unlisted? != some s.id)
  closed_iff : s'.isClosed = true ↔ s.isClosed = true ∨ c = .close k
  acts : ∀ a, c.actionAt? k = some a → s.worker.act? a = some s'.worker
  rests : c.actionAt? k = none → s'.worker = s.worker

/-- A session is off the list when its identifier is taken off. -/
theorem altered_of_unlisted {k now : Nat} {c : Change ρ} {s : Session ρ} {id : String}
    (hu : c.unlisted? = some id) : Altered k c s (c.alter k now s) := by
  have hc : c.seat? = none ∧ ∀ seat, c ≠ .close seat := by
    cases c <;> first | exact ⟨rfl, by rintro seat ⟨⟩⟩ | cases hu
  have hrests : c.actionAt? k = none := by simp [actionAt?, hc.1]
  unfold alter
  rw [hu]
  simp only
  rcases Bool.eq_false_or_eq_true (Registry.holds s id) with hh | hh
  · rw [if_pos hh]
    unfold Registry.holds at hh
    simp only [Bool.and_eq_true, beq_iff_eq] at hh
    exact ⟨rfl, by simp [hu, hh.2], ⟨Or.inl, fun h => h.resolve_right (hc.2 k)⟩,
      fun a ha => by simp [hrests] at ha, fun _ => rfl⟩
  · rw [if_neg (by simp [hh])]
    unfold Registry.holds at hh
    refine ⟨rfl, ?_, ⟨Or.inl, fun h => h.resolve_right (hc.2 k)⟩,
      fun a ha => by simp [hrests] at ha, fun _ => rfl⟩
    cases hl : s.listed with
    | false => rfl
    | true =>
      rw [hl, Bool.true_and] at hh
      simp only [hu, Bool.true_and]
      simpa using fun he : id = s.id => by simp [he] at hh

/-- A change that is about another session, or about none, leaves a session alone. -/
theorem altered_of_other {k now : Nat} {c : Change ρ} {s : Session ρ} (hu : c.unlisted? = none)
    (hk : c.seat? ≠ some k) : Altered k c s (c.alter k now s) := by
  unfold alter
  rw [hu]
  simp only
  rw [if_neg hk]
  refine ⟨rfl, by simp [hu], ⟨Or.inl, fun h => h.resolve_right fun hc => ?_⟩, fun a ha => ?_,
    fun _ => rfl⟩
  · subst hc
    exact absurd rfl hk
  · simp [actionAt?, hk] at ha

theorem altered {k now : Nat} {c : Change ρ} {s : Session ρ} (hd : c.Due k s now) :
    Altered k c s (c.alter k now s) := by
  cases hu : c.unlisted? with
  | some id => exact altered_of_unlisted hu
  | none =>
    by_cases hk : c.seat? = some k
    · unfold alter
      rw [hu]
      simp only
      rw [if_pos hk]
      have hact : c.actionAt? k = c.action? := by simp [actionAt?, hk]
      cases c with
      | close seat =>
        cases hk
        refine ⟨?_, ?_, ⟨fun _ => Or.inr rfl, fun _ => s.isClosed_beginClose⟩, ?_, fun _ => ?_⟩
        · simp [on, s.beginClose_fields.1]
        · simp [on, s.beginClose_fields.2.1, unlisted?]
        · simp [hact, action?]
        · simp [on, s.beginClose_fields.2.2]
      | submit | shutdown | awaitEnd =>
        refine ⟨rfl, by simp [on, unlisted?], by simp [on, Session.isClosed], fun a ha => ?_, ?_⟩
        · rw [hact] at ha
          cases ha
          rfl
        · simp [hact, action?]
      | suspect seat =>
        exact ⟨rfl, by simp [on, unlisted?, Session.markSuspect],
          by simp [on, Session.isClosed, Session.markSuspect], by simp [hact, action?],
          fun _ => rfl⟩
      | work seat move =>
        cases hk
        obtain ⟨s', hs'⟩ := Option.ne_none_iff_exists'.mp (hd rfl)
        obtain ⟨h₁, h₂, h₃, h₄⟩ := Session.advance?_fields hs'
        have hon : (work k move).on now s = s' := by simp [on, hs']
        rw [hon]
        refine ⟨h₁, by simp [h₂, unlisted?], by simp [h₄], fun a ha => ?_, ?_⟩
        · rw [hact] at ha
          cases ha
          exact h₃
        · simp [hact, action?]
      | _ => cases hk
    · exact altered_of_other hu hk

end Change

namespace Engine

/-! ## 2. Traces -/

/-- The events of a run, each with the engine as it was before, as far as they are possible. -/
def trace (e : Engine ρ) : List (Event ρ) → List (Engine ρ × Event ρ)
  | [] => []
  | event :: rest =>
    match e.step? event with
    | some e' => (e, event) :: e'.trace rest
    | none => []

/-- **What every event keeps, every run keeps.**  The property may speak of the trace and of the
engine together. -/
theorem run?_induction {P : List (Engine ρ × Event ρ) → Engine ρ → Prop}
    (step : ∀ past e event e', P past e → e.step? event = some e' → P (past ++ [(e, event)]) e')
    {past : List (Engine ρ × Event ρ)} {e e' : Engine ρ} {events : List (Event ρ)}
    (h : e.run? events = some e') (hP : P past e) : P (past ++ e.trace events) e' := by
  induction events generalizing past e with
  | nil =>
    cases h
    simpa [trace] using hP
  | cons event rest ih =>
    simp only [run?] at h
    split at h
    · rename_i e₁ he
      have h₁ := ih h (step past e event e₁ hP he)
      simpa only [trace, he, List.append_assoc, List.singleton_append] using h₁
    · cases h

/-- The same for a property of the engine alone. -/
theorem run?_invariant {P : Engine ρ → Prop}
    (step : ∀ e event e', P e → e.step? event = some e' → P e') {e e' : Engine ρ}
    {events : List (Event ρ)} (h : e.run? events = some e') (hP : P e) : P e' :=
  @run?_induction ρ (fun _ e => P e) (fun _ e event e' => step e event e') [] e e' events h hP

/-- A run goes on from its first event. -/
theorem step_of_run? {e e' : Engine ρ} {event : Event ρ} {later : List (Event ρ)}
    (h : e.run? (event :: later) = some e') :
    ∃ e₁, e.step? event = some e₁ ∧ e₁.run? later = some e' := by
  rw [run?] at h
  split at h
  · exact ⟨_, ‹_›, h⟩
  · cases h

/-- From any event of a run, the rest of the run goes on. -/
theorem rest_of_mem_trace {e e' : Engine ρ} {events : List (Event ρ)}
    (h : e.run? events = some e') {x : Engine ρ × Event ρ} (hx : x ∈ e.trace events) :
    ∃ e₁ rest, x.1.step? x.2 = some e₁ ∧ e₁.run? rest = some e' := by
  induction events generalizing e with
  | nil => cases hx
  | cons event rest ih =>
    simp only [run?] at h
    split at h
    · rename_i e₁ he
      simp only [trace, he, List.mem_cons] at hx
      rcases hx with rfl | hx
      · exact ⟨e₁, rest, he, h⟩
      · exact ih h hx
    · cases h

/-- To any event of a run leads a part of the run. -/
theorem before_of_trace_eq {e : Engine ρ} {events : List (Event ρ)} {x : Engine ρ × Event ρ}
    {before after : List (Engine ρ × Event ρ)} (h : e.trace events = before ++ x :: after) :
    ∃ earlier, e.run? earlier = some x.1 ∧ e.trace earlier = before := by
  induction events generalizing e before with
  | nil => simp [trace] at h
  | cons event rest ih =>
    cases he : e.step? event with
    | none => simp [trace, he] at h
    | some e₁ =>
      simp only [trace, he] at h
      cases before with
      | nil =>
        cases h
        exact ⟨[], rfl, rfl⟩
      | cons y before =>
        obtain ⟨rfl, hrest⟩ := List.cons.inj h
        obtain ⟨earlier, hrun, rfl⟩ := ih hrest
        exact ⟨event :: earlier, by simp [run?, he, hrun], by simp [trace, he]⟩

theorem before_of_mem_trace {e : Engine ρ} {events : List (Event ρ)} {x : Engine ρ × Event ρ}
    (hx : x ∈ e.trace events) : ∃ before after, e.run? before = some x.1 ∧
      e.trace events = e.trace before ++ x :: after := by
  obtain ⟨before, after, h⟩ := List.append_of_mem hx
  obtain ⟨earlier, hrun, rfl⟩ := before_of_trace_eq h
  exact ⟨earlier, after, hrun, h⟩

theorem run?_append (e : Engine ρ) (events more : List (Event ρ)) :
    e.run? (events ++ more) = (e.run? events).bind fun e' => e'.run? more := by
  induction events generalizing e with
  | nil => rfl
  | cons event rest ih =>
    simp only [List.cons_append, run?]
    cases he : e.step? event with
    | none => rfl
    | some e₁ => exact ih e₁

/-- The trace of a run that goes on. -/
theorem trace_append {e e' : Engine ρ} {events : List (Event ρ)} (h : e.run? events = some e')
    (more : List (Event ρ)) : e.trace (events ++ more) = e.trace events ++ e'.trace more := by
  induction events generalizing e with
  | nil =>
    cases h
    rfl
  | cons event rest ih =>
    simp only [run?] at h
    cases he : e.step? event with
    | none => simp [he] at h
    | some e₁ =>
      rw [he] at h
      simp only [List.cons_append, trace, he, ih h]

/-! ## 3. Sessions along a run -/

/-- **The step of a session.** -/
theorem session_of_step? {e e' : Engine ρ} {event : Event ρ} (h : e.step? event = some e') {k : Nat}
    {s : Session ρ} (hs : e.registry.session? k = some s) :
    ∃ s', e'.registry.session? k = some s' ∧ (e.change event).Altered k s s' := by
  refine ⟨(e.change event).alter k e.registry.now s, ?_, ?_⟩
  · rw [registry_of_step? h]
    exact Registry.session?_after_of_some _ hs
  · refine Change.altered ?_
    cases hc : e.change event with
    | work seat move =>
      rintro rfl
      cases steps_of_step? h with
      | work hs' hm =>
        cases hc
        rw [hs] at hs'
        cases hs'
        simp [hm]
      | @go place t t' r ht hg =>
        simp only [change, ht, Task.change] at hc
        have := t.part.isAsked_change e.registry
        rw [hc] at this
        cases this
      | callOff ht =>
        simp only [change, ht] at hc
        cases hc
      | @expire place t t' r ht hg =>
        simp only [change, ht] at hc
        have := Task.isAsked_lapse (ρ := ρ) t
        rw [hc] at this
        cases this
      | _ => cases hc
    | _ => trivial

/-- The session after a step of its worker. -/
theorem advance?_of_step? {e e' : Engine ρ} {k : Nat} {s s' : Session ρ}
    {move : Worker.Move ρ JobAnswer} (h : e.step? (.work k move) = some e')
    (hs : e.registry.session? k = some s) (hs' : e'.registry.session? k = some s') :
    s.advance? e.registry.now move = some s' := by
  cases steps_of_step? h with
  | @work seat move t t' ht hm =>
    rw [hs] at ht
    cases ht
    have hlt : k < e.registry.sessions.length := (List.getElem?_eq_some_iff.mp hs).1
    simp only [Registry.put, Registry.session?, List.getElem?_set_self hlt,
      Option.some.injEq] at hs'
    rw [hm, hs']

/-- A session that was not there has just been registered. -/
theorem born_of_step? {e e' : Engine ρ} {event : Event ρ} (h : e.step? event = some e') {k : Nat}
    {s : Session ρ} (hk : e.registry.session? k = none) (hs : e'.registry.session? k = some s) :
    ∃ metadata, e.change event = .register metadata ∧ k = e.registry.nextSeat ∧
      s = .create (e.registry.ids k) metadata e.registry.settings.maxQueueDepth e.registry.now := by
  rw [registry_of_step? h] at hs
  obtain ⟨metadata, hc, rfl, rfl⟩ := Registry.session?_after_of_none hk hs
  exact ⟨metadata, hc, rfl, rfl⟩

/-- **Where a session comes from**: it was there before, or has just been registered. -/
theorem origin_of_step? {e e' : Engine ρ} {event : Event ρ} (h : e.step? event = some e') {k : Nat}
    {s' : Session ρ} (hs' : e'.registry.session? k = some s') :
    (∃ s, e.registry.session? k = some s ∧ (e.change event).Altered k s s') ∨
      ∃ metadata, e.registry.session? k = none ∧ e.change event = .register metadata ∧
        s' = .create (e.registry.ids k) metadata e.registry.settings.maxQueueDepth
          e.registry.now := by
  cases hs : e.registry.session? k with
  | some s =>
    obtain ⟨s₁, hs₁, ha⟩ := session_of_step? h hs
    rw [hs'] at hs₁
    cases hs₁
    exact Or.inl ⟨s, rfl, ha⟩
  | none =>
    obtain ⟨metadata, hreg, -, hborn⟩ := born_of_step? h hs hs'
    exact Or.inr ⟨metadata, rfl, hreg, hborn⟩

/-- **What is over is over**: a session keeps its identifier, and neither opens again nor returns to
the list. -/
theorem session_of_run? {e e' : Engine ρ} {events : List (Event ρ)} (h : e.run? events = some e')
    {k : Nat} {s : Session ρ} (hs : e.registry.session? k = some s) :
    ∃ s', e'.registry.session? k = some s' ∧ s'.id = s.id ∧
      (s.isClosed = true → s'.isClosed = true) ∧ (s.listed = false → s'.listed = false) := by
  induction events generalizing e s with
  | nil =>
    cases h
    exact ⟨s, hs, rfl, id, id⟩
  | cons event rest ih =>
    simp only [run?] at h
    split at h
    · rename_i e₁ he
      obtain ⟨s₁, hs₁, ha⟩ := session_of_step? he hs
      obtain ⟨s', hs', hid, hclosed, hlisted⟩ := ih h hs₁
      refine ⟨s', hs', hid.trans ha.id, fun hc => hclosed (ha.closed_iff.mpr (Or.inl hc)),
        fun hl => hlisted ?_⟩
      rw [ha.listed, hl]
      rfl
    · cases h

/-- The limits and the identifiers stay as they are. -/
theorem settings_of_step? {e e' : Engine ρ} {event : Event ρ} (h : e.step? event = some e') :
    e'.registry.settings = e.registry.settings ∧ e'.registry.ids = e.registry.ids := by
  rw [registry_of_step? h]
  exact Registry.settings_after _ _

theorem settings_of_run? {e e' : Engine ρ} {events : List (Event ρ)} (h : e.run? events = some e') :
    e'.registry.settings = e.registry.settings ∧ e'.registry.ids = e.registry.ids :=
  run?_invariant (P := fun e' => e'.registry.settings = e.registry.settings ∧
      e'.registry.ids = e.registry.ids)
    (fun _ _ _ hP h => ⟨(settings_of_step? h).1.trans hP.1, (settings_of_step? h).2.trans hP.2⟩) h
    ⟨rfl, rfl⟩

/-- The session at a seat has the identifier of the seat. -/
def Named (e : Engine ρ) : Prop :=
  ∀ k s, e.registry.session? k = some s → s.id = e.registry.ids k

theorem Named.step {e e' : Engine ρ} {event : Event ρ} (hn : Named e)
    (h : e.step? event = some e') : Named e' := by
  intro k s' hs'
  rw [(settings_of_step? h).2]
  obtain ⟨s, hs, ha⟩ | ⟨metadata, -, -, rfl⟩ := origin_of_step? h hs'
  · exact ha.id.trans (hn k s hs)
  · rfl

theorem named_start (settings : SessionSettings) (standard : Duration) (ids : Nat → String)
    (now : Nat) : Named (start settings standard ids now : Engine ρ) := by
  intro k s hs
  simp [start, Registry.start, Registry.session?] at hs

theorem Named.run {e e' : Engine ρ} {events : List (Event ρ)} (hn : Named e)
    (h : e.run? events = some e') : Named e' :=
  run?_invariant (fun _ _ _ hn h => hn.step h) h hn

/-- What is noted of the worker at a seat in an event. -/
def note? (k : Nat) (x : Engine ρ × Event ρ) : Option (Worker.Note ρ Job JobAnswer) :=
  match x.1.registry.session? k with
  | some s => ((x.1.change x.2).actionAt? k).bind s.worker.note?
  | none => none

/-- The history of the worker at a seat. -/
def notes (k : Nat) (past : List (Engine ρ × Event ρ)) : List (Worker.Note ρ Job JobAnswer) :=
  past.filterMap (note? k)

theorem notes_concat (k : Nat) (past : List (Engine ρ × Event ρ)) (x : Engine ρ × Event ρ) :
    notes k (past ++ [x]) = notes k past ++ (note? k x).toList := by
  cases h : note? k x <;> simp [notes, h]

/-- The history of a worker begins with its session. -/
def ToldAt (k : Nat) (past : List (Engine ρ × Event ρ)) (e : Engine ρ) : Prop :=
  match e.registry.session? k with
  | some s => Worker.Told (notes k past) s.worker
  | none => notes k past = []

theorem ToldAt.of_some {k : Nat} {past : List (Engine ρ × Event ρ)} {e : Engine ρ} {s : Session ρ}
    (h : ToldAt k past e) (hs : e.registry.session? k = some s) :
    Worker.Told (notes k past) s.worker := by
  rwa [ToldAt, hs] at h

theorem ToldAt.of_none {k : Nat} {past : List (Engine ρ × Event ρ)} {e : Engine ρ}
    (h : ToldAt k past e) (hs : e.registry.session? k = none) : notes k past = [] := by
  rwa [ToldAt, hs] at h

/-- **Each worker goes its own way.** -/
theorem ToldAt.step {k : Nat} {past : List (Engine ρ × Event ρ)} {e e' : Engine ρ}
    {event : Event ρ} (ht : ToldAt k past e) (h : e.step? event = some e') :
    ToldAt k (past ++ [(e, event)]) e' := by
  unfold ToldAt at ht ⊢
  rw [notes_concat]
  cases hs : e.registry.session? k with
  | some s =>
    rw [hs] at ht
    obtain ⟨s', hs', ha⟩ := session_of_step? h hs
    rw [hs']
    simp only at ht ⊢
    cases hc : (e.change event).actionAt? k with
    | none => simpa [note?, hs, hc, ha.rests hc] using ht
    | some a => simpa [note?, hs, hc] using ht.step (ha.acts a hc)
  | none =>
    rw [hs] at ht
    simp only at ht
    have hn : note? k (e, event) = none := by simp [note?, hs]
    rw [hn, ht]
    cases hs' : e'.registry.session? k with
    | none => rfl
    | some s =>
      obtain ⟨metadata, -, -, rfl⟩ := born_of_step? h hs hs'
      exact Worker.Told.spawn _

/-- **The worker of every session is a worker like any other**, whatever the other tasks and
sessions do. -/
theorem toldAt_of_run? {settings : SessionSettings} {standard : Duration} {ids : Nat → String}
    {now : Nat} {e : Engine ρ} {events : List (Event ρ)}
    (h : (start settings standard ids now).run? events = some e) (k : Nat) :
    ToldAt k ((start settings standard ids now).trace events) e := by
  have h₀ : ToldAt k [] (start settings standard ids now : Engine ρ) := by
    simp [ToldAt, start, Registry.start, Registry.session?, notes]
  exact run?_induction (P := ToldAt k) (fun _ _ _ _ ht h => ht.step h) h h₀

end Engine
end Workbench
