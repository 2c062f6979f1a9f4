import Workbench.Proofs.Engine.Crew
import Workbench.Proofs.Engine.Hosting
import Workbench.Proofs.Session.Patience
import Workbench.Proofs.Session.Tally

/-!
# The activity of a session

A session that is not used is put away after a while.  What counts as its use is the end of a tool
that a call has brought to its worker, and nothing else: not a look at the session, not a call that
is refused or given up, and neither a crash nor the release.

* `returned?` is the tool that has come to its end in an event, with the moment, and `returns` are
  those of a trace;
* `lastActivity_of_step?` says what one event makes of the last activity of a session, and
  `Reckoned` what a whole run does (`Reckoned.step`);
* `Activity` is all that counts for the idle time of a session (`activity_of_run?`); in particular,
  as long as no tool comes to its end, nothing puts off the moment at which a sweep closes the
  session, but for a tool that is still under way.
-/

namespace Workbench

open Worker.History

variable {ρ : Type}

/-! ## 1. What the end of a job means -/

theorem Worker.submit_of_note? {J A : Type} {w : Worker ρ J A} {a : Worker.Action ρ J A} {n : Nat}
    {j : J} (h : w.note? a = some (.accepted n j)) : ∃ bounded, a = .submit bounded j := by
  cases a with
  | submit bounded j' =>
    simp only [note?] at h
    split at h <;> cases h
    exact ⟨bounded, rfl⟩
  | move m =>
    cases m with
    | start | finish | crash =>
      simp only [note?] at h
      split at h <;> cases h
    | _ => cases h
  | _ => cases h

/-- An operation that answers has run to its end. -/
theorem Worker.finish_of_note? {J A : Type} {w : Worker ρ J A} {a : Worker.Action ρ J A} {n : Nat}
    {j : J} {r : ρ} {x : A} (h : w.note? a = some (.ended n j r (some x))) :
    a = .move (.finish r x) ∧ ∃ r₀, w.phase = .running r₀ n j := by
  cases a with
  | submit bounded j' =>
    simp only [note?] at h
    split at h <;> cases h
  | move m =>
    cases m with
    | start | finish | crash =>
      simp only [note?] at h
      split at h <;> cases h
      try exact ⟨rfl, _, ‹_›⟩
    | _ => cases h
  | _ => cases h

namespace Session

/-- Every tool that comes to its end counts, whether it has failed or not. -/
theorem lastActivity_record_tool (s : Session ρ) (now : Nat) (info : ToolInfo) (arguments : Json)
    (answer : JobAnswer) : (s.record now (.tool info arguments) answer).lastActivity = now := by
  cases answer with
  | error e => rfl
  | ok out =>
    simp only [record]
    split
    · rfl
    · unfold attach
      split <;> rfl
    · unfold detach
      split <;> rfl

end Session

namespace Engine

/-! ## 2. Tools that come to their end -/

/-- The ticket of a tool that ran to its end. -/
def handled? : (Nat × Job) × Option JobAnswer → Option Nat
  | ((n, .tool _ _), some _) => some n
  | _ => none

/-- The tools among the jobs that have ended, by their tickets. -/
theorem filterMap_handled? (l : List ((Nat × Job) × Option JobAnswer)) :
    l.filterMap handled? = (l.filter fun x => (handled? x).isSome).map fun x => x.1.1 := by
  induction l with
  | nil => rfl
  | cons x l ih =>
    obtain ⟨⟨n, job⟩, result⟩ := x
    cases job with
    | release => exact ih
    | tool info arguments =>
      cases result with
      | none => exact ih
      | some answer => exact congrArg (n :: ·) ih

/-- The tool that comes to its end at a seat in an event, by its ticket, and the moment. -/
def returned? (k : Nat) (x : Engine ρ × Event ρ) : Option (Nat × Nat) :=
  (((note? k x).bind Worker.Note.ended?).bind handled?).map fun n => (n, x.1.registry.now)

/-- The tools that have come to their ends at a seat, each with the moment. -/
def returns (k : Nat) (past : List (Engine ρ × Event ρ)) : List (Nat × Nat) :=
  past.filterMap (returned? k)

theorem returns_concat (k : Nat) (past : List (Engine ρ × Event ρ)) (x : Engine ρ × Event ρ) :
    returns k (past ++ [x]) = returns k past ++ (returned? k x).toList := by
  cases h : returned? k x <;> simp [returns, h]

/-- **They are those that the history of the worker knows**, in the same order. -/
theorem returns_map_fst (k : Nat) (past : List (Engine ρ × Event ρ)) :
    (returns k past).map Prod.fst = (ended (notes k past)).filterMap handled? := by
  unfold returns ended notes
  rw [List.map_filterMap, List.filterMap_filterMap, List.filterMap_filterMap]
  refine congrArg (List.filterMap · past) (funext fun x => ?_)
  simp only [returned?, Option.map_map, Function.comp_def, Option.map_id']
  cases note? k x <;> rfl

/-- **What comes to its end in an event**: the job that the worker has in hand, if it is a tool and
answers. -/
theorem returned?_eq_some {k n moment : Nat} {e : Engine ρ} {event : Event ρ} {s : Session ρ}
    (hs : e.registry.session? k = some s) :
    returned? k (e, event) = some (n, moment) ↔ moment = e.registry.now ∧
      ∃ r₀ r info arguments answer, event = .work k (.finish r answer) ∧
        s.worker.phase = .running r₀ n (.tool info arguments) := by
  constructor
  · intro h
    obtain ⟨n', hn, heq⟩ := Option.map_eq_some_iff.mp h
    cases heq
    refine ⟨rfl, ?_⟩
    obtain ⟨⟨⟨n₁, job⟩, result⟩, hended, hhandled⟩ := Option.bind_eq_some_iff.mp hn
    obtain ⟨note, hnote, hended⟩ := Option.bind_eq_some_iff.mp hended
    unfold handled? at hhandled
    split at hhandled
    · rename_i n₂ info arguments answer heq
      cases heq
      cases hhandled
      cases note with
      | ended n₁ job r result =>
        cases hended
        simp only [note?, hs] at hnote
        obtain ⟨a, ha, hw⟩ := Option.bind_eq_some_iff.mp hnote
        obtain ⟨rfl, r₀, hp⟩ := Worker.finish_of_note? hw
        exact ⟨r₀, r, info, arguments, answer, work_of_change (Change.work_of_actionAt? ha), hp⟩
      | _ => cases hended
    · cases hhandled
  · rintro ⟨rfl, r₀, r, info, arguments, answer, rfl, hp⟩
    simp [returned?, note?, hs, change, Change.actionAt?, Change.seat?, Change.action?,
      Worker.note?, hp, handled?]

/-- Nothing comes to its end in an event that does not end the tool in hand. -/
theorem returned?_eq_none {k : Nat} {e : Engine ρ} {event : Event ρ} {s : Session ρ}
    (hs : e.registry.session? k = some s)
    (hno : ∀ r₀ r n info arguments answer, event = .work k (.finish r answer) →
      s.worker.phase ≠ .running r₀ n (.tool info arguments)) : returned? k (e, event) = none := by
  refine Option.eq_none_iff_forall_ne_some.mpr fun x hx => ?_
  obtain ⟨-, r₀, r, info, arguments, answer, he, hp⟩ := (returned?_eq_some hs).mp hx
  exact hno r₀ r _ info arguments answer he hp

section Steps

variable {k : Nat} {e e' : Engine ρ} {event : Event ρ} {s s' : Session ρ}

/-- **What one event makes of the last activity**: it is now, if a tool comes to its end, and what
it was before otherwise. -/
theorem lastActivity_of_step? (h : e.step? event = some e') (hs : e.registry.session? k = some s)
    (hs' : e'.registry.session? k = some s') :
    s'.lastActivity = ((returned? k (e, event)).map Prod.snd).getD s.lastActivity := by
  by_cases hwork : ∃ move, event = .work k move
  · obtain ⟨move, rfl⟩ := hwork
    have hadvance := advance?_of_step? h hs hs'
    rcases Session.advance?_cases hadvance with
      ⟨r₀, r, n, job, answer, rfl, hp, -, he⟩ | ⟨hno, he⟩
    · cases job with
      | tool info arguments =>
        have hreturned : returned? k (e, .work k (.finish r answer)) = some (n, e.registry.now) :=
          (returned?_eq_some hs).mpr ⟨rfl, r₀, r, info, arguments, answer, rfl, hp⟩
        rw [hreturned, he]
        exact Session.lastActivity_record_tool _ _ _ _ _
      | release =>
        have hreturned : returned? k (e, .work k (.finish r answer)) = none :=
          returned?_eq_none hs fun _ _ _ _ _ _ _ hp' => by simp [hp] at hp'
        rw [hreturned, he]
        rfl
    · have hreturned : returned? k (e, .work k move) = none :=
        returned?_eq_none hs fun _ r _ _ _ answer heq _ => by
          cases heq
          exact hno r answer rfl
      rw [hreturned, he]
      rfl
  · have hreturned : returned? k (e, event) = none :=
      returned?_eq_none hs fun _ _ _ _ _ _ heq _ => hwork ⟨_, heq⟩
    have halter := Registry.session?_after_of_some (e.change event) hs
    rw [← registry_of_step? h, hs'] at halter
    cases halter
    rw [hreturned, Change.lastActivity_alter s fun move hc => hwork ⟨move, work_of_change hc⟩]
    rfl

/-- The last activity of a session can be told from the tools that came to their ends. -/
def Reckoned (k : Nat) (past : List (Engine ρ × Event ρ)) (e : Engine ρ) : Prop :=
  match e.registry.session? k with
  | some s => s.lastActivity = ((returns k past).map Prod.snd).getLast?.getD s.createdAt
  | none => returns k past = []

/-- **Every event is reckoned with.** -/
theorem Reckoned.step {past : List (Engine ρ × Event ρ)} (hr : Reckoned k past e)
    (h : e.step? event = some e') : Reckoned k (past ++ [(e, event)]) e' := by
  unfold Reckoned at hr ⊢
  rw [returns_concat]
  cases hs : e.registry.session? k with
  | some s =>
    rw [hs] at hr
    obtain ⟨s', hs', -⟩ := session_of_step? h hs
    rw [hs']
    simp only at hr ⊢
    rw [lastActivity_of_step? h hs hs', (kept_of_step? h hs hs').1]
    cases returned? k (e, event) <;> simp [hr]
  | none =>
    rw [hs] at hr
    have hn : returned? k (e, event) = none := by simp [returned?, note?, hs]
    rw [hn, hr]
    cases hs' : e'.registry.session? k with
    | none => rfl
    | some s' =>
      obtain ⟨metadata, -, -, rfl⟩ := born_of_step? h hs hs'
      rfl

/-- **As long as no tool comes to its end**, the last activity stays what it is. -/
theorem lastActivity_of_run? {more : List (Event ρ)} (h : e.run? more = some e')
    (hs : e.registry.session? k = some s) (hs' : e'.registry.session? k = some s')
    (hr : returns k (e.trace more) = []) : s'.lastActivity = s.lastActivity := by
  let P : List (Engine ρ × Event ρ) → Engine ρ → Prop := fun past v =>
    ∃ t, v.registry.session? k = some t ∧
      (returns k past = [] → t.lastActivity = s.lastActivity)
  have hstart : P [] e := ⟨s, hs, fun _ => rfl⟩
  have hstep : ∀ past v event v', P past v → v.step? event = some v' →
      P (past ++ [(v, event)]) v' := by
    rintro past v event v' ⟨t, ht, hlast⟩ hv
    obtain ⟨t', ht', -⟩ := session_of_step? hv ht
    refine ⟨t', ht', fun hnone => ?_⟩
    rw [returns_concat, List.append_eq_nil_iff] at hnone
    have htouched := lastActivity_of_step? hv ht ht'
    rw [Option.toList_eq_nil_iff.mp hnone.2] at htouched
    exact htouched.trans (hlast hnone.1)
  have hkept : P (e.trace more) e' := run?_induction hstep h hstart
  obtain ⟨t, ht, hlast⟩ := hkept
  rw [hs'] at ht
  cases ht
  exact hlast hr

/-- A job that is noted as accepted was submitted in that event. -/
theorem submit_of_note? {n : Nat} {job : Job} (h : note? k (e, event) = some (.accepted n job)) :
    ∃ bounded, e.change event = .submit k bounded job := by
  unfold note? at h
  split at h
  · obtain ⟨a, ha, hw⟩ := Option.bind_eq_some_iff.mp h
    obtain ⟨bounded, rfl⟩ := Worker.submit_of_note? hw
    exact ⟨bounded, change_of_actionAt? ha⟩
  · cases h

/-- A job that was accepted is noted in one of the events. -/
theorem note_of_accepted {past : List (Engine ρ × Event ρ)} {n : Nat} {job : Job}
    (h : (n, job) ∈ accepted (notes k past)) :
    ∃ x ∈ past, note? k x = some (.accepted n job) := by
  obtain ⟨note, hnote, haccepted⟩ := List.mem_filterMap.mp h
  obtain ⟨x, hx, hn⟩ := List.mem_filterMap.mp hnote
  cases note <;> cases haccepted
  exact ⟨x, hx, hn⟩

end Steps

section Returns

variable {k : Nat} {past : List (Engine ρ × Event ρ)} {w : Worker ρ Job JobAnswer}
  (ho : Worker.InOrder (notes k past) w)
include ho

/-- **Each tool comes to its end once.** -/
theorem nodup_returns : ((returns k past).map Prod.fst).Nodup := by
  have htickets : ((ended (notes k past)).map fun x => x.1.1).Nodup := by
    rw [ho.ended_tickets]
    exact List.nodup_range
  rw [returns_map_fst, filterMap_handled?]
  exact htickets.sublist (List.filter_sublist.map _)

/-- **Each tool that comes to its end was brought by a call.** -/
theorem call_of_returned {n moment : Nat} (hv : (n, moment) ∈ returns k past) :
    ∃ x ∈ past, ∃ q c info id, x.2 = .go q ∧ x.1.tasks[q]? = some (.call c (.enter info id k)) ∧
      note? k x = some (.accepted n (.tool info c.arguments)) := by
  have hn : n ∈ (ended (notes k past)).filterMap handled? :=
    returns_map_fst k past ▸ List.mem_map_of_mem hv
  obtain ⟨⟨⟨n', job⟩, result⟩, hended, hhandled⟩ := List.mem_filterMap.mp hn
  unfold handled? at hhandled
  split at hhandled
  · rename_i n₁ info arguments answer heq
    cases heq
    cases hhandled
    have haccepted := ho.ended_prefix.subset (List.mem_map_of_mem hended)
    obtain ⟨x, hx, hnote⟩ := note_of_accepted haccepted
    obtain ⟨bounded, hc⟩ := submit_of_note? hnote
    obtain ⟨q, hq, ⟨-, hjob⟩ | ⟨info', arguments', -, hjob, hpart⟩⟩ := submit_of_step? hc
    · cases hjob
    · cases hjob
      obtain ⟨c, id, ht, rfl⟩ := heads_of_partAt hpart
      exact ⟨x, hx, q, c, info, id, hq, ht, hnote⟩
  · cases hhandled

end Returns

/-! ## 3. The idle time of a session -/

/-- **What counts for the idle time of a session.** -/
structure Activity (k : Nat) (past : List (Engine ρ × Event ρ)) (e : Engine ρ) (s : Session ρ) :
    Prop where
  /-- The last activity is the moment at which a tool came to its end last, or the beginning. -/
  lastActivity_eq : s.lastActivity = ((returns k past).map Prod.snd).getLast?.getD s.createdAt
  /-- These are the tools that ran to their ends on the worker, in this order, and each counts
  once. -/
  returns_eq : (returns k past).map Prod.fst = (ended (notes k past)).filterMap handled?
  returns_nodup : ((returns k past).map Prod.fst).Nodup
  /-- Each of them was brought by a call. -/
  dispatched : ∀ v ∈ returns k past, ∃ x ∈ past, ∃ q c info id, x.2 = .go q ∧
    x.1.tasks[q]? = some (.call c (.enter info id k)) ∧
    note? k x = some (.accepted v.1 (.tool info c.arguments))
  /-- A tool comes to its end in a step of the worker that has it in hand, and in no other event. -/
  returned_iff : ∀ event n moment, returned? k (e, event) = some (n, moment) ↔
    moment = e.registry.now ∧ ∃ r₀ r info arguments answer, event = .work k (.finish r answer) ∧
      s.worker.phase = .running r₀ n (.tool info arguments)
  /-- That is the new last activity; all other events leave the old one. -/
  touched : ∀ event e' s', e.step? event = some e' → e'.registry.session? k = some s' →
    s'.lastActivity = ((returned? k (e, event)).map Prod.snd).getD s.lastActivity
  /-- Whatever a client sends comes down to events, and to none if it is not a call. -/
  sent : ∀ (σ : Type) (h : Host ρ σ) (m : ClientMessage), h.engine = e →
    e.Reaches (m.answer h).1.engine
  read : ∀ (σ : Type) (h : Host ρ σ) (request : ClientRequest), h.engine = e →
    request.isCall = false → (request.answer h).1.engine = e
  /-- A sweep closes the session in its turn if it is open and due. -/
  evicted_iff : ∀ q rest closed, e.partAt q = .sweep (.judge (k :: rest) closed) →
    (e.change (.go q) = .close k ↔
      s.isClosed = false ∧ s.Due e.registry.settings.idleTimeout e.registry.now)
  /-- If it takes the last look at the worker apart, it closes the session then if the session is
  open and stale and the worker is not at work. -/
  convicted_iff : ∀ q rest closed, e.partAt q = .sweep (.weigh k rest closed) →
    (e.change (.go q) = .close k ↔ s.isClosed = false ∧ s.worker.busy = false ∧
      s.isStale e.registry.settings.idleTimeout e.registry.now = true)
  /-- The worker of an open session is idle unless a tool of a call waits or is running. -/
  idle_iff : s.isClosed = false → (s.worker.isIdle = true ↔
    ∀ n info arguments, (n, .tool info arguments) ∈ accepted (notes k past) →
      (n, .tool info arguments) ∈ (ended (notes k past)).map Prod.fst)
  /-- As long as no tool comes to its end, nothing moves the last activity. -/
  unmoved : ∀ more e' s', e.run? more = some e' → e'.registry.session? k = some s' →
    returns k (e.trace more) = [] → s'.lastActivity = s.lastActivity
  /-- As long as no tool is accepted, an idle worker stays idle, or the session is closed. -/
  staysIdle : ∀ more e' s', e.run? more = some e' → e'.registry.session? k = some s' →
    s.worker.isIdle = true →
    (∀ x ∈ e.trace more, ∀ n info arguments,
      note? k x ≠ some (.accepted n (.tool info arguments))) →
    s'.isClosed = true ∨ s'.worker.isIdle = true
  /-- So the idle time runs out when it would have run out, and the session is closed by the first
  sweep whose turn comes after that. -/
  undelayed : ∀ more e' s', e.run? more = some e' → e'.registry.session? k = some s' →
    returns k (e.trace more) = [] → s'.isClosed = false → s'.worker.isIdle = true →
    e.registry.settings.idleTimeout.nanos ≠ 0 →
    s.lastActivity + e.registry.settings.idleTimeout.nanos ≤ e'.registry.now →
    ∀ q rest closed, e'.partAt q = .sweep (.judge (k :: rest) closed) ∨
        e'.partAt q = .sweep (.weigh k rest closed) → e'.change (.go q) = .close k

section Runs

variable {k q : Nat} {rest : List Nat} {closed : List String} {e : Engine ρ} {s : Session ρ}

/-- **The verdict of a sweep** on the session whose turn has come. -/
theorem change_of_judge (hs : e.registry.session? k = some s)
    (hp : e.partAt q = .sweep (.judge (k :: rest) closed)) : e.change (.go q) = .close k ↔
      s.isClosed = false ∧ s.Due e.registry.settings.idleTimeout e.registry.now := by
  have hcondemns : e.registry.condemns k = true ↔
      s.isClosed = false ∧ s.Due e.registry.settings.idleTimeout e.registry.now := by
    rw [Registry.condemns_iff]
    constructor
    · rintro ⟨s', hs', hdue⟩
      rw [hs] at hs'
      cases hs'
      exact hdue
    · exact fun hdue => ⟨s, hs, hdue⟩
  rw [← hcondemns, change_of_go, hp]
  simp only [Part.change, Sweep.change]
  split
  · simp [‹e.registry.condemns k = true›]
  · simp [‹¬ e.registry.condemns k = true›]

theorem change_of_weigh (hs : e.registry.session? k = some s)
    (hp : e.partAt q = .sweep (.weigh k rest closed)) : e.change (.go q) = .close k ↔
      s.isClosed = false ∧ s.worker.busy = false ∧
        s.isStale e.registry.settings.idleTimeout e.registry.now = true := by
  have hconvicts : e.registry.convicts k = true ↔ s.isClosed = false ∧ s.worker.busy = false ∧
      s.isStale e.registry.settings.idleTimeout e.registry.now = true := by
    simp [Registry.convicts_iff, hs]
  rw [← hconvicts, change_of_go, hp]
  simp only [Part.change, Sweep.change]
  split
  · simp [‹e.registry.convicts k = true›]
  · simp [‹¬ e.registry.convicts k = true›]

variable {settings : SessionSettings} {standard : Duration} {ids : Nat → String} {now : Nat}
  {events : List (Event ρ)} (h : (start settings standard ids now).run? events = some e)
include h

/-- **The worker of an open session is idle** when the tools that calls brought have ended. -/
theorem isIdle_iff_of_open (hs : e.registry.session? k = some s) (ho : s.isClosed = false) :
    s.worker.isIdle = true ↔ ∀ n info arguments,
      (n, .tool info arguments) ∈
        accepted (notes k ((start settings standard ids now).trace events)) →
      (n, .tool info arguments) ∈
        (ended (notes k ((start settings standard ids now).trace events))).map Prod.fst := by
  rw [isIdle_iff_of_run? h hs]
  constructor
  · exact fun hall n info arguments hn => hall _ hn
  · rintro hall ⟨n, job⟩ hn
    cases job with
    | tool info arguments => exact hall n info arguments hn
    | release =>
      -- a release is queued for closed sessions only
      have hbooks := books_of_run? h k
      obtain ⟨s', hs', hc⟩ := hbooks.closed_of_attempts (hbooks.attempts_ne_nil hn)
      rw [hs] at hs'
      cases hs'
      rw [ho] at hc
      cases hc

/-- **An idle worker stays idle** as long as no tool is accepted and the session is open. -/
theorem isIdle_of_run? {more : List (Event ρ)} {e' : Engine ρ} {s' : Session ρ}
    (hs : e.registry.session? k = some s) (hmore : e.run? more = some e')
    (hs' : e'.registry.session? k = some s') (hidle : s.worker.isIdle = true)
    (hnone : ∀ x ∈ e.trace more, ∀ n info arguments,
      note? k x ≠ some (.accepted n (.tool info arguments))) :
    s'.isClosed = true ∨ s'.worker.isIdle = true := by
  cases hc : s'.isClosed with
  | true => exact Or.inl rfl
  | false =>
    have hrun : (start settings standard ids now).run? (events ++ more) = some e' := by
      rw [run?_append, h, Option.bind_some, hmore]
    refine Or.inr ((isIdle_iff_of_open hrun hs' hc).mpr fun n info arguments hn => ?_)
    have hsplit : notes k ((start settings standard ids now).trace (events ++ more)) =
        notes k ((start settings standard ids now).trace events) ++ notes k (e.trace more) := by
      rw [trace_append h, notes, List.filterMap_append]
      rfl
    rw [hsplit, accepted_append, List.mem_append] at hn
    rw [hsplit, ended_append, List.map_append, List.mem_append]
    rcases hn with hn | hn
    · exact Or.inl ((isIdle_iff_of_run? h hs).mp hidle _ hn)
    · obtain ⟨x, hx, hnote⟩ := note_of_accepted hn
      exact absurd hnote (hnone x hx n info arguments)

/-- **Along every run**, the last activity of a session is the moment at which a tool came to its
end last, and nothing else has to do with the time for which the session may be idle. -/
theorem activity_of_run? (hs : e.registry.session? k = some s) :
    Activity k ((start settings standard ids now).trace events) e s := by
  have htold := (toldAt_of_run? h k).of_some hs
  have hstart : Reckoned k [] (start settings standard ids now : Engine ρ) := by
    simp [Reckoned, start, Registry.start, Registry.session?, returns]
  have hreckoned : Reckoned k ((start settings standard ids now).trace events) e :=
    run?_induction (P := Reckoned k) (fun _ _ _ _ hr h => hr.step h) h hstart
  constructor
  case lastActivity_eq => rwa [Reckoned, hs] at hreckoned
  case returns_eq => exact returns_map_fst k _
  case returns_nodup => exact nodup_returns htold.order
  case dispatched => exact fun v hv => call_of_returned htold.order hv
  case returned_iff => exact fun event n moment => returned?_eq_some hs
  case touched => exact fun event e' s' hstep hs' => lastActivity_of_step? hstep hs hs'
  case sent =>
    rintro σ host m rfl
    exact m.reaches_answer host
  case read =>
    rintro σ host request rfl hr
    rw [ClientRequest.answer_of_not_call host hr]
  case evicted_iff => exact fun q rest closed hp => change_of_judge hs hp
  case convicted_iff => exact fun q rest closed hp => change_of_weigh hs hp
  case idle_iff => exact isIdle_iff_of_open h hs
  case unmoved => exact fun more e' s' hmore hs' hr => lastActivity_of_run? hmore hs hs' hr
  case staysIdle =>
    exact fun more e' s' hmore hs' hidle hnone => isIdle_of_run? h hs hmore hs' hidle hnone
  case undelayed =>
    intro more e' s' hmore hs' hr ho hidle hlimit hlate q rest closed hp
    have hstale : s'.isStale e'.registry.settings.idleTimeout e'.registry.now = true := by
      rw [Session.isStale_iff, (settings_of_run? hmore).1, lastActivity_of_run? hmore hs hs' hr]
      exact Or.inr ⟨hlimit, by omega⟩
    rcases hp with hp | hp
    · exact (change_of_judge hs' hp).mpr ⟨ho, Session.due_iff.mpr (Or.inr ⟨hidle, hstale⟩)⟩
    · simp only [Worker.isIdle, Bool.and_eq_true, Bool.not_eq_true'] at hidle
      exact (change_of_weigh hs' hp).mpr ⟨ho, hidle.2, hstale⟩

end Runs

/-- A tool comes to its end five seconds after the start of the session, and then the session is
left alone. -/
def usedOnce : List (Event Nat) :=
  [.arrive (.create []), .go 0, .work 0 (.built 7), .go 0, .pass (.ofSeconds 5),
    .arrive (.call ⟨"open_project", .object [("session_id", .str (strokes 0)),
      ("project_path", .str "Plant")]⟩), .go 1, .go 1, .go 1, .go 1, .work 0 .start,
    .work 0 (.finish 8 (.error (.projectNotFound "Plant"))), .go 1, .pass (.ofSeconds 2000)]

theorem activity_usedOnce : ∃ (e : Engine Nat) (s : Session Nat),
    let e₀ := start (.ofConfig SessionConfig.standard) (.ofSeconds 60) strokes 0
    e₀.run? usedOnce = some e ∧ e.registry.session? 0 = some s ∧
    Activity 0 (e₀.trace usedOnce) e s ∧
    returns 0 (e₀.trace usedOnce) = [(0, (Duration.ofSeconds 5).nanos)] ∧
    s.idle e.registry.now = .ofSeconds 2000 :=
  ⟨_, _, rfl, rfl, activity_of_run? rfl rfl, rfl, rfl⟩

end Engine
end Workbench
