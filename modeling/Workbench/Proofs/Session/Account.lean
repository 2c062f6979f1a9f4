import Workbench.Proofs.Session.Dealing

/-!
# The account of a session

Who closed a session and who tried to queue its release can be read off the trace.  The account of a
session ties this to the tasks that still have to do with its end, and to what its worker accepted.

* `closers` and `attempts` are read off the trace: who closed the session, and who tried to queue
  its release, with what became of it;
* `accepted_concat` and `submit_of_step?` say what is queued for a worker, and by whom;
* `Account` is kept by every event (`Account.step`), `AccountAt` from the registration of the
  session on (`AccountAt.step`). -/

namespace Workbench

variable {ρ : Type}

/-! ## 1. Who closed the session, and who queued its release -/

namespace Change

/-- The seat of the session that a change closes. -/
def closed? : Change ρ → Option Nat
  | close seat => some seat
  | _ => none

/-- The seat of the session whose release a change tries to queue. -/
def released? : Change ρ → Option Nat
  | submit seat false .release => some seat
  | _ => none

theorem closed?_eq_some {c : Change ρ} {k : Nat} : c.closed? = some k ↔ c = .close k := by
  cases c <;> simp [closed?]

theorem released?_eq_some {c : Change ρ} {k : Nat} :
    c.released? = some k ↔ c = .submit k false .release := by
  unfold released?
  split
  · simp
  · constructor
    · rintro ⟨⟩
    · rintro rfl
      simp_all

end Change

namespace Engine

/-- The task that closes the session at a seat in an event. -/
def closer? (k : Nat) (x : Engine ρ × Event ρ) : Option Nat :=
  if (x.1.change x.2).closed? = some k then x.2.place? else none

/-- The tasks that have closed the session at a seat. -/
def closers (k : Nat) (past : List (Engine ρ × Event ρ)) : List Nat := past.filterMap (closer? k)

/-- The task that tries to queue the release of the session at a seat in an event, and why it is
refused, if it is. -/
def attempt? (k : Nat) (x : Engine ρ × Event ρ) : Option (Nat × Option WorkerError) :=
  if (x.1.change x.2).released? = some k then
    match x.2.place?, x.1.registry.session? k with
    | some q, some s => some (q, s.worker.refusal? false)
    | _, _ => none
  else none

/-- The attempts to queue the release of the session at a seat. -/
def attempts (k : Nat) (past : List (Engine ρ × Event ρ)) : List (Nat × Option WorkerError) :=
  past.filterMap (attempt? k)

/-- The tickets of the releases that were accepted. -/
def releases (k : Nat) (past : List (Engine ρ × Event ρ)) : List (Nat × Job) :=
  (Worker.History.accepted (notes k past)).filter fun x => x.2 = .release

theorem closers_concat (k : Nat) (past : List (Engine ρ × Event ρ)) (x : Engine ρ × Event ρ) :
    closers k (past ++ [x]) = closers k past ++ (closer? k x).toList := by
  cases h : closer? k x <;> simp [closers, h]

theorem attempts_concat (k : Nat) (past : List (Engine ρ × Event ρ)) (x : Engine ρ × Event ρ) :
    attempts k (past ++ [x]) = attempts k past ++ (attempt? k x).toList := by
  cases h : attempt? k x <;> simp [attempts, h]

theorem releases_concat (k : Nat) (past : List (Engine ρ × Event ρ)) (x : Engine ρ × Event ρ) :
    releases k (past ++ [x]) = releases k past ++
      (Worker.History.accepted (note? k x).toList).filter fun y => y.2 = .release := by
  rw [releases, notes_concat, Worker.History.accepted_append, List.filter_append]
  rfl

theorem closers_of_other {k : Nat} {e : Engine ρ} {event : Event ρ} (hc : e.change event ≠ .close k)
    (past : List (Engine ρ × Event ρ)) : closers k (past ++ [(e, event)]) = closers k past := by
  have hnone : closer? k (e, event) = none := by
    unfold closer?
    rw [if_neg fun he => hc (Change.closed?_eq_some.mp he)]
  rw [closers_concat, hnone]
  simp

theorem attempts_of_other {k : Nat} {e : Engine ρ} {event : Event ρ}
    (hsub : ∀ job, e.change event ≠ .submit k false job) (past : List (Engine ρ × Event ρ)) :
    attempts k (past ++ [(e, event)]) = attempts k past := by
  have hnone : attempt? k (e, event) = none := by
    unfold attempt?
    rw [if_neg fun he => hsub _ (Change.released?_eq_some.mp he)]
  rw [attempts_concat, hnone]
  simp

/-- Where there is no session, no release is queued. -/
theorem attempts_of_vacant {k : Nat} {e : Engine ρ} (hs : e.registry.session? k = none)
    (event : Event ρ) (past : List (Engine ρ × Event ρ)) :
    attempts k (past ++ [(e, event)]) = attempts k past := by
  have hnone : attempt? k (e, event) = none := by
    unfold attempt?
    rw [hs]
    split
    · cases event.place? <;> rfl
    · rfl
  rw [attempts_concat, hnone]
  simp

/-- What a change at a seat makes the worker there accept. -/
theorem accepted_note? {k : Nat} {e : Engine ρ} {event : Event ρ} {s : Session ρ}
    (hs : e.registry.session? k = some s) :
    Worker.History.accepted (note? k (e, event)).toList =
      match (e.change event).actionAt? k with
      | some (.submit bounded job) =>
        if s.worker.refusal? bounded = none then [(s.worker.replies.length, job)] else []
      | _ => [] := by
  simp only [note?, hs]
  cases hc : (e.change event).actionAt? k with
  | none => rfl
  | some a =>
    cases a with
    | submit bounded job =>
      cases hr : s.worker.refusal? bounded with
      | none =>
        simp only [Option.bind_some, Worker.note?, hr]
        rfl
      | some err =>
        simp only [Option.bind_some, Worker.note?, hr]
        rfl
    | move m =>
      cases m with
      | start =>
        simp only [Option.bind_some, Worker.note?]
        split <;> rfl
      | finish r a =>
        simp only [Option.bind_some, Worker.note?]
        split <;> rfl
      | crash r =>
        simp only [Option.bind_some, Worker.note?]
        split <;> rfl
      | _ => rfl
    | _ => rfl

/-- A worker takes operations from changes at its seat. -/
theorem change_of_actionAt? {k : Nat} {c : Change ρ} {bounded : Bool} {job : Job}
    (h : c.actionAt? k = some (.submit bounded job)) : c = .submit k bounded job := by
  unfold Change.actionAt? at h
  split at h
  · rename_i hseat
    cases c <;> cases h
    cases hseat
    rfl
  · cases h

/-- **What is accepted in an event** was submitted in it, and not refused. -/
theorem accepted_concat (k : Nat) (past : List (Engine ρ × Event ρ)) (e : Engine ρ)
    (event : Event ρ) :
    Worker.History.accepted (notes k (past ++ [(e, event)])) =
        Worker.History.accepted (notes k past) ∨
      ∃ s bounded job, e.registry.session? k = some s ∧ e.change event = .submit k bounded job ∧
        s.worker.refusal? bounded = none ∧
        Worker.History.accepted (notes k (past ++ [(e, event)])) =
          Worker.History.accepted (notes k past) ++ [(s.worker.replies.length, job)] := by
  rw [notes_concat, Worker.History.accepted_append]
  cases hs : e.registry.session? k with
  | none =>
    have hn : note? k (e, event) = none := by simp [note?, hs]
    rw [hn]
    exact Or.inl (List.append_nil _)
  | some s =>
    rw [accepted_note? hs]
    split
    · rename_i bounded job hact
      split
      · exact Or.inr ⟨s, bounded, job, rfl, change_of_actionAt? hact, ‹_›, rfl⟩
      · exact Or.inl (List.append_nil _)
    · exact Or.inl (List.append_nil _)

/-- **Only two kinds of jobs are ever queued**: the release, and the tool of a call. -/
theorem submit_of_step? {e : Engine ρ} {event : Event ρ} {k : Nat} {bounded : Bool} {job : Job}
    (h : e.change event = .submit k bounded job) : ∃ q, event = .go q ∧
      ((bounded = false ∧ job = .release) ∨ ∃ info arguments, bounded = true ∧
        job = .tool info arguments ∧ e.partAt q = .enter info arguments k) := by
  obtain ⟨q, rfl, hc⟩ := go_of_change h (by rintro ⟨⟩) (by rintro seat ⟨⟩) rfl
  refine ⟨q, rfl, ?_⟩
  rcases (e.partAt q).change_cases e.registry with hp | ⟨metadata, -, -, hm⟩ |
    ⟨seat, reason, s, -, -, hm⟩ | ⟨info, arguments, seat, hp, hm⟩
  · rw [hc] at hp
    cases bounded with
    | true => cases hp
    | false =>
      cases job with
      | release => exact Or.inl ⟨rfl, rfl⟩
      | tool info arguments => cases hp
  · rw [hc] at hm
    cases hm
  · rw [hc] at hm
    cases hm
  · rw [hc] at hm
    cases hm
    exact Or.inr ⟨info, arguments, rfl, rfl, hp⟩

/-- **An event deals with the end of the session through one task only.** -/
theorem dealing_of_step? {e e' : Engine ρ} {event : Event ρ} {k : Nat}
    (hv : e.registry.session? k = none → ∀ q, (e.partAt q).hold k = .free)
    (h : e.step? event = some e') :
    (∃ q, event.place? = some q ∧
      Dealing k (e.registry.session? k) ((e.partAt q).hold k) (e.change event)
        ((e'.partAt q).hold k) ∧
      ∀ q', q' ≠ q → (e'.partAt q').hold k = (e.partAt q').hold k) ∨
    ((e.change event).Quiet k ∧ ∀ q, (e'.partAt q).hold k = (e.partAt q).hold k) := by
  have hother : ∀ q, event.place? ≠ some q → (e'.partAt q).hold k = (e.partAt q).hold k := by
    intro q hq
    rcases partAt_of_step? h q with ⟨hp, -⟩ | ⟨-, heq | ⟨hidle, hinit⟩⟩
    · exact absurd hp hq
    · rw [heq]
    · rw [hidle, Dealing.hold_initial hinit]
      rfl
  cases hp : event.place? with
  | some q =>
    refine Or.inl ⟨q, rfl, ?_, fun q' hq' => hother q' (by simpa [hp] using Ne.symm hq')⟩
    rcases partAt_of_step? h q with ⟨-, hgoes⟩ | ⟨hne, -⟩
    · exact Dealing.of_goes (fun hn => hv hn q) hgoes
    · exact absurd hp hne
  | none =>
    refine Or.inr ⟨?_, fun q => hother q (by simp [hp])⟩
    rcases change_of_place hp with hc | hc
    · rw [hc]
      exact Dealing.quiet_nothing
    · exact ⟨fun he => by simp [he, Change.isAsked] at hc,
        fun job he => by simp [he, Change.isAsked] at hc,
        fun he => by simp [he, Change.isAsked] at hc⟩

end Engine

/-! ## 2. The account -/

/-- There is no resource, and there will be none. -/
def Session.Unbuilt (s : Session ρ) : Prop := ∃ reason, s.worker.readiness = .failed reason

namespace Engine

/-- **The account of a session**: what the trace tells of its end, what the tasks have to do with
it, and what its worker has accepted. -/
structure Account (k : Nat) (past : List (Engine ρ × Event ρ)) (e : Engine ρ) (s : Session ρ) :
    Prop where
  /-- A session is closed by one task. -/
  closed : s.isClosed = true → ∃ p, closers k past = [p]
  opened : s.isClosed = false → closers k past = []
  /-- Who owes the release has closed the session, and nobody has tried to queue the release. -/
  owing : ∀ q, (e.partAt q).hold k = .owing → closers k past = [q] ∧ attempts k past = []
  paid : ∀ q, (e.partAt q).hold k = .paid → closers k past = [q] ∧ attempts k past ≠ []
  failing : ∀ q, (e.partAt q).hold k = .failing → s.Unbuilt
  /-- The only attempt is that of the task that has closed the session, and is refused only by a
  worker that has faulted. -/
  tried : attempts k past = [] ∨ ∃ q r, attempts k past = [(q, r)] ∧ closers k past = [q] ∧
    (r = none ∨ r = some .faulted)
  /-- Who has closed the session owes its release until it tries to queue it. -/
  winner : ∀ p, closers k past = [p] → attempts k past = [] →
    (e.partAt p).hold k = .owing ∨ s.Unbuilt
  /-- The handle is not given up before. -/
  connected : attempts k past = [] → s.worker.connected = true ∨ s.Unbuilt
  /-- What is accepted was not refused. -/
  accepted : (releases k past).length = (attempts k past).countP (·.2.isNone)

/-- How an event affects the worker at a seat. -/
theorem worker_of_altered {k : Nat} {c : Change ρ} {s s' : Session ρ} (ha : c.Altered k s s')
    (hr : Worker.Readied s.worker) :
    (s.Unbuilt → s'.Unbuilt) ∧ (c ≠ .shutdown k → s'.worker.connected = s.worker.connected) := by
  cases hact : c.actionAt? k with
  | none =>
    unfold Session.Unbuilt
    rw [ha.rests hact]
    exact ⟨id, fun _ => rfl⟩
  | some a =>
    have hw := ha.acts a hact
    refine ⟨?_, fun hne => Worker.connected_act? hw ?_ ?_⟩
    · rintro ⟨reason, hreason⟩
      exact ⟨reason, (hr.readiness_eq hw (by rw [hreason]; rintro ⟨⟩)).trans hreason⟩
    · rintro rfl
      refine hne ?_
      unfold Change.actionAt? at hact
      split at hact
      · rename_i hseat
        cases c <;> cases hact
        cases hseat
        rfl
      · cases hact
    · rintro rfl
      unfold Change.actionAt? at hact
      split at hact
      · cases c <;> cases hact
      · cases hact

/-- An attempt to queue the release is refused only by a worker that has faulted. -/
theorem refusal_of_connected {notes : List (Worker.Note ρ Job JobAnswer)}
    {w : Worker ρ Job JobAnswer} (ht : Worker.Told notes w)
    (hc : w.connected = true ∨ ∃ reason, w.readiness = .failed reason) :
    w.refusal? false = none ∨ w.refusal? false = some .faulted := by
  rcases Bool.eq_false_or_eq_true w.isFaulted with hf | hf
  · exact Or.inr (by simp [Worker.refusal?, hf])
  · rcases hc with hc | ⟨reason, hr⟩
    · rcases Bool.eq_false_or_eq_true w.phase.listens with hl | hl
      · exact Or.inl (by simp [Worker.refusal?, hf, hc, hl])
      · rcases ht.fate.of_deaf hl with hfault | ⟨hdrained, -⟩
        · rw [hfault.2] at hf
          cases hf
        · rw [hdrained.2.2] at hc
          cases hc
    · rw [ht.readied.2 reason hr] at hf
      cases hf

/-- An event that neither closes the session nor queues its release leaves no trace of its end. -/
theorem concat_of_other {k : Nat} (past : List (Engine ρ × Event ρ)) {e : Engine ρ}
    {event : Event ρ} {s : Session ρ} (hs : e.registry.session? k = some s)
    (hc : e.change event ≠ .close k) (hsub : ∀ job, e.change event ≠ .submit k false job) :
    closers k (past ++ [(e, event)]) = closers k past ∧
      attempts k (past ++ [(e, event)]) = attempts k past ∧
      releases k (past ++ [(e, event)]) = releases k past := by
  have hnone : (Worker.History.accepted (note? k (e, event)).toList).filter
      (fun y => y.2 = .release) = [] := by
    rw [accepted_note? hs]
    split
    · rename_i bounded job hact
      have hchange := change_of_actionAt? hact
      obtain ⟨q, -, ⟨rfl, -⟩ | ⟨info, arguments, -, rfl, -⟩⟩ := submit_of_step? hchange
      · exact absurd hchange (hsub job)
      · split <;> simp
    · rfl
  refine ⟨closers_of_other hc past, attempts_of_other hsub past, ?_⟩
  rw [releases_concat, hnone]
  simp

section Steps

variable {k : Nat} {past : List (Engine ρ × Event ρ)} {e e' : Engine ρ} {event : Event ρ}
  {s s' : Session ρ}

/-- An event that leaves no trace of the end of the session keeps its account: nobody begins to owe
the release, and nobody ceases to. -/
theorem Account.kept (hacc : Account k past e s) (hs : e.registry.session? k = some s)
    (hc : e.change event ≠ .close k) (hsub : ∀ job, e.change event ≠ .submit k false job)
    (hclosed : s'.isClosed = s.isClosed) (hu : s.Unbuilt → s'.Unbuilt)
    (hconn : attempts k past = [] →
      s'.worker.connected = s.worker.connected ∨ s.Unbuilt)
    (hholds : ∀ q, (e'.partAt q).hold k = (e.partAt q).hold k ∨
      ((e.partAt q).hold k ≠ .owing ∧ (e'.partAt q).hold k = .free) ∨
      ((e'.partAt q).hold k = .failing ∧ s.Unbuilt)) :
    Account k (past ++ [(e, event)]) e' s' := by
  obtain ⟨h₁, h₂, h₃⟩ := concat_of_other past hs hc hsub
  constructor
  case closed =>
    rw [hclosed, h₁]
    exact hacc.closed
  case opened =>
    rw [hclosed, h₁]
    exact hacc.opened
  case owing =>
    intro q hq
    rw [h₁, h₂]
    rcases hholds q with heq | ⟨-, hf⟩ | ⟨hf, -⟩
    · exact hacc.owing q (heq ▸ hq)
    · rw [hf] at hq
      cases hq
    · rw [hf] at hq
      cases hq
  case paid =>
    intro q hq
    rw [h₁, h₂]
    rcases hholds q with heq | ⟨-, hf⟩ | ⟨hf, -⟩
    · exact hacc.paid q (heq ▸ hq)
    · rw [hf] at hq
      cases hq
    · rw [hf] at hq
      cases hq
  case failing =>
    intro q hq
    rcases hholds q with heq | ⟨-, hf⟩ | ⟨-, hf⟩
    · exact hu (hacc.failing q (heq ▸ hq))
    · rw [hf] at hq
      cases hq
    · exact hu hf
  case tried =>
    rw [h₁, h₂]
    exact hacc.tried
  case winner =>
    intro p hp hat
    rw [h₁] at hp
    rw [h₂] at hat
    rcases hacc.winner p hp hat with how | hf
    · rcases hholds p with heq | ⟨hne, -⟩ | ⟨-, hf⟩
      · exact Or.inl (heq.trans how)
      · exact absurd how hne
      · exact Or.inr (hu hf)
    · exact Or.inr (hu hf)
  case connected =>
    intro hat
    rw [h₂] at hat
    rcases hconn hat with heq | hf
    · rw [heq]
      exact (hacc.connected hat).imp id hu
    · exact Or.inr (hu hf)
  case accepted =>
    rw [h₂, h₃]
    exact hacc.accepted

/-- **Whoever closes the session** is the first to do so, and owes its release unless there is no
resource. -/
theorem Account.won (hacc : Account k past e s) (hs : e.registry.session? k = some s)
    (ho : s.isClosed = false) (hclosed : s'.isClosed = true) {q : Nat}
    (hplace : event.place? = some q) (hc : e.change event = .close k)
    (hu : s.Unbuilt → s'.Unbuilt) (hconn : s'.worker.connected = s.worker.connected)
    (hq : (e'.partAt q).hold k = .owing ∨ ((e'.partAt q).hold k = .failing ∧ s.Unbuilt))
    (hrest : ∀ q', q' ≠ q → (e'.partAt q').hold k = (e.partAt q').hold k) :
    Account k (past ++ [(e, event)]) e' s' := by
  have hno : closers k past = [] := hacc.opened ho
  have hat : attempts k past = [] := by
    rcases hacc.tried with hat | ⟨q', r, -, hcl, -⟩
    · exact hat
    · rw [hno] at hcl
      cases hcl
  have h₁ : closers k (past ++ [(e, event)]) = [q] := by
    simp [closers_concat, hno, closer?, hc, Change.closed?, hplace]
  have h₂ : attempts k (past ++ [(e, event)]) = [] := by
    simp [attempts_concat, hat, attempt?, hc, Change.released?]
  have h₃ : releases k (past ++ [(e, event)]) = releases k past := by
    rw [releases_concat, accepted_note? hs, hc]
    simp [Change.actionAt?, Change.seat?, Change.action?]
  constructor
  case closed => exact fun _ => ⟨q, h₁⟩
  case opened =>
    intro hf
    rw [hclosed] at hf
    cases hf
  case owing =>
    intro q' hq'
    by_cases hsame : q' = q
    · subst hsame
      exact ⟨h₁, h₂⟩
    · have := (hacc.owing q' (hrest q' hsame ▸ hq')).1
      rw [hno] at this
      cases this
  case paid =>
    intro q' hq'
    by_cases hsame : q' = q
    · subst hsame
      rcases hq with hq | ⟨hq, -⟩ <;> (rw [hq] at hq'; cases hq')
    · exact absurd hat (hacc.paid q' (hrest q' hsame ▸ hq')).2
  case failing =>
    intro q' hq'
    by_cases hsame : q' = q
    · subst hsame
      rcases hq with hq | ⟨-, hf⟩
      · rw [hq] at hq'
        cases hq'
      · exact hu hf
    · exact hu (hacc.failing q' (hrest q' hsame ▸ hq'))
  case tried => exact Or.inl h₂
  case winner =>
    intro p hp _
    rw [h₁] at hp
    cases hp
    exact hq.imp id fun hf => hu hf.2
  case connected =>
    intro _
    rw [hconn]
    exact (hacc.connected hat).imp id hu
  case accepted =>
    rw [h₂, h₃, hacc.accepted, hat]

/-- **The attempt to queue the release** is the first and the last. -/
theorem Account.tried_once (hacc : Account k past e s)
    (ht : Worker.Told (notes k past) s.worker) (hs : e.registry.session? k = some s)
    (hclosed : s'.isClosed = s.isClosed) {q : Nat} (hplace : event.place? = some q)
    (hc : e.change event = .submit k false .release) (hu : s.Unbuilt → s'.Unbuilt)
    (hq : (e.partAt q).hold k = .owing) (hq' : (e'.partAt q).hold k = .paid)
    (hrest : ∀ q', q' ≠ q → (e'.partAt q').hold k = (e.partAt q').hold k) :
    Account k (past ++ [(e, event)]) e' s' := by
  obtain ⟨hcl, hat⟩ := hacc.owing q hq
  have h₁ : closers k (past ++ [(e, event)]) = [q] := by
    simp [closers_concat, hcl, closer?, hc, Change.closed?]
  have h₂ : attempts k (past ++ [(e, event)]) = [(q, s.worker.refusal? false)] := by
    simp [attempts_concat, hat, attempt?, hc, Change.released?, hplace, hs]
  have h₃ : (releases k (past ++ [(e, event)])).length =
      if s.worker.refusal? false = none then 1 else 0 := by
    have h₀ : (releases k past).length = 0 := by
      rw [hacc.accepted, hat]
      rfl
    rw [releases_concat, accepted_note? hs, hc, List.length_append, h₀]
    simp only [Change.actionAt?, Change.seat?, Change.action?, if_true]
    split <;> simp
  constructor
  case closed => exact fun _ => ⟨q, h₁⟩
  case opened =>
    intro hf
    rw [hclosed] at hf
    rw [hacc.opened hf] at hcl
    cases hcl
  case owing =>
    intro q₁ hq₁
    by_cases hsame : q₁ = q
    · subst hsame
      rw [hq'] at hq₁
      cases hq₁
    · have := (hacc.owing q₁ (hrest q₁ hsame ▸ hq₁)).1
      rw [hcl] at this
      cases this
      exact absurd rfl hsame
  case paid =>
    intro q₁ hq₁
    by_cases hsame : q₁ = q
    · subst hsame
      exact ⟨h₁, by simp [h₂]⟩
    · exact absurd hat (hacc.paid q₁ (hrest q₁ hsame ▸ hq₁)).2
  case failing =>
    intro q₁ hq₁
    by_cases hsame : q₁ = q
    · subst hsame
      rw [hq'] at hq₁
      cases hq₁
    · exact hu (hacc.failing q₁ (hrest q₁ hsame ▸ hq₁))
  case tried =>
    exact Or.inr ⟨q, _, h₂, h₁, refusal_of_connected ht (hacc.connected hat)⟩
  case winner =>
    intro p hp hat'
    rw [h₂] at hat'
    cases hat'
  case connected =>
    intro hat'
    rw [h₂] at hat'
    cases hat'
  case accepted =>
    rw [h₂, h₃]
    cases s.worker.refusal? false <;> simp

/-- **Every event keeps the account.** -/
theorem Account.step (ht : Worker.Told (notes k past) s.worker) (hacc : Account k past e s)
    (h : e.step? event = some e') (hs : e.registry.session? k = some s)
    (hs' : e'.registry.session? k = some s') : Account k (past ++ [(e, event)]) e' s' := by
  obtain ⟨s₁, hs₁, ha⟩ := session_of_step? h hs
  rw [hs'] at hs₁
  cases hs₁
  obtain ⟨hu, hconn⟩ := worker_of_altered ha ht.readied
  have hv : e.registry.session? k = none → ∀ q, (e.partAt q).hold k = .free := by
    intro hn
    rw [hs] at hn
    cases hn
  have hclosed : e.change event ≠ .close k → s'.isClosed = s.isClosed := by
    intro hc
    refine Bool.eq_iff_iff.mpr (ha.closed_iff.trans ⟨fun h => ?_, Or.inl⟩)
    exact h.resolve_right hc
  rcases dealing_of_step? hv h with ⟨q, hplace, hd, hrest⟩ | ⟨hq, hrest⟩
  · rw [hs] at hd
    generalize hc : e.change event = c at hd
    generalize hh : (e.partAt q).hold k = h₀ at hd
    generalize hh' : (e'.partAt q).hold k = h₁ at hd
    cases hd with
    | quiet hq hstep =>
      rw [← hc] at hq
      refine hacc.kept hs hq.close hq.submit (hclosed hq.close) hu
        (fun _ => Or.inl (hconn hq.shutdown)) fun q' => ?_
      by_cases hsame : q' = q
      · subst hsame
        rw [hh, hh']
        rcases hstep with rfl | ⟨hne, rfl⟩ | ⟨-, rfl, s₀, reason, hs₀, hr⟩
        · exact Or.inl rfl
        · exact Or.inr (Or.inl ⟨hne, rfl⟩)
        · cases hs₀
          exact Or.inr (Or.inr ⟨rfl, reason, hr⟩)
      · exact Or.inl (hrest q' hsame)
    | wins hs₀ ho =>
      cases hs₀
      exact hacc.won hs ho (ha.closed_iff.mpr (Or.inr hc)) hplace hc hu
        (hconn (by rw [hc]; rintro ⟨⟩)) (Or.inl hh') hrest
    | fails hs₀ ho =>
      cases hs₀
      exact hacc.won hs ho (ha.closed_iff.mpr (Or.inr hc)) hplace hc hu
        (hconn (by rw [hc]; rintro ⟨⟩)) (Or.inr ⟨hh', hacc.failing q hh⟩) hrest
    | pays =>
      exact hacc.tried_once ht hs (hclosed (by rw [hc]; rintro ⟨⟩)) hplace hc hu hh hh' hrest
    | stops hfrom hto =>
      refine hacc.kept hs (by rw [hc]; rintro ⟨⟩) (by rw [hc]; rintro job ⟨⟩)
        (hclosed (by rw [hc]; rintro ⟨⟩)) hu (fun hat => Or.inr ?_) fun q' => ?_
      · rcases hfrom with rfl | rfl
        · exact absurd hat (hacc.paid q hh).2
        · exact hacc.failing q hh
      · by_cases hsame : q' = q
        · subst hsame
          rw [hh, hh']
          rcases hto with rfl | rfl
          · exact Or.inl rfl
          · refine Or.inr (Or.inl ⟨?_, rfl⟩)
            rcases hfrom with rfl | rfl <;> (rintro ⟨⟩)
        · exact Or.inl (hrest q' hsame)
  · exact hacc.kept hs hq.close hq.submit (hclosed hq.close) hu
      (fun _ => Or.inl (hconn hq.shutdown)) fun q => Or.inl (hrest q)

end Steps

/-- The account of a session from its registration on; before that, there is nothing to tell. -/
def AccountAt (k : Nat) (past : List (Engine ρ × Event ρ)) (e : Engine ρ) : Prop :=
  match e.registry.session? k with
  | some s => Account k past e s
  | none => (∀ q, (e.partAt q).hold k = .free) ∧ closers k past = [] ∧ attempts k past = []

theorem AccountAt.of_some {k : Nat} {past : List (Engine ρ × Event ρ)} {e : Engine ρ}
    {s : Session ρ} (h : AccountAt k past e) (hs : e.registry.session? k = some s) :
    Account k past e s := by
  rwa [AccountAt, hs] at h

theorem AccountAt.of_none {k : Nat} {past : List (Engine ρ × Event ρ)} {e : Engine ρ}
    (h : AccountAt k past e) (hs : e.registry.session? k = none) :
    (∀ q, (e.partAt q).hold k = .free) ∧ closers k past = [] ∧ attempts k past = [] := by
  rwa [AccountAt, hs] at h

/-- A session that has just been registered has a clean account. -/
theorem Account.born {k : Nat} {past : List (Engine ρ × Event ρ)} {e : Engine ρ} {s : Session ρ}
    (hfree : ∀ q, (e.partAt q).hold k = .free) (hcl : closers k past = [])
    (hat : attempts k past = []) (hrel : releases k past = []) (ho : s.isClosed = false)
    (hc : s.worker.connected = true) : Account k past e s where
  closed h := by
    rw [ho] at h
    cases h
  opened _ := hcl
  owing q h := by
    rw [hfree q] at h
    cases h
  paid q h := by
    rw [hfree q] at h
    cases h
  failing q h := by
    rw [hfree q] at h
    cases h
  tried := Or.inl hat
  winner p h := by
    rw [hcl] at h
    cases h
  connected _ := Or.inl hc
  accepted := by rw [hrel, hat]; rfl

/-- Before the registration of a session nobody has to do with its end, and nothing closes it. -/
theorem free_of_step? {k : Nat} {e e' : Engine ρ} {event : Event ρ}
    (hs : e.registry.session? k = none) (hfree : ∀ q, (e.partAt q).hold k = .free)
    (h : e.step? event = some e') :
    (∀ q, (e'.partAt q).hold k = .free) ∧ e.change event ≠ .close k := by
  have hd := dealing_of_step? (fun _ => hfree) h
  rw [hs] at hd
  rcases hd with ⟨q, -, hd, hrest⟩ | ⟨hq, hrest⟩
  · generalize hc : e.change event = c at hd
    generalize hh' : (e'.partAt q).hold k = h₁ at hd
    rw [hfree q] at hd
    cases hd with
    | quiet hq hstep =>
      refine ⟨fun q' => ?_, hq.close⟩
      by_cases hsame : q' = q
      · subst hsame
        rcases hstep with rfl | ⟨-, rfl⟩ | ⟨-, -, s₀, reason, hs₀, -⟩
        · exact hh'
        · exact hh'
        · cases hs₀
      · rw [hrest q' hsame]
        exact hfree q'
    | wins hs₀ ho => cases hs₀
    | stops hfrom hto => rcases hfrom with hf | hf <;> cases hf
  · refine ⟨fun q => ?_, hq.close⟩
    rw [hrest q]
    exact hfree q

theorem AccountAt.step {k : Nat} {past : List (Engine ρ × Event ρ)} {e e' : Engine ρ}
    {event : Event ρ} (ht : ToldAt k past e) (hacc : AccountAt k past e)
    (h : e.step? event = some e') : AccountAt k (past ++ [(e, event)]) e' := by
  cases hs : e.registry.session? k with
  | some s =>
    obtain ⟨s', hs', -⟩ := session_of_step? h hs
    rw [AccountAt, hs']
    exact Account.step (ht.of_some hs) (hacc.of_some hs) h hs hs'
  | none =>
    obtain ⟨hfree, hcl, hat⟩ := hacc.of_none hs
    obtain ⟨hfree', hc⟩ := free_of_step? hs hfree h
    have hcl' : closers k (past ++ [(e, event)]) = [] := (closers_of_other hc past).trans hcl
    have hat' : attempts k (past ++ [(e, event)]) = [] :=
      (attempts_of_vacant hs event past).trans hat
    unfold AccountAt
    cases hs' : e'.registry.session? k with
    | none => exact ⟨hfree', hcl', hat'⟩
    | some s' =>
      obtain ⟨metadata, -, -, rfl⟩ := born_of_step? h hs hs'
      refine .born hfree' hcl' hat' ?_ rfl rfl
      have hn : notes k (past ++ [(e, event)]) = [] := by
        rw [notes_concat, ht.of_none hs]
        simp [note?, hs]
      rw [releases, hn]
      rfl

/-- A release is only ever queued where there is a session. -/
def Grounded (k : Nat) (past : List (Engine ρ × Event ρ)) : Prop :=
  ∀ x ∈ past, ∀ job, x.1.change x.2 = .submit k false job → x.1.registry.session? k ≠ none

theorem Grounded.step {k : Nat} {past : List (Engine ρ × Event ρ)} {e e' : Engine ρ}
    {event : Event ρ} (hg : Grounded k past) (hacc : AccountAt k past e)
    (h : e.step? event = some e') : Grounded k (past ++ [(e, event)]) := by
  intro x hx job hc
  rw [List.mem_append, List.mem_singleton] at hx
  rcases hx with hx | rfl
  · exact hg x hx job hc
  · intro hn
    simp only at hc hn
    have hfree := (hacc.of_none hn).1
    rcases dealing_of_step? (fun _ => hfree) h with ⟨q, -, hd, -⟩ | ⟨hq, -⟩
    · rw [hn, hc, hfree q] at hd
      cases hd with
      | quiet hq _ => exact hq.submit job rfl
    · exact hq.submit job hc

end Engine
end Workbench
