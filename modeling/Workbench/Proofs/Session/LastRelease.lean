import Workbench.Proofs.Session.Closing

/-!
# The last operation of a session

A close queues the release of the session, waits for it, and gives up the handle of the worker only
then.  Until it does, the worker takes what it is brought; and it is still brought something by
calls that have found the session while it was open, since finding a session and bringing an
operation to its worker are two steps.

* `Task.Heads` is a call between the two steps; no call gets there once the session is closed
  (`heads_of_step?`);
* `Straggles` is an operation that such a call has brought after the session was closed;
* `Approach` ties what is behind the release to these calls, and is kept by every event
  (`Approach.step`);
* `ReleasedLast` says what follows for the end of the session, and `not_releaseComesLast` shows that
  its exceptions are there.
-/

namespace Workbench

variable {ρ : Type}

/-! ## 1. Calls on their way to a worker -/

/-- The task is a call that has found the session at a seat, and has not brought its operation to
the worker yet. -/
def Task.Heads (k : Nat) (c : Call) (info : ToolInfo) (t : Task) : Prop :=
  ∃ id, t = .call c (.check info id k) ∨ t = .call c (.enter info id k)

/-- A live session is there, and open. -/
theorem Registry.open_of_live? {r : Registry ρ} {id : String} {k : Nat} (h : r.live? id = some k) :
    ∃ s, r.session? k = some s ∧ s.isClosed = false := by
  obtain ⟨-, hopen⟩ := Option.filter_eq_some_iff.mp h
  split at hopen
  · rename_i s hs
    exact ⟨s, hs, by simpa using hopen⟩
  · cases hopen

namespace CallStage

/-- The stages of a call that is not on its way to a worker. -/
def IsAside : CallStage → Prop
  | check _ _ _ => False
  | enter _ _ _ => False
  | _ => True

/-- **A call comes to look at its session by finding it, and to bring its operation by looking at
it.** -/
theorem heads_of_step {r r' : Registry ρ} {standard : Duration} {c : Call}
    {stage stage' : CallStage} (h : stage.step r standard c = .next r' stage') :
    stage'.IsAside ∨ (∃ info id k, stage = resolve info ∧ stage' = check info id k ∧
        r.live? id = some k) ∨
      ∃ info id k, stage = check info id k ∧ stage' = enter info id k := by
  cases steps_of_step h with
  | found _ hl => exact Or.inr (Or.inl ⟨_, _, _, rfl, rfl, hl⟩)
  | suits _ _ => exact Or.inr (Or.inr ⟨_, _, _, rfl, rfl⟩)
  | _ => exact Or.inl trivial

end CallStage

namespace Engine

/-- The task at a place is a call on its way to the worker at a seat. -/
def Heads (e : Engine ρ) (k q : Nat) (c : Call) (info : ToolInfo) : Prop :=
  ∃ t, e.tasks[q]? = some t ∧ t.Heads k c info

/-- The task at a place is a call that is about to find the session at a seat, which is open. -/
def Finds (e : Engine ρ) (k q : Nat) (c : Call) (info : ToolInfo) : Prop :=
  e.tasks[q]? = some (.call c (.resolve info)) ∧
    ∃ s, e.registry.session? k = some s ∧ s.isClosed = false

/-- A call goes on as a call. -/
theorem call_of_go? {r r' : Registry ρ} {standard : Duration} {t : Task} {c : Call}
    {stage : CallStage} (h : t.go? r standard = some (r', .call c stage)) :
    ∃ stage₀, t = .call c stage₀ ∧ stage₀.step r standard c = .next r' stage := by
  cases t with
  | call c₀ stage₀ =>
    rcases Progress.cases_of_goes h with ⟨stage₁, hs, he⟩ | ⟨a, -, he⟩
    · cases he
      exact ⟨stage₀, rfl, hs⟩
    · cases he
  | create stage₀ => rcases Progress.cases_of_goes h with ⟨_, -, he⟩ | ⟨_, -, he⟩ <;> cases he
  | close id stage₀ => rcases Progress.cases_of_goes h with ⟨_, -, he⟩ | ⟨_, -, he⟩ <;> cases he
  | terminate id stage₀ =>
    rcases Progress.cases_of_goes h with ⟨_, -, he⟩ | ⟨_, -, he⟩ <;> cases he
  | sweep stage₀ => rcases Progress.cases_of_goes h with ⟨_, -, he⟩ | ⟨_, -, he⟩ <;> cases he
  | shutdown stage₀ => rcases Progress.cases_of_goes h with ⟨_, -, he⟩ | ⟨_, -, he⟩ <;> cases he
  | patrol stage₀ calledOff =>
    simp only [Task.go?] at h
    split at h
    · cases h
    · rcases Progress.cases_of_goes h with ⟨_, -, he⟩ | ⟨_, -, he⟩ <;> cases he
  | _ => cases h

/-- A call that gives up waiting is not on its way to a worker. -/
theorem aside_of_expire? {r r' : Registry ρ} {t : Task} {c : Call} {stage : CallStage}
    (h : t.expire? r = some (r', .call c stage)) : stage.IsAside := by
  cases Task.lapses_of_expire? h with
  | callClose hs => trivial
  | closeFaulted hs => trivial

/-- **A call sets out for a worker by finding its session open.** -/
theorem heads_of_turn {r : Registry ρ} {standard : Duration} {t t' : Task} {ch : Change ρ} {k : Nat}
    {c : Call} {info : ToolInfo} (h : Turn r standard t t' ch) (hh : t'.Heads k c info) :
    t.Heads k c info ∨ (t = .call c (.resolve info) ∧
      ∃ s, r.session? k = some s ∧ s.isClosed = false) := by
  obtain ⟨id, ht'⟩ := hh
  cases h with
  | go h =>
    rcases ht' with rfl | rfl
    · obtain ⟨stage, rfl, hs⟩ := call_of_go? h
      rcases CallStage.heads_of_step hs with ha | ⟨info', id', k', rfl, he, hlive⟩ |
        ⟨info', id', k', -, he⟩
      · cases ha
      · cases he
        exact Or.inr ⟨rfl, Registry.open_of_live? hlive⟩
      · cases he
    · obtain ⟨stage, rfl, hs⟩ := call_of_go? h
      rcases CallStage.heads_of_step hs with ha | ⟨info', id', k', -, he, -⟩ |
        ⟨info', id', k', rfl, he⟩
      · cases ha
      · cases he
      · cases he
        exact Or.inl ⟨id, Or.inl rfl⟩
  | callOff => rcases ht' with ht' | ht' <;> cases ht'
  | expire h =>
    rcases ht' with rfl | rfl
    · cases aside_of_expire? h
    · cases aside_of_expire? h
  | cutOff hp => rcases ht' with ht' | ht' <;> cases ht'
  | refuse h =>
    obtain ⟨-, -, metadata, ⟨-, rfl⟩ | ⟨c', -, rfl⟩⟩ := Task.of_refuse? h
    · rcases ht' with ht' | ht' <;> cases ht'
    · rcases ht' with ht' | ht' <;> cases ht'
  | detour h =>
    obtain ⟨_, _, -, ⟨-, rfl⟩ | ⟨_, -, rfl⟩⟩ := Task.of_detour? h
    · rcases ht' with ht' | ht' <;> cases ht'
    · rcases ht' with ht' | ht' <;> cases ht'

/-- Only its own step lets a call find its session. -/
theorem go_of_resolve {e e' : Engine ρ} {event : Event ρ} {q : Nat} {c : Call} {info : ToolInfo}
    (h : e.step? event = some e') (hp : event.place? = some q)
    (ht : e.tasks[q]? = some (.call c (.resolve info))) : event = .go q := by
  cases takes_of_step? h hp ht with
  | go hg => rfl
  | expire hg => cases hg
  | refuse hg => cases hg
  | detour hg => cases hg

theorem heads_of_step? {e e' : Engine ρ} {event : Event ρ} {k q : Nat} {c : Call} {info : ToolInfo}
    (h : e.step? event = some e') (hh : e'.Heads k q c info) :
    e.Heads k q c info ∨ (event = .go q ∧ e.Finds k q c info) := by
  obtain ⟨t', ht', hh⟩ := hh
  cases ht : e.tasks[q]? with
  | none =>
    obtain ⟨id, rfl | rfl⟩ := hh <;>
      (rcases fresh_of_step? h ht ht' with ⟨request, hr⟩ | hr | hr
       · cases request <;> cases hr
       · cases hr
       · cases hr)
  | some t =>
    obtain ⟨t₁, ht₁, hturn⟩ := task_of_step? h ht
    rw [ht'] at ht₁
    cases ht₁
    rcases hturn with ⟨hp, hturn⟩ | ⟨-, rfl | ⟨stage, calledOff, -, rfl⟩⟩
    · rcases heads_of_turn hturn hh with hh₀ | ⟨rfl, hopen⟩
      · exact Or.inl ⟨t, ht, hh₀⟩
      · exact Or.inr ⟨go_of_resolve h hp ht, ht, hopen⟩
    · exact Or.inl ⟨t', ht, hh⟩
    · obtain ⟨id, he | he⟩ := hh <;> cases he

/-- **An operation is brought by a call on its way.** -/
theorem heads_of_partAt {e : Engine ρ} {k q : Nat} {info : ToolInfo} {arguments : Json}
    (h : e.partAt q = .enter info arguments k) :
    ∃ c id, e.tasks[q]? = some (.call c (.enter info id k)) ∧ arguments = c.arguments := by
  obtain ⟨t, ht, hpart⟩ := task_of_partAt h (by rintro ⟨⟩)
  cases t with
  | call c stage =>
    cases stage with
    | enter info' id seat =>
      simp only [Task.part, CallStage.part] at hpart
      split at hpart <;> cases hpart
      exact ⟨c, id, ht, rfl⟩
    | _ => cases hpart
  | shutdown stage => cases stage <;> cases hpart
  | patrol stage calledOff => cases stage <;> cases hpart
  | _ => cases hpart

/-! ## 2. What is behind the release -/

open Worker.History

/-- The operation was brought by a call that had found the session open, and brought it when the
session was closed and the handle of its worker not given up yet. -/
def Straggles (k : Nat) (past : List (Engine ρ × Event ρ)) (job : Job) : Prop :=
  ∃ found brought q c info id, (found, .go q) ∈ past ∧ found.Finds k q c info ∧
    (brought, .go q) ∈ past ∧ brought.tasks[q]? = some (.call c (.enter info id k)) ∧
    job = .tool info c.arguments ∧
    ∃ s, brought.registry.session? k = some s ∧ s.isClosed = true ∧ s.worker.connected = true

theorem Straggles.mono {k : Nat} {past : List (Engine ρ × Event ρ)} {job : Job}
    (h : Straggles k past job) (x : Engine ρ × Event ρ) : Straggles k (past ++ [x]) job := by
  obtain ⟨found, brought, q, c, info, id, hfound, hfinds, hbrought, henter, hjob, hs⟩ := h
  exact ⟨found, brought, q, c, info, id, List.mem_append_left _ hfound, hfinds,
    List.mem_append_left _ hbrought, henter, hjob, hs⟩

namespace Books

variable {k : Nat} {past : List (Engine ρ × Event ρ)} {e e' : Engine ρ} {event : Event ρ}

/-- A release that is accepted was tried. -/
theorem attempts_ne_nil (hb : Books k past e) {n : Nat}
    (hr : (n, .release) ∈ accepted (notes k past)) : attempts k past ≠ [] := by
  intro hat
  have hmem : (n, Job.release) ∈ releases k past := List.mem_filter.mpr ⟨hr, by simp⟩
  cases hs : e.registry.session? k with
  | none =>
    rw [hb.told.of_none hs] at hr
    cases hr
  | some s =>
    have hlen := (hb.account.of_some hs).accepted
    rw [hat] at hlen
    rw [List.eq_nil_of_length_eq_zero hlen] at hmem
    cases hmem

/-- When its release has been tried, a session is closed. -/
theorem closed_of_attempts (hb : Books k past e) (hat : attempts k past ≠ []) :
    ∃ s, e.registry.session? k = some s ∧ s.isClosed = true := by
  cases hs : e.registry.session? k with
  | none => exact absurd (hb.account.of_none hs).2.2 hat
  | some s =>
    have hacc : Account k past e s := hb.account.of_some hs
    refine ⟨s, rfl, ?_⟩
    rcases Bool.eq_false_or_eq_true s.isClosed with hc | hc
    · exact hc
    · rcases hacc.tried with hnone | ⟨q, r, -, hcl, -⟩
      · exact absurd hnone hat
      · rw [hacc.opened hc] at hcl
        cases hcl

/-- The release is tried for the first time when it is tried. -/
theorem attempts_eq_nil (hb : Books k past e) (h : e.step? event = some e')
    (hc : e.change event = .submit k false .release) : attempts k past = [] := by
  have howing : (e.registry.session? k = none → ∀ q, (e.partAt q).hold k = .free) →
      ∃ q, (e.partAt q).hold k = .owing := by
    intro hv
    rcases dealing_of_step? hv h with ⟨q, -, hd, -⟩ | ⟨hq, -⟩
    · rw [hc] at hd
      refine ⟨q, ?_⟩
      generalize (e.partAt q).hold k = h₀ at hd
      generalize (e'.partAt q).hold k = h₁ at hd
      cases hd with
      | quiet hq _ => exact absurd rfl (hq.submit _)
      | pays => rfl
    · exact absurd hc (hq.submit _)
  cases hs : e.registry.session? k with
  | none => exact (hb.account.of_none hs).2.2
  | some s =>
    obtain ⟨q, hq⟩ := howing fun hn => by
      rw [hs] at hn
      cases hn
    exact ((hb.account.of_some hs).owing q hq).2

end Books

/-- **What is behind the release, and what can still get there.** -/
structure Approach (k : Nat) (past : List (Engine ρ × Event ρ)) (e : Engine ρ) : Prop where
  /-- Who is on the way to the worker has found the session open. -/
  found : ∀ q c info, e.Heads k q c info → ∃ e₀, (e₀, .go q) ∈ past ∧ e₀.Finds k q c info
  /-- Behind the release there are only stragglers. -/
  behind : ∀ front n rest, accepted (notes k past) = front ++ (n, .release) :: rest →
    ∀ y ∈ rest, Straggles k past y.2
  /-- If nobody was on the way when the release was queued, nobody is, and nothing is behind it. -/
  cleared : ∀ x ∈ past, x.1.change x.2 = .submit k false .release →
    (∀ q c info, ¬ x.1.Heads k q c info) →
    (∀ q c info, ¬ e.Heads k q c info) ∧
      ∀ front n rest, accepted (notes k past) = front ++ (n, .release) :: rest → rest = []

namespace Approach

variable {k : Nat} {past : List (Engine ρ × Event ρ)} {e e' : Engine ρ} {event : Event ρ}

theorem behind_step (ha : Approach k past e) (hb : Books k past e) (h : e.step? event = some e')
    {front rest : List (Nat × Job)} {n : Nat}
    (hsplit : accepted (notes k (past ++ [(e, event)])) = front ++ (n, .release) :: rest) :
    ∀ y ∈ rest, Straggles k (past ++ [(e, event)]) y.2 := by
  rcases accepted_concat k past e event with hkept | ⟨s, bounded, job, hs, hc, hr, hnew⟩
  · rw [hkept] at hsplit
    exact fun y hy => (ha.behind front n rest hsplit y hy).mono _
  · rw [hnew] at hsplit
    rcases Worker.concat_eq_append_cons hsplit with ⟨rfl, -, -⟩ | ⟨kept, rfl, hold⟩
    · intro y hy
      cases hy
    · have hmem : (n, Job.release) ∈ accepted (notes k past) := by simp [hold]
      have hat := hb.attempts_ne_nil hmem
      intro y hy
      rw [List.mem_append, List.mem_singleton] at hy
      rcases hy with hy | rfl
      · exact (ha.behind front n kept hold y hy).mono _
      · obtain ⟨q, rfl, ⟨rfl, rfl⟩ | ⟨info, arguments, -, rfl, hp⟩⟩ := submit_of_step? hc
        · exact absurd (hb.attempts_eq_nil h hc) hat
        · obtain ⟨c, id, hq, rfl⟩ := heads_of_partAt hp
          obtain ⟨e₀, hmem₀, hfinds⟩ := ha.found q c info ⟨_, hq, id, Or.inr rfl⟩
          obtain ⟨s', hs', hclosed⟩ := hb.closed_of_attempts hat
          rw [hs] at hs'
          cases hs'
          exact ⟨e₀, e, q, c, info, id, List.mem_append_left _ hmem₀, hfinds, by simp, hq, rfl, s,
            hs, hclosed, (Worker.connected_of_refusal? hr).2.1⟩

/-- At the beginning there are no calls. -/
theorem start (settings : SessionSettings) (standard : Duration) (ids : Nat → String)
    (now k : Nat) : Approach k [] (start settings standard ids now : Engine ρ) := by
  constructor
  case found =>
    rintro q c info ⟨t, ht, -⟩
    simp [Engine.start] at ht
  case behind =>
    intro front n rest hsplit
    simp [notes, accepted] at hsplit
  case cleared =>
    intro x hx
    cases hx

/-- Nobody sets out for the worker of a session whose release was tried. -/
theorem clear_step (hb : Books k past e) (h : e.step? event = some e') (hat : attempts k past ≠ [])
    (hclear : ∀ q c info, ¬ e.Heads k q c info) : ∀ q c info, ¬ e'.Heads k q c info := by
  intro q c info hh
  rcases heads_of_step? h hh with hh | ⟨-, -, s, hs, ho⟩
  · exact hclear q c info hh
  · obtain ⟨s', hs', hclosed⟩ := hb.closed_of_attempts hat
    rw [hs] at hs'
    cases hs'
    rw [ho] at hclosed
    cases hclosed

/-- **Every event keeps it.** -/
theorem step (ha : Approach k past e) (hb : Books k past e) (h : e.step? event = some e') :
    Approach k (past ++ [(e, event)]) e' := by
  refine ⟨fun q c info hh => ?_, fun front n rest hsplit => ha.behind_step hb h hsplit,
    fun x hx hc hclear => ?_⟩
  · rcases heads_of_step? h hh with hh | ⟨rfl, hfinds⟩
    · obtain ⟨e₀, hmem, hfinds⟩ := ha.found q c info hh
      exact ⟨e₀, List.mem_append_left _ hmem, hfinds⟩
    · exact ⟨e, by simp, hfinds⟩
  · rw [List.mem_append, List.mem_singleton] at hx
    rcases hx with hx | rfl
    · obtain ⟨hnone, hlast⟩ := ha.cleared x hx hc hclear
      obtain ⟨q, hq, -⟩ := submit_of_step? hc
      obtain ⟨r, hmem⟩ := hb.grounded.attempt hx hq hc
      have hat : attempts k past ≠ [] := List.ne_nil_of_mem hmem
      refine ⟨clear_step hb h hat hnone, fun front n rest hsplit => ?_⟩
      rcases accepted_concat k past e event with hkept | ⟨s, bounded, job, -, hc', -, -⟩
      · rw [hkept] at hsplit
        exact hlast front n rest hsplit
      · obtain ⟨q', rfl, ⟨rfl, rfl⟩ | ⟨info, arguments, -, rfl, hp⟩⟩ := submit_of_step? hc'
        · exact absurd (hb.attempts_eq_nil h hc') hat
        · obtain ⟨c, id, hq', -⟩ := heads_of_partAt hp
          exact absurd ⟨_, hq', id, Or.inr rfl⟩ (hnone q' c info)
    · have hat : attempts k past = [] := hb.attempts_eq_nil h hc
      have hfresh : ∀ n, (n, Job.release) ∉ accepted (notes k past) :=
        fun n hn => hb.attempts_ne_nil hn hat
      constructor
      · intro q c info hh
        rcases heads_of_step? h hh with hh | ⟨rfl, hq, -⟩
        · exact hclear q c info hh
        · have hidle : e.change (.go q) = .nothing := by
            simp [change, hq, Task.change, Task.part, CallStage.part, Part.change]
          rw [hidle] at hc
          cases hc
      · intro front n rest hsplit
        rcases accepted_concat k past e event with hkept | ⟨s, bounded, job, -, -, -, hnew⟩
        · rw [hkept] at hsplit
          exact absurd (by simp [hsplit]) (hfresh n)
        · rw [hnew] at hsplit
          rcases Worker.concat_eq_append_cons hsplit with ⟨hrest, -, -⟩ | ⟨kept, -, hold⟩
          · exact hrest
          · exact absurd (by simp [hold]) (hfresh n)

end Approach

/-! ## 3. The end of the session -/

/-- A handle that was given up stays so. -/
theorem disconnected_of_step? {e e' : Engine ρ} {event : Event ρ} {k : Nat} {s : Session ρ}
    (h : e.step? event = some e') (hs : e.registry.session? k = some s)
    (hc : s.worker.connected = false) :
    ∃ s', e'.registry.session? k = some s' ∧ s'.worker.connected = false := by
  obtain ⟨s', hs', ha⟩ := session_of_step? h hs
  refine ⟨s', hs', ?_⟩
  cases hact : (e.change event).actionAt? k with
  | none =>
    rw [ha.rests hact]
    exact hc
  | some a => exact Worker.disconnected_act? (ha.acts a hact) hc

/-- **Nothing is accepted after the handle was given up.** -/
theorem accepted_of_disconnected {k : Nat} {past : List (Engine ρ × Event ρ)} {e e' : Engine ρ}
    {later : List (Event ρ)} {s : Session ρ} (h : e.run? later = some e')
    (hs : e.registry.session? k = some s) (hc : s.worker.connected = false) :
    accepted (notes k (past ++ e.trace later)) = accepted (notes k past) := by
  refine (run?_induction (P := fun past' e₁ => accepted (notes k past') = accepted (notes k past) ∧
    ∃ s₁, e₁.registry.session? k = some s₁ ∧ s₁.worker.connected = false)
    (fun past' e₁ event e₂ hP hstep => ?_) h ⟨rfl, s, hs, hc⟩).1
  obtain ⟨hsame, s₁, hs₁, hc₁⟩ := hP
  refine ⟨?_, disconnected_of_step? hstep hs₁ hc₁⟩
  rcases accepted_concat k past' e₁ event with hkept | ⟨s₂, bounded, job, hs₂, -, hr, -⟩
  · exact hkept.trans hsame
  · rw [hs₁] at hs₂
    cases hs₂
    rw [(Worker.connected_of_refusal? hr).2.1] at hc₁
    cases hc₁

/-- How the operations of a session with a resource come to their end, as the trace and the history
of its worker tell it. -/
structure ReleasedLast (k : Nat) (past : List (Engine ρ × Event ρ)) (e : Engine ρ) (s : Session ρ) :
    Prop where
  /-- There is at most one release. -/
  once : (releases k past).length ≤ 1
  /-- If no call is on its way to the worker when the release is queued, nothing begins after the
  release. -/
  last : ∀ x ∈ past, x.1.change x.2 = .submit k false .release →
    (∀ q c info, ¬ x.1.Heads k q c info) →
    ∀ front n rest, begun (notes k past) = front ++ (n, .release) :: rest → rest = []
  /-- In any case, only stragglers begin after it. -/
  behind : ∀ front n rest, begun (notes k past) = front ++ (n, .release) :: rest →
    ∀ y ∈ rest, Straggles k past y.2
  /-- When the handle is given up, there are no more stragglers. -/
  shut : s.worker.connected = false → ∀ later e', e.run? later = some e' →
    accepted (notes k (past ++ e.trace later)) = accepted (notes k past)
  /-- A worker that has ended has begun the release, unless an operation in front of it crashed. -/
  runs : s.worker.hasEnded = true → ∀ n, (n, .release) ∈ accepted (notes k past) →
    (n, .release) ∈ begun (notes k past) ∨ ∃ x, (x, none) ∈ ended (notes k past) ∧ x.1 < n
  /-- An operation that crashes is the last that begins. -/
  crash : ∀ x, (x, none) ∈ ended (notes k past) → ∃ front, begun (notes k past) = front ++ [x]

/-- **The release is the last operation of a session**, but for calls on their way and for
crashes. -/
theorem releasedLast_of_run? {settings : SessionSettings} {standard : Duration} {ids : Nat → String}
    {now : Nat} {e : Engine ρ} {events : List (Event ρ)} {k : Nat} {s : Session ρ}
    (h : (start settings standard ids now).run? events = some e)
    (hs : e.registry.session? k = some s) (hready : s.worker.readiness = .ready) :
    ReleasedLast k ((start settings standard ids now).trace events) e s := by
  generalize hpast : (start settings standard ids now).trace events = past
  have hall : Books k past e ∧ Approach k past e := by
    rw [← hpast]
    exact run?_induction (P := fun past e => Books k past e ∧ Approach k past e)
      (fun _ _ _ _ hP h => ⟨hP.1.step h, hP.2.step hP.1 h⟩) h
      ⟨Books.start settings standard ids now k, Approach.start settings standard ids now k⟩
  obtain ⟨hb, ha⟩ := hall
  have ht : Worker.Told (notes k past) s.worker := hb.told.of_some hs
  have hacc : Account k past e s := hb.account.of_some hs
  obtain ⟨waiting, hprefix⟩ := ht.order.begun_prefix
  have hsplit : ∀ {front n rest}, begun (notes k past) = front ++ (n, .release) :: rest →
      accepted (notes k past) = front ++ (n, .release) :: (rest ++ waiting) := by
    intro front n rest hbegun
    rw [← hprefix, hbegun]
    simp
  constructor
  case once => exact hacc.releases_le
  case last =>
    intro x hx hc hclear front n rest hbegun
    exact (List.append_eq_nil_iff.mp
      ((ha.cleared x hx hc hclear).2 front n _ (hsplit hbegun))).1
  case behind =>
    intro front n rest hbegun y hy
    exact ha.behind front n _ (hsplit hbegun) y (List.mem_append_left _ hy)
  case shut => exact fun hc later e' hrun => accepted_of_disconnected hrun hs hc
  case runs =>
    intro hend n hn
    rcases ht.ran_of_hasEnded hend hn with hran | hcrash | ⟨reason, hr⟩
    · exact Or.inl hran
    · exact Or.inr hcrash
    · rw [hready] at hr
      cases hr
  case crash => exact fun x hx => ht.last_of_crash hx

/-- The arguments of a call and a close of one session. -/
def plantArguments : Json := .object [("session_id", .str "first"), ("project_path", .str "plant")]

/-- A call has found the session and looked at it; a close has come in. -/
def callAndClose : List (Event Nat) :=
  [.arrive (.create []), .go 0, .work 0 (.built 7), .go 0,
    .arrive (.call ⟨"open_project", plantArguments⟩),
    .arrive (.call ⟨"close_session", plantArguments⟩), .go 1, .go 1, .go 1]

/-- The operation is queued, then the release; both run. -/
def orderlyClose : List (Event Nat) :=
  callAndClose ++ [.go 1, .go 2, .go 2, .go 2, .go 2, .work 0 .start,
    .work 0 (.finish 8 (.ok ⟨"", .null⟩)), .work 0 .start]

theorem releasedLast_orderlyClose : ∃ (e : Engine Nat) (s : Session Nat) (tool : Job),
    let e₀ := start (.ofConfig SessionConfig.standard) (.ofSeconds 60) (fun _ => "first") 0
    e₀.run? orderlyClose = some e ∧ e.registry.session? 0 = some s ∧ s.worker.readiness = .ready ∧
    ReleasedLast 0 (e₀.trace orderlyClose) e s ∧
    begun (notes 0 (e₀.trace orderlyClose)) = [(0, tool), (1, .release)] :=
  ⟨_, _, _, rfl, rfl, rfl, releasedLast_of_run? rfl rfl rfl, rfl⟩

/-- Once a session was closed and its worker has ended, the release has begun, and nothing after
it. -/
def ReleaseComesLast (k : Nat) (past : List (Engine ρ × Event ρ)) (s : Session ρ) : Prop :=
  closers k past ≠ [] → s.worker.hasEnded = true →
    ∃ front n, begun (notes k past) = front ++ [(n, .release)]

/-- The operation crashes when the release is queued behind it. -/
def crashedClose : List (Event Nat) :=
  callAndClose ++ [.go 1, .work 0 .start, .go 2, .go 2, .go 2, .go 2, .work 0 (.crash 8),
    .work 0 .poison, .work 0 .hangUp, .work 0 (.discard false), .go 2, .go 2, .go 2, .go 2, .go 2]

/-- The call brings its operation when the release is queued, and the close waits for it. -/
def overtakenClose : List (Event Nat) :=
  callAndClose ++ [.go 2, .go 2, .go 2, .go 2, .go 1, .work 0 .start,
    .work 0 (.finish 7 (.ok ⟨"", .null⟩)), .go 2, .go 2, .work 0 .start,
    .work 0 (.finish 8 (.ok ⟨"", .null⟩)), .work 0 .takeStop, .work 0 .hangUp,
    .work 0 (.discard false)]

/-- **The exceptions are there**: a crash takes the release away, and a straggler begins after it.
-/
theorem not_releaseComesLast :
    let e₀ : Engine Nat := start (.ofConfig SessionConfig.standard) (.ofSeconds 60)
      (fun _ => "first") 0
    (∃ e s tool, e₀.run? crashedClose = some e ∧ e.registry.session? 0 = some s ∧
      s.worker.readiness = .ready ∧ begun (notes 0 (e₀.trace crashedClose)) = [(0, tool)] ∧
      ¬ ReleaseComesLast 0 (e₀.trace crashedClose) s) ∧
    ∃ e s tool, e₀.run? overtakenClose = some e ∧ e.registry.session? 0 = some s ∧
      s.worker.readiness = .ready ∧
      begun (notes 0 (e₀.trace overtakenClose)) = [(0, .release), (1, tool)] ∧
      ¬ ReleaseComesLast 0 (e₀.trace overtakenClose) s := by
  refine ⟨⟨_, _, _, rfl, rfl, rfl, rfl, fun h => ?_⟩, ⟨_, _, _, rfl, rfl, rfl, rfl, fun h => ?_⟩⟩
  · obtain ⟨front, n, hbegun⟩ := h (by decide) rfl
    have hlast := congrArg List.getLast? hbegun
    rw [List.getLast?_concat] at hlast
    cases hlast
  · obtain ⟨front, n, hbegun⟩ := h (by decide) rfl
    have hlast := congrArg List.getLast? hbegun
    rw [List.getLast?_concat] at hlast
    cases hlast

end Engine
end Workbench
