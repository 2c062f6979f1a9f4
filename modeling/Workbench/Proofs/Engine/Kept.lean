import Workbench.Proofs.Engine.Trace

/-!
# What an event leaves of a session

An event is about few things, and leaves all others as they were.

* `Session.advance?_cases` says what a step of its worker does to a session: the end of a job is put
  down there, and nothing else is;
* `Engine.kept_of_step?` says who changes the suspicion of a session, and
  `Change.lastActivity_alter` who does not change its last activity;
* `Engine.workers_of_run?` is the induction for what holds of every worker by itself.
-/

namespace Workbench

variable {ρ : Type}

/-! ## 1. The steps of its worker -/

namespace Session

/-- A step of its worker tells a session of the end of a job, or changes nothing else in it. -/
theorem advance?_cases {s s' : Session ρ} {now : Nat} {move : Worker.Move ρ JobAnswer}
    (h : s.advance? now move = some s') :
    (∃ r₀ r ticket job answer, move = .finish r answer ∧
        s.worker.phase = .running r₀ ticket job ∧ s'.worker.phase = .resting r ∧
        s' = { s with worker := s'.worker }.record now job answer) ∨
      ((∀ r answer, move ≠ .finish r answer) ∧ s' = { s with worker := s'.worker }) := by
  unfold advance? at h
  split at h
  · cases h
  · rename_i w hw
    cases Worker.advance_of_advance? hw with
    | @finish r₀ r ticket job answer hp =>
      simp only [hp, Option.some.injEq] at h
      have hworker := congrArg Session.worker h
      rw [(record_fields _ _ _ _).2.2.1] at hworker
      exact Or.inl ⟨r₀, r, ticket, job, answer, rfl, hp, by rw [← hworker], by rw [← hworker, h]⟩
    | _ =>
      cases h
      exact Or.inr ⟨by rintro r answer ⟨⟩, rfl⟩

theorem record_kept (s : Session ρ) (now : Nat) (job : Job) (answer : JobAnswer) :
    (s.record now job answer).createdAt = s.createdAt ∧
      (s.record now job answer).metadata = s.metadata ∧
      (s.record now job answer).suspect = s.suspect := by
  cases job with
  | release => exact ⟨rfl, rfl, rfl⟩
  | tool info arguments =>
    cases answer with
    | error e => exact ⟨rfl, rfl, rfl⟩
    | ok out =>
      simp only [record]
      split
      · exact ⟨rfl, rfl, rfl⟩
      · unfold attach
        split <;> exact ⟨rfl, rfl, rfl⟩
      · unfold detach
        split <;> exact ⟨rfl, rfl, rfl⟩

theorem advance?_kept {s s' : Session ρ} {now : Nat} {m : Worker.Move ρ JobAnswer}
    (h : s.advance? now m = some s') :
    s'.createdAt = s.createdAt ∧ s'.metadata = s.metadata ∧ s'.suspect = s.suspect := by
  rcases advance?_cases h with ⟨-, -, -, job, answer, -, -, -, hs'⟩ | ⟨-, hs'⟩
  · rw [hs']
    exact record_kept _ now job answer
  · rw [hs']
    exact ⟨rfl, rfl, rfl⟩

end Session

/-! ## 2. Changes -/

/-- A session keeps its origin, and is suspected only where that is said. -/
theorem Change.kept_of_alter (k now : Nat) (c : Change ρ) (s : Session ρ) :
    (c.alter k now s).createdAt = s.createdAt ∧ (c.alter k now s).metadata = s.metadata ∧
      ((c.alter k now s).suspect = true ↔ s.suspect = true ∨ c = .suspect k) := by
  unfold alter
  split
  · rename_i id hu
    have hne : c ≠ .suspect k := by
      rintro rfl
      cases hu
    split <;> exact ⟨rfl, rfl, by simp only [hne, or_false]⟩
  · split
    · rename_i hseat
      cases c with
      | suspect seat =>
        cases hseat
        exact ⟨rfl, rfl, by simp only [on, Session.markSuspect, or_true]⟩
      | close seat =>
        simp only [on, Session.beginClose]
        split <;> exact ⟨rfl, rfl, by simp only [reduceCtorEq, or_false]⟩
      | work seat move =>
        simp only [on]
        cases hm : s.advance? now move with
        | none => exact ⟨rfl, rfl, by simp only [Option.getD_none, reduceCtorEq, or_false]⟩
        | some s' =>
          obtain ⟨hcreated, hmetadata, hsuspect⟩ := Session.advance?_kept hm
          exact ⟨hcreated, hmetadata, by
            simp only [Option.getD_some, hsuspect, reduceCtorEq, or_false]⟩
      | _ => exact ⟨rfl, rfl, by simp only [on, reduceCtorEq, or_false]⟩
    · rename_i hseat
      have hne : c ≠ .suspect k := by
        rintro rfl
        exact hseat rfl
      exact ⟨rfl, rfl, by simp only [hne, or_false]⟩

/-- Only the step of a worker changes the last activity of its session. -/
theorem Change.lastActivity_alter {k now : Nat} {c : Change ρ} (s : Session ρ)
    (hc : ∀ move, c ≠ .work k move) : (c.alter k now s).lastActivity = s.lastActivity := by
  unfold alter
  split
  · split <;> rfl
  · split
    · rename_i hseat
      cases c with
      | close seat =>
        simp only [on, Session.beginClose]
        split <;> rfl
      | work seat move =>
        cases hseat
        exact absurd rfl (hc move)
      | _ => rfl
    · rfl

namespace Engine

/-! ## 3. Events -/

/-- A step of a worker is an event of its own. -/
theorem work_of_change {e : Engine ρ} {event : Event ρ} {k : Nat}
    {move : Worker.Move ρ JobAnswer} (h : e.change event = .work k move) :
    event = .work k move := by
  cases event with
  | go q =>
    have hasked := (e.partAt q).isAsked_change e.registry
    rw [← change_of_go, h] at hasked
    cases hasked
  | expire q =>
    simp only [change] at h
    split at h
    · rename_i t ht
      have hasked := Task.isAsked_lapse (ρ := ρ) t
      rw [h] at hasked
      cases hasked
    · cases h
  | work seat move' =>
    cases h
    rfl
  | _ => cases h

variable {k : Nat} {e e' : Engine ρ} {event : Event ρ}

theorem kept_of_step? {s s' : Session ρ} (h : e.step? event = some e')
    (hs : e.registry.session? k = some s) (hs' : e'.registry.session? k = some s') :
    s'.createdAt = s.createdAt ∧ s'.metadata = s.metadata ∧
      (s'.suspect = true ↔ s.suspect = true ∨ e.change event = .suspect k) := by
  have halter := Registry.session?_after_of_some (e.change event) hs
  rw [← registry_of_step? h, hs'] at halter
  cases halter
  exact Change.kept_of_alter k e.registry.now _ s

/-! ## 4. What all workers have -/

/-- Every worker has a property. -/
def Workers (P : Worker ρ Job JobAnswer → Prop) (e : Engine ρ) : Prop :=
  ∀ k s, e.registry.session? k = some s → P s.worker

theorem workers_start (P : Worker ρ Job JobAnswer → Prop) (settings : SessionSettings)
    (standard : Duration) (ids : Nat → String) (now : Nat) :
    Workers P (start settings standard ids now) := by
  intro k s hs
  cases hs

/-- What a new worker has and its own steps keep, every event keeps of all workers. -/
theorem Workers.step {P : Worker ρ Job JobAnswer → Prop} (hspawn : ∀ limit, P (.spawn limit))
    (hact : ∀ w a w', P w → w.act? a = some w' → P w') (he : Workers P e)
    (h : e.step? event = some e') : Workers P e' := by
  intro k s' hs'
  rcases origin_of_step? h hs' with ⟨s, hs, ha⟩ | ⟨metadata, -, -, rfl⟩
  · cases hact' : (e.change event).actionAt? k with
    | none =>
      rw [ha.rests hact']
      exact he k s hs
    | some a => exact hact _ a _ (he k s hs) (ha.acts a hact')
  · exact hspawn _

/-- And so does every run. -/
theorem workers_of_run? {P : Worker ρ Job JobAnswer → Prop} (hspawn : ∀ limit, P (.spawn limit))
    (hact : ∀ w a w', P w → w.act? a = some w' → P w') {events : List (Event ρ)}
    (h : e.run? events = some e') (he : Workers P e) : Workers P e' :=
  run?_invariant (P := Workers P) (fun _ _ _ he h => he.step hspawn hact h) h he

end Engine
end Workbench
