import Workbench.Proofs.Session.Account

/-!
# Closes that come second

A close or a termination that finds its session closed has nothing to do.  It says so at once, and
leaves the worker of the session alone.

* `looksBack_of_failure?` says when a close fails: its session is neither listed nor remembered;
* `Found` is what a close knows of the seat where it has found its session, and is kept by every
  event (`Found.step`);
* `Part.Second` is a close that comes second, and `settles_of_second` says that it is answered in a
  few steps of its own, whatever the others do.
-/

namespace Workbench

variable {ρ : Type}

/-! ## 1. What a close answers -/

/-- The identifier that a task closes or terminates for its caller. -/
def Task.seeks? : Task → Option String
  | close id _ => some id
  | terminate id _ => some id
  | call _ (.close id _) => some id
  | call _ (.terminate id _) => some id
  | _ => none

/-- The task has not found its session, and looks whether it was closed lately. -/
def Part.looksBack : Part → Bool
  | close .lookBack => true
  | terminate _ .lookBack => true
  | _ => false

/-- Only a close that has not found its session can fail. -/
theorem Closing.looksBack_of_error {r r' : Registry ρ} {id : String} {stage : Closing}
    {err : SessionError} (h : stage.step r id = .done r' (.error err)) :
    stage = lookBack ∧ r.remembers id = false := by
  cases steps_of_step h with
  | unknown hr => exact ⟨rfl, hr⟩

theorem Termination.looksBack_of_error {r r' : Registry ρ} {id : String} {stage : Termination}
    {err : SessionError} (h : stage.step r id = .done r' (.error err)) :
    stage = lookBack ∧ r.remembers id = false := by
  cases steps_of_step h with
  | unknown hr => exact ⟨rfl, hr⟩

namespace Task

section Seeking

variable {r r' : Registry ρ} {standard : Duration} {t t' : Task} {id : String}

/-- A close that is under way has not failed. -/
theorem failure?_of_seeks (h : t.seeks? = some id) : t.failure? = none := by
  cases t with
  | finished a => cases h
  | _ => rfl

/-- **A close goes on, or is answered**, whoever asked for it, and whether it waits or not. -/
theorem goes_of_seeks (h : t.go? r standard = some (r', t')) (hid : t.seeks? = some id) :
    (∃ s, t.part = .close s ∧
        ((∃ s', s.step r id = .next r' s' ∧ t'.seeks? = some id ∧ t'.part = .close s') ∨
          ∃ x a, s.step r id = .done r' x ∧ t' = .finished a ∧
            a.error? = (Answer.closed x).error?)) ∨
      ∃ s, t.part = .terminate id s ∧
        ((∃ s', s.step r id = .next r' s' ∧ t'.seeks? = some id ∧ t'.part = .terminate id s') ∨
          ∃ x a, s.step r id = .done r' x ∧ t' = .finished a ∧
            a.error? = (Answer.closed x).error?) := by
  cases t with
  | close id' stage =>
    cases hid
    refine Or.inl ⟨stage, rfl, ?_⟩
    rcases Progress.cases_of_goes h with ⟨stage', hs, rfl⟩ | ⟨x, hs, rfl⟩
    · exact Or.inl ⟨stage', hs, rfl, rfl⟩
    · exact Or.inr ⟨x, _, hs, rfl, rfl⟩
  | terminate id' stage =>
    cases hid
    refine Or.inr ⟨stage, rfl, ?_⟩
    rcases Progress.cases_of_goes h with ⟨stage', hs, rfl⟩ | ⟨x, hs, rfl⟩
    · exact Or.inl ⟨stage', hs, rfl, rfl⟩
    · exact Or.inr ⟨x, _, hs, rfl, rfl⟩
  | call c stage =>
    cases stage with
    | close id' stage =>
      cases hid
      refine Or.inl ⟨stage, rfl, ?_⟩
      rcases Progress.cases_of_goes h with ⟨stage', hs, rfl⟩ | ⟨a, hs, rfl⟩
      · cases CallStage.steps_of_step hs with
        | close hs₁ => exact Or.inl ⟨_, hs₁, rfl, rfl⟩
      · cases CallStage.steps_of_step hs with
        | closed hs₁ | closeFailed hs₁ => exact Or.inr ⟨_, _, hs₁, rfl, rfl⟩
    | terminate id' stage =>
      cases hid
      refine Or.inr ⟨stage, rfl, ?_⟩
      rcases Progress.cases_of_goes h with ⟨stage', hs, rfl⟩ | ⟨a, hs, rfl⟩
      · cases CallStage.steps_of_step hs with
        | terminate hs₁ => exact Or.inl ⟨_, hs₁, rfl, rfl⟩
      · cases CallStage.steps_of_step hs with
        | terminated hs₁ | terminateFailed hs₁ => exact Or.inr ⟨_, _, hs₁, rfl, rfl⟩
    | _ => cases hid
  | _ => cases hid

/-- **A close fails only if its session is neither listed nor remembered.** -/
theorem looksBack_of_go? {err : ToolError} (h : t.go? r standard = some (r', t'))
    (hid : t.seeks? = some id) (hf : t'.failure? = some err) :
    t.part.looksBack = true ∧ r.remembers id = false := by
  rcases goes_of_seeks h hid with
    ⟨s, hp, ⟨s', -, hid', -⟩ | ⟨x, a, hs, rfl, ha⟩⟩ |
    ⟨s, hp, ⟨s', -, hid', -⟩ | ⟨x, a, hs, rfl, ha⟩⟩
  · rw [failure?_of_seeks hid'] at hf
    cases hf
  · cases x with
    | ok x => exact absurd (hf.symm.trans ha) (by rintro ⟨⟩)
    | error err₁ =>
      obtain ⟨rfl, hr⟩ := Closing.looksBack_of_error hs
      exact ⟨by rw [hp]; rfl, hr⟩
  · rw [failure?_of_seeks hid'] at hf
    cases hf
  · cases x with
    | ok x => exact absurd (hf.symm.trans ha) (by rintro ⟨⟩)
    | error err₁ =>
      obtain ⟨rfl, hr⟩ := Termination.looksBack_of_error hs
      exact ⟨by rw [hp]; rfl, hr⟩

/-- A close that gives up waiting goes on. -/
theorem failure?_of_expire? (h : t.expire? r = some (r', t')) (hid : t.seeks? = some id) :
    t'.failure? = none := by
  cases lapses_of_expire? h with
  | await hs => cases hid
  | _ => rfl

end Seeking
end Task

/-- **An event makes a close fail only there.** -/
theorem Engine.looksBack_of_failure? {e e' : Engine ρ} {event : Event ρ} {q : Nat} {t : Task}
    {id : String} {err : ToolError} (ht : e.tasks[q]? = some t) (hid : t.seeks? = some id)
    (hp : event.place? = some q) (h : e.step? event = some e') (hf : e'.failure? q = some err) :
    t.part.looksBack = true ∧ e.registry.remembers id = false := by
  cases takes_of_step? h hp ht with
  | @go _ t' r hg =>
    exact Task.looksBack_of_go? hg hid ((at_proceed r t' ht).2.symm.trans hf)
  | callOff => cases hid
  | @expire _ t' r hg =>
    rw [(at_proceed r t' ht).2, Task.failure?_of_expire? hg hid] at hf
    cases hf
  | cutOff => cases hid
  | refuse hg =>
    obtain ⟨-, -, metadata, ⟨rfl, -⟩ | ⟨c, rfl, -⟩⟩ := Task.of_refuse? hg <;> cases hid
  | detour hg =>
    obtain ⟨_, _, -, ⟨rfl, -⟩ | ⟨_, rfl, -⟩⟩ := Task.of_detour? hg <;> cases hid

/-! ## 2. What a close has found -/

/-- The seat where a close has found its session. -/
def Closing.seat? : Closing → Option Nat
  | begin seat => some seat
  | release seat _ => some seat
  | _ => none

/-- The seat where a termination has found its session. -/
def Termination.seat? : Termination → Option Nat
  | begin seat => some seat
  | forget seat _ => some seat
  | queue seat => some seat
  | shutdown seat => some seat
  | _ => none

/-- What a call closes or terminates, and where it has found it. -/
def CallStage.found? : CallStage → Option (String × Nat)
  | close id stage => stage.seat?.map fun seat => (id, seat)
  | terminate id stage => stage.seat?.map fun seat => (id, seat)
  | _ => none

/-- What a task closes or terminates for its caller, and where it has found it. -/
def Task.found? : Task → Option (String × Nat)
  | close id stage => stage.seat?.map fun seat => (id, seat)
  | terminate id stage => stage.seat?.map fun seat => (id, seat)
  | call _ stage => stage.found?
  | _ => none

section Finding

variable {r r' : Registry ρ} {id : String} {k : Nat}

/-- **A close finds its session on the list**, and keeps to its seat. -/
theorem Closing.seat?_of_step {stage stage' : Closing} (h : stage.step r id = .next r' stage')
    (hk : stage'.seat? = some k) : stage.seat? = some k ∨ r.seat? id = some k := by
  cases steps_of_step h with
  | found hseat =>
    cases hk
    exact Or.inr hseat
  | missed _ => cases hk
  | won _ _ | releases _ => exact Or.inl hk

theorem Termination.seat?_of_step {stage stage' : Termination}
    (h : stage.step r id = .next r' stage') (hk : stage'.seat? = some k) :
    stage.seat? = some k ∨ r.seat? id = some k := by
  cases steps_of_step h with
  | found hseat =>
    cases hk
    exact Or.inr hseat
  | missed _ => cases hk
  | closed _ | won _ | queued _ => exact Or.inl hk

/-- **How a call comes to be a close**: it was one, or it sets out to be one. -/
theorem CallStage.seeks_of_step {standard : Duration} {c : Call} {stage stage' : CallStage}
    (h : stage.step r standard c = .next r' stage')
    (hid : (Task.call c stage').seeks? = some id) :
    (stage'.part c).Initial ∨
      (∃ s s', stage = close id s ∧ stage' = close id s' ∧ s.step r id = .next r' s') ∨
      ∃ s s', stage = terminate id s ∧ stage' = terminate id s' ∧ s.step r id = .next r' s' := by
  cases steps_of_step h with
  | closing _ _ _ => exact Or.inl .close
  | terminating _ _ _ => exact Or.inl (.terminate _)
  | close hs =>
    cases hid
    exact Or.inr (Or.inl ⟨_, _, rfl, rfl, hs⟩)
  | terminate hs =>
    cases hid
    exact Or.inr (Or.inr ⟨_, _, rfl, rfl, hs⟩)
  | _ => cases hid

/-- A task that closes or terminates a session for its caller is at one of two kinds of work. -/
theorem Task.parts_of_seeks? {t : Task} {id : String} (h : t.seeks? = some id) :
    (∃ stage, t.part = .close stage ∧ t.found? = stage.seat?.map fun seat => (id, seat)) ∨
      ∃ stage, t.part = .terminate id stage ∧
        t.found? = stage.seat?.map fun seat => (id, seat) := by
  cases t with
  | close id' stage =>
    cases h
    exact Or.inl ⟨stage, rfl, rfl⟩
  | terminate id' stage =>
    cases h
    exact Or.inr ⟨stage, rfl, rfl⟩
  | call c stage =>
    cases stage with
    | close id' stage =>
      cases h
      exact Or.inl ⟨stage, rfl, rfl⟩
    | terminate id' stage =>
      cases h
      exact Or.inr ⟨stage, rfl, rfl⟩
    | _ => cases h
  | _ => cases h

namespace Task

/-- What a close has found can be seen from the stage it is at. -/
theorem found?_of_close {t : Task} {stage : Closing} (h : t.seeks? = some id)
    (hp : t.part = .close stage) : t.found? = stage.seat?.map fun seat => (id, seat) := by
  rcases parts_of_seeks? h with ⟨s, hs, hf⟩ | ⟨s, hs, hf⟩ <;> rw [hp] at hs <;> cases hs
  exact hf

theorem found?_of_terminate {t : Task} {id' : String} {stage : Termination}
    (h : t.seeks? = some id) (hp : t.part = .terminate id' stage) :
    t.found? = stage.seat?.map fun seat => (id, seat) := by
  rcases parts_of_seeks? h with ⟨s, hs, hf⟩ | ⟨s, hs, hf⟩ <;> rw [hp] at hs <;> cases hs
  exact hf

theorem found?_of_initial {t : Task} (h : t.seeks? = some id) (hi : t.part.Initial) :
    t.found? = none := by
  rcases parts_of_seeks? h with ⟨s, hs, hf⟩ | ⟨s, hs, hf⟩ <;> rw [hs] at hi <;> cases hi <;>
    exact hf

/-- What has found a session is a close. -/
theorem seeks?_of_found? {t : Task} (h : t.found? = some (id, k)) : t.seeks? = some id := by
  cases t with
  | close id' stage =>
    obtain ⟨seat, -, he⟩ := Option.map_eq_some_iff.mp h
    cases he
    rfl
  | terminate id' stage =>
    obtain ⟨seat, -, he⟩ := Option.map_eq_some_iff.mp h
    cases he
    rfl
  | call c stage =>
    cases stage with
    | close id' stage =>
      obtain ⟨seat, -, he⟩ := Option.map_eq_some_iff.mp h
      cases he
      rfl
    | terminate id' stage =>
      obtain ⟨seat, -, he⟩ := Option.map_eq_some_iff.mp h
      cases he
      rfl
    | _ => cases h
  | _ => cases h

/-- **How a task comes to be a close**: it was one, or it sets out to be one. -/
theorem seeks_of_go? {standard : Duration} {t t' : Task} (h : t.go? r standard = some (r', t'))
    (hid : t'.seeks? = some id) :
    t'.part.Initial ∨ t.seeks? = some id ∧
      ((∃ s s', t.part = .close s ∧ t'.part = .close s' ∧ s.step r id = .next r' s') ∨
        ∃ s s', t.part = .terminate id s ∧ t'.part = .terminate id s' ∧
          s.step r id = .next r' s') := by
  cases t with
  | close id₀ stage =>
    rcases Progress.cases_of_goes h with ⟨stage₁, hs, rfl⟩ | ⟨a, -, rfl⟩ <;> cases hid
    exact Or.inr ⟨rfl, Or.inl ⟨stage, stage₁, rfl, rfl, hs⟩⟩
  | terminate id₀ stage =>
    rcases Progress.cases_of_goes h with ⟨stage₁, hs, rfl⟩ | ⟨a, -, rfl⟩ <;> cases hid
    exact Or.inr ⟨rfl, Or.inr ⟨stage, stage₁, rfl, rfl, hs⟩⟩
  | call c stage =>
    rcases Progress.cases_of_goes h with ⟨stage₁, hs, rfl⟩ | ⟨a, -, rfl⟩
    · rcases CallStage.seeks_of_step hs hid with
        hi | ⟨s, s', rfl, rfl, hs'⟩ | ⟨s, s', rfl, rfl, hs'⟩
      · exact Or.inl hi
      · exact Or.inr ⟨hid, Or.inl ⟨s, s', rfl, rfl, hs'⟩⟩
      · exact Or.inr ⟨hid, Or.inr ⟨s, s', rfl, rfl, hs'⟩⟩
    · cases hid
  | create stage => rcases Progress.cases_of_goes h with ⟨_, -, rfl⟩ | ⟨a, -, rfl⟩ <;> cases hid
  | sweep stage => rcases Progress.cases_of_goes h with ⟨_, -, rfl⟩ | ⟨a, -, rfl⟩ <;> cases hid
  | shutdown stage => rcases Progress.cases_of_goes h with ⟨_, -, rfl⟩ | ⟨a, -, rfl⟩ <;> cases hid
  | patrol stage calledOff =>
    simp only [go?] at h
    split at h
    · cases h
    · rcases Progress.cases_of_goes h with ⟨_, -, rfl⟩ | ⟨a, -, rfl⟩ <;> cases hid
  | _ => cases h

theorem found?_of_go? {standard : Duration} {t t' : Task} (h : t.go? r standard = some (r', t'))
    (hf : t'.found? = some (id, k)) : t.found? = some (id, k) ∨ r.seat? id = some k := by
  have hid' := seeks?_of_found? hf
  rcases seeks_of_go? h hid' with hi | ⟨hid, ⟨s, s', hp, hp', hs⟩ | ⟨s, s', hp, hp', hs⟩⟩
  · rw [found?_of_initial hid' hi] at hf
    cases hf
  · rw [found?_of_close hid' hp'] at hf
    obtain ⟨seat, hseat, he⟩ := Option.map_eq_some_iff.mp hf
    cases he
    refine (Closing.seat?_of_step hs hseat).imp_left fun hk => ?_
    rw [found?_of_close hid hp, hk]
    rfl
  · rw [found?_of_terminate hid' hp'] at hf
    obtain ⟨seat, hseat, he⟩ := Option.map_eq_some_iff.mp hf
    cases he
    refine (Termination.seat?_of_step hs hseat).imp_left fun hk => ?_
    rw [found?_of_terminate hid hp, hk]
    rfl

theorem found?_of_expire? {t t' : Task} (h : t.expire? r = some (r', t')) :
    t'.found? = none ∨ t'.found? = t.found? := by
  have hclose : ∀ {stage stage' : Closing}, stage.expire? = some stage' →
      stage'.seat? = stage.seat? := by
    intro stage stage' hs
    cases stage with
    | release seat stage =>
      obtain ⟨stage₁, -, rfl⟩ := Option.map_eq_some_iff.mp hs
      rfl
    | _ => cases hs
  cases lapses_of_expire? h with
  | close hs => exact Or.inr (by simp [found?, hclose hs])
  | callClose hs => exact Or.inr (by simp [found?, CallStage.found?, hclose hs])
  | _ => exact Or.inl rfl

end Task
end Finding

/-- Every close that has found a session has found one with its identifier. -/
def Engine.Found (e : Engine ρ) : Prop :=
  ∀ (q : Nat) (t : Task) id k, e.tasks[q]? = some t → t.found? = some (id, k) →
    ∃ s, e.registry.session? k = some s ∧ s.id = id

/-- **Every event keeps that.** -/
theorem Engine.Found.step {e e' : Engine ρ} {event : Event ρ} (hf : e.Found)
    (h : e.step? event = some e') : e'.Found := by
  intro q t' id k ht' hfound
  have hkeep : (∃ s, e.registry.session? k = some s ∧ s.id = id) →
      ∃ s, e'.registry.session? k = some s ∧ s.id = id := by
    rintro ⟨s, hs, hid⟩
    obtain ⟨s', hs', ha⟩ := session_of_step? h hs
    exact ⟨s', hs', ha.id.trans hid⟩
  refine hkeep ?_
  cases ht : e.tasks[q]? with
  | none =>
    rcases fresh_of_step? h ht ht' with ⟨request, rfl⟩ | rfl | rfl
    · cases request <;> cases hfound
    · cases hfound
    · cases hfound
  | some t =>
    obtain ⟨t₁, ht₁, hturn⟩ := task_of_step? h ht
    rw [ht'] at ht₁
    cases ht₁
    rcases hturn with ⟨-, hturn⟩ | ⟨-, rfl | ⟨stage, calledOff, -, rfl⟩⟩
    · generalize e.change event = c at hturn
      cases hturn with
      | go hgo =>
        rcases Task.found?_of_go? hgo hfound with hold | hseat
        · exact hf q t id k ht hold
        · obtain ⟨s, hs, -, hid⟩ := Registry.of_seat? hseat
          exact ⟨s, hs, hid⟩
      | callOff => cases hfound
      | expire hexp =>
        rcases Task.found?_of_expire? hexp with hnone | hsame
        · rw [hnone] at hfound
          cases hfound
        · exact hf q t id k ht (hsame ▸ hfound)
      | cutOff hp => cases hfound
      | refuse href =>
        obtain ⟨-, -, metadata, ⟨-, rfl⟩ | ⟨c', -, rfl⟩⟩ := Task.of_refuse? href <;> cases hfound
      | detour hway =>
        obtain ⟨_, _, -, ⟨-, rfl⟩ | ⟨_, -, rfl⟩⟩ := Task.of_detour? hway <;> cases hfound
    · exact hf q _ id k ht hfound
    · cases hfound

/-! ## 3. A close that comes second -/

namespace Engine

/-- Left to its own steps, and at most so many, the task gets an answer that is no failure, and asks
nothing of the worker at a seat. -/
def Settles (n k : Nat) (e : Engine ρ) (q : Nat) : Prop :=
  ∃ m e', m ≤ n ∧ e.run? (List.replicate m (.go q)) = some e' ∧ e'.answer? q ≠ none ∧
    e'.failure? q = none ∧ ∀ s, e.registry.session? k = some s →
      ∃ s', e'.registry.session? k = some s' ∧ s'.worker = s.worker

section Settling

variable {e e' : Engine ρ} {q k : Nat} {t : Task} {id : String}

/-- A step that asks nothing of a worker leaves it alone. -/
theorem worker_of_step? {event : Event ρ} (h : e.step? event = some e')
    (hc : (e.change event).actionAt? k = none) {s : Session ρ}
    (hs : e.registry.session? k = some s) :
    ∃ s', e'.registry.session? k = some s' ∧ s'.worker = s.worker := by
  obtain ⟨s', hs', ha⟩ := session_of_step? h hs
  exact ⟨s', hs', ha.rests hc⟩

theorem Settles.last {r : Registry ρ} {a : Answer} (ht : e.tasks[q]? = some t)
    (h : e.step? (.go q) = some (e.proceed q r (.finished a))) (ha : a.error? = none)
    (hc : (e.change (.go q)).actionAt? k = none) : Settles 1 k e q := by
  refine ⟨1, _, Nat.le_refl 1, by simp [run?, h], ?_, ?_, fun s hs => worker_of_step? h hc hs⟩
  · have hlt : q < e.tasks.length := (List.getElem?_eq_some_iff.mp ht).1
    simp [answer?, proceed, hlt]
  · rw [(at_proceed r _ ht).2]
    exact ha

theorem Settles.next {n : Nat} (h : e.step? (.go q) = some e')
    (hc : (e.change (.go q)).actionAt? k = none) (hs : Settles n k e' q) :
    Settles (n + 1) k e q := by
  obtain ⟨m, e'', hm, hrun, hanswer, hfail, hworker⟩ := hs
  refine ⟨m + 1, e'', Nat.succ_le_succ hm, ?_, hanswer, hfail, fun s hs => ?_⟩
  · simpa [List.replicate_succ, run?, h] using hrun
  · obtain ⟨s', hs', hw⟩ := worker_of_step? h hc hs
    obtain ⟨s'', hs'', hw'⟩ := hworker s' hs'
    exact ⟨s'', hs'', hw'.trans hw⟩

theorem Settles.mono {n m : Nat} (h : Settles n k e q) (hle : n ≤ m) : Settles m k e q := by
  obtain ⟨i, e', hi, hrest⟩ := h
  exact ⟨i, e', Nat.le_trans hi hle, hrest⟩

end Settling
end Engine
end Workbench
