import Workbench.Proofs.Reference.Keeping
import Workbench.Proofs.Session.Closing

/-!
# Calls one after the other

Where each call comes to its end before the next one arrives, the engine does what the reference
machine does.

* `Engine.Round` is a call from its arrival until it is answered and nothing is left to be done, and
  `Engine.Rounds` is a list of them, with the disk handed on from one to the next;
* `Engine.Serves` says of one moment that the call is served as the machine serves it, and is kept
  by every event of a round (`Serves.step`);
* `Engine.Matches` says of the moments between two calls that the engine has what the machine has,
  and `Rounds.matches` that rounds lead from such a moment to such a moment, with the answers of the
  machine.
-/

namespace Workbench

open Workspace (SavedAlike)

/-! ## 1. Rounds -/

/-- The event is nothing but the steps of who is there already: no other request arrives, no wait is
up, and no worker is refused.  The patrol may be started, but it sweeps only when its rest is up. -/
def Event.isQuiet {ρ : Type} : Event ρ → Bool
  | startPatrol => true
  | go _ => true
  | work _ _ => true
  | pass _ => true
  | _ => false

/-- The task is over, or it is the patrol at its rest. -/
def Task.isStill : Task → Bool
  | finished _ => true
  | gone => true
  | patrol .resting _ => true
  | _ => false

theorem Task.go?_of_isStill {ρ : Type} {t : Task} (h : t.isStill = true) (r : Registry ρ)
    (standard : Duration) : t.go? r standard = none := by
  cases t with
  | finished answer => rfl
  | gone => rfl
  | patrol stage calledOff =>
    cases stage <;> cases h
    cases calledOff <;> rfl
  | _ => cases h

namespace Engine

/-- **A call from its arrival to its end**: it is answered, and no session has a job left, so that a
release which it has queued is over as well. -/
structure Round (context : PlanContext) (e : Engine Workspace) (d : Disk) (c : Call)
    (events : List (Event Workspace)) (answer : CallStage.Result) (e' : Engine Workspace)
    (d' : Disk) : Prop where
  quiet : ∀ event ∈ events, event.isQuiet = true
  run : e.run? (.arrive (.call c) :: events) = some e'
  disk : Workspace.backend.Carries context d (e.trace (.arrive (.call c) :: events)) d'
  answer : e'.answer? e.tasks.length = some (.called answer)
  vacant : Workers Worker.Vacant e'

/-- **Calls one after the other**, with their answers. -/
inductive Rounds (context : PlanContext) : Engine Workspace → Disk → List Call →
    List CallStage.Result → Engine Workspace → Disk → Prop where
  | nil (e : Engine Workspace) (d : Disk) : Rounds context e d [] [] e d
  | cons {e e₁ e' : Engine Workspace} {d d₁ d' : Disk} {c : Call} {calls : List Call}
      {answer : CallStage.Result} {answers : List CallStage.Result}
      (events : List (Event Workspace)) (h : Round context e d c events answer e₁ d₁)
      (hrest : Rounds context e₁ d₁ calls answers e' d') :
      Rounds context e d (c :: calls) (answer :: answers) e' d'

/-- The clock of a run was not ahead. -/
theorem now_le_of_run? {e e' : Engine Workspace} {events : List (Event Workspace)}
    (h : e.run? events = some e') : e.registry.now ≤ e'.registry.now :=
  run?_invariant (P := fun x => e.registry.now ≤ x.registry.now)
    (fun _ _ _ hle hstep => Nat.le_trans hle (now_le_of_step? hstep)) h (Nat.le_refl _)

theorem Rounds.now_le {context : PlanContext} {e e' : Engine Workspace} {d d' : Disk}
    {calls : List Call} {answers : List CallStage.Result}
    (h : Rounds context e d calls answers e' d') : e.registry.now ≤ e'.registry.now := by
  induction h with
  | nil e d => exact Nat.le_refl _
  | cons events h hrest ih => exact Nat.le_trans (now_le_of_run? h.run) ih

/-! ## 2. The events of a round -/

/-- The call at a place is served as the machine serves it, and nobody else is at work. -/
structure Serves (since : Nat) (m : Reference) (c : Call) (d : Disk) (q : Nat)
    (e : Engine Workspace) : Prop where
  call : ∃ t, e.tasks[q]? = some t ∧ Serving since m c e.registry d t
  others : ∀ p t, p ≠ q → e.tasks[p]? = some t → t.isStill = true

section Events

variable {since : Nat} {m : Reference} {c : Call} {d d' : Disk} {q : Nat}
  {e e' : Engine Workspace} {event : Event Workspace}

/-- A step of the call. -/
theorem Serves.proceed (h : Serves since m c d q e) {t' : Task} {r : Registry Workspace}
    (hr : Serving since m c r d t') : Serves since m c d q (e.proceed q r t') := by
  obtain ⟨t, ht, -⟩ := h.call
  refine ⟨⟨t', tasks_proceed ht r t', hr⟩, fun p t hp hpt => h.others p t hp ?_⟩
  rwa [Engine.proceed, List.getElem?_set_ne (Ne.symm hp)] at hpt

/-- **Every event of a round keeps to the machine.** -/
theorem Serves.step (h : Serves since m c d q e) (hstep : e.step? event = some e')
    (hquiet : event.isQuiet = true) (hlead : Workspace.backend.Leads m.context e d d' event)
    (hnow : e.registry.now < since + Registry.retention.nanos) :
    Serves since m c d' q e' := by
  obtain ⟨t, ht, hserving⟩ := h.call
  cases steps_of_step? hstep with
  | patrolled hp =>
    cases hlead
    exact h
  | startPatrol hp hnew =>
    cases hlead
    have hlt : q < e.tasks.length := (List.getElem?_eq_some_iff.mp ht).1
    refine ⟨⟨t, by simpa [List.getElem?_append_left hlt] using ht, hserving⟩, fun p t' hpq hp => ?_⟩
    rcases Registry.of_getElem?_concat hp with hp | ⟨-, rfl⟩
    · exact h.others p t' hpq hp
    · rcases hnew with rfl | rfl <;> rfl
  | @go place t₀ t' r ht₀ hg =>
    cases hlead
    by_cases hplace : place = q
    · subst hplace
      rw [ht] at ht₀
      cases ht₀
      rcases hserving.task with ⟨stage, rfl⟩ | ⟨answer, rfl⟩
      · have hkeeps := hserving.go hnow e.callTimeout
        rcases Progress.cases_of_goes hg with ⟨stage', hp, rfl⟩ | ⟨answer, hp, rfl⟩
        · rw [hp] at hkeeps
          exact h.proceed hkeeps
        · rw [hp] at hkeeps
          exact h.proceed hkeeps
      · cases hg
    · rw [Task.go?_of_isStill (h.others place t₀ hplace ht₀)] at hg
      cases hg
  | @callOff place ht₀ =>
    by_cases hplace : place = q
    · subst hplace
      rw [ht] at ht₀
      cases ht₀
      rcases hserving.task with ⟨stage, hcall⟩ | ⟨answer, hcall⟩ <;> cases hcall
    · exact absurd (h.others place _ hplace ht₀) nofun
  | work hs hadv =>
    exact ⟨⟨t, ht, hserving.work hs hadv hlead⟩, h.others⟩
  | pass time =>
    cases hlead
    exact ⟨⟨t, ht, hserving.pass time.nanos⟩, h.others⟩
  | _ => cases hquiet

/-- So do all of them. -/
theorem Serves.run {events : List (Event Workspace)} (h : Serves since m c d q e)
    (hrun : e.run? events = some e') (hquiet : ∀ event ∈ events, event.isQuiet = true)
    (hdisk : Workspace.backend.Carries m.context d (e.trace events) d')
    (hnow : e'.registry.now < since + Registry.retention.nanos) : Serves since m c d' q e' := by
  induction events generalizing e d with
  | nil =>
    cases hrun
    cases hdisk
    exact h
  | cons event rest ih =>
    simp only [run?] at hrun
    split at hrun
    · rename_i e₁ hstep
      simp only [trace, hstep] at hdisk
      obtain ⟨d₁, hlead, hdisk⟩ := hdisk
      have hle : e.registry.now ≤ e'.registry.now :=
        Nat.le_trans (now_le_of_step? hstep) (now_le_of_run? hrun)
      have h₁ := h.step hstep (hquiet event List.mem_cons_self) hlead (Nat.lt_of_le_of_lt hle hnow)
      exact ih h₁ hrun (fun event hmem => hquiet event (List.mem_cons_of_mem _ hmem)) hdisk
    · cases hrun

end Events

/-! ## 3. From call to call -/

/-- **Between two calls**, the engine has what the machine has, and nobody is at work. -/
structure Matches (since : Nat) (m : Reference) (d : Disk) (e : Engine Workspace) : Prop where
  registry : e.registry.Mirrors m since none
  disk : d.Alike SavedAlike m.disk
  tasks : ∀ t ∈ e.tasks, t.isStill = true

section Calls

variable {since : Nat} {m : Reference} {c : Call} {d d' : Disk} {e e' : Engine Workspace}

/-- A call arrives. -/
theorem Matches.arrive (h : Matches since m d e) (c : Call) :
    Serves since m c d e.tasks.length { e with tasks := e.tasks ++ [.call c .arrive] } where
  call := ⟨_, List.getElem?_concat_length, .due h.registry h.disk .arrive⟩
  others p t hp ht := by
    rcases Registry.of_getElem?_concat ht with ht | ⟨rfl, -⟩
    · exact h.tasks t (List.mem_of_getElem? ht)
    · exact absurd rfl hp

/-- **A call that is answered has come to what the machine says**, once nothing is left to be
done. -/
theorem Serves.settle {q : Nat} {answer : CallStage.Result} (h : Serves since m c d q e)
    (hanswer : e.answer? q = some (.called answer)) (hvacant : Workers Worker.Vacant e) :
    Matches since (m.serve c).1 d e ∧ SameButTimes answer (m.serve c).2 := by
  obtain ⟨t, ht, hserving⟩ := h.call
  obtain rfl : t = .finished (.called answer) := by
    simp only [answer?, ht] at hanswer
    split at hanswer
    · cases hanswer
      cases ‹some t = _›
      rfl
    · cases hanswer
  have htasks : ∀ t ∈ e.tasks, t.isStill = true := by
    intro t' hmem
    obtain ⟨p, hp⟩ := List.mem_iff_getElem?.mp hmem
    by_cases hpq : p = q
    · subst hpq
      rw [ht] at hp
      cases hp
      rfl
    · exact h.others p t' hpq hp
  cases hserving with
  | answered hr hd ha => exact ⟨⟨hr, hd, htasks⟩, ha⟩
  | @ending id k x s t p hl hp ht h =>
    obtain ⟨ha, hl', ticket, rfl⟩ := ht.of_finished
    cases ha
    obtain ⟨hwaiting, hunderway⟩ := hvacant k s hl.session
    cases hp with
    | handed hholds hd => exact absurd (by rw [hunderway, hwaiting]; rfl) hholds.ne_nil
    | answered hspent hreply hd =>
      obtain ⟨hmirrors, halike⟩ := hl.gone hl' hspent hd
      rw [← h] at hmirrors halike
      exact ⟨⟨hmirrors, halike, htasks⟩, .same _⟩

/-- **One round.** -/
theorem Round.matches {context : PlanContext} {events : List (Event Workspace)}
    {answer : CallStage.Result} (h : Round context e d c events answer e' d')
    (hm : Matches since m d e) (hcontext : m.context = context)
    (hnow : e'.registry.now < since + Registry.retention.nanos) :
    Matches since (m.serve c).1 d' e' ∧ SameButTimes answer (m.serve c).2 := by
  subst hcontext
  obtain ⟨d₁, harrive, hdisk⟩ := h.disk
  cases harrive
  have hserves : Serves since m c d' e.tasks.length e' :=
    (hm.arrive c).run h.run h.quiet hdisk hnow
  exact hserves.settle h.answer h.vacant

/-- All rounds. -/
theorem Rounds.matches {context : PlanContext} {calls : List Call}
    {answers : List CallStage.Result} (h : Rounds context e d calls answers e' d')
    (hm : Matches since m d e) (hcontext : m.context = context)
    (hnow : e'.registry.now < since + Registry.retention.nanos) :
    Matches since (m.serveAll calls).1 d' e' ∧
      List.Forall₂ SameButTimes answers (m.serveAll calls).2 := by
  induction h generalizing m with
  | nil e d => exact ⟨hm, .nil⟩
  | cons events h hrest ih =>
    obtain ⟨hm₁, hanswer⟩ := h.matches hm hcontext (Nat.lt_of_le_of_lt hrest.now_le hnow)
    obtain ⟨hm', hanswers⟩ := ih hm₁ ((m.serve_context _).trans hcontext) hnow
    exact ⟨hm', .cons hanswer hanswers⟩

end Calls

/-- An engine without sessions has what a machine without sessions has. -/
theorem matches_start {settings : SessionSettings} {context : PlanContext} {standard : Duration}
    {ids : Nat → String} {now : Nat} {d : Disk} (hids : Function.Injective ids) :
    Matches now (.start settings context ids d) d (start settings standard ids now) where
  registry := {
    settings := rfl
    ids := rfl
    distinct := hids
    length := rfl
    named := fun k y hy => by simp [Reference.start] at hy
    sessions := fun k s y _ _ hy => by simp [Reference.start] at hy
    begun := Nat.le_refl now
    kept := fun k id _ hy => by simp [Reference.start] at hy
    known := fun p hp => by cases hp }
  disk := .refl .same _
  tasks := fun t ht => by cases ht

end Engine
end Workbench
