import Workbench.Proofs.Worker.History

/-!
# A worker from some moment on

The history of a worker need not begin at its start.  From any moment on, it works off what was
running and waiting then, and what is accepted later, in this order.

* `Worker.Continues` says so, and is kept by every action as long as the queue is there
  (`Continues.step`);
* `Worker.Counted` says that the counters that the handle shows are right, and is kept by every
  action too (`Counted.step`).
-/

namespace Workbench

/-- The worker has its resource behind it, or has it and is not at work on it. -/
def Phase.isQuiet {ρ J : Type} : Phase ρ J → Bool
  | building => false
  | running _ _ _ => false
  | crashed _ => false
  | _ => true

namespace Worker

open History

variable {ρ J A : Type}

/-! ## 1. What is worked off -/

/-- **A worker goes on from a moment**: what was under way or waited then, and what was accepted
since, is what has ended since, and what is under way or waits now. -/
structure Continues (w₀ : Worker ρ J A) (notes : List (Note ρ J A)) (w : Worker ρ J A) : Prop where
  handled : w₀.underway ++ w₀.waiting ++ accepted notes =
    (ended notes).map Prod.fst ++ (w.underway ++ w.waiting)
  begun_eq : w₀.underway ++ begun notes = (ended notes).map Prod.fst ++ w.underway

namespace Continues

variable {w₀ w w' : Worker ρ J A} {notes : List (Note ρ J A)}

theorem refl (w : Worker ρ J A) : Continues w [] w where
  handled := by simp [accepted, ended]
  begun_eq := by simp [begun, ended]

/-- Nothing is noted where neither the queue nor the phase matters. -/
theorem silent (h : Continues w₀ notes w) (hu : w'.underway = w.underway)
    (hq : w'.waiting = w.waiting) : Continues w₀ notes w' where
  handled := by rw [hu, hq]; exact h.handled
  begun_eq := by rw [hu]; exact h.begun_eq

theorem accept (h : Continues w₀ notes w) (j : J) :
    Continues w₀ (notes ++ [.accepted w.replies.length j]) (w.accept j) where
  handled := by
    have hu : (w.accept j).underway = w.underway := rfl
    simp [hu, waiting_accept, ← List.append_assoc, ← h.handled]
  begun_eq := by
    have hu : (w.accept j).underway = w.underway := rfl
    simpa [hu] using h.begun_eq

/-- **Every action goes on**, as long as the queue is there. -/
theorem step (h : Continues w₀ notes w) {a : Action ρ J A} (hw : w.act? a = some w')
    (hl : w'.phase.listens = true) : Continues w₀ (notes ++ (w.note? a).toList) w' := by
  cases acts_of_act? hw with
  | refused hr => simpa [note?, hr] using h
  | accepted hr => simpa [note?, hr] using h.accept _
  | shutDown hc =>
    simpa [note?, shutdown, hc] using h.silent (underway_shutdown w) (waiting_shutdown w)
  | shutBefore _ => simpa [note?] using h
  | awaited => simpa [note?] using (h.silent rfl rfl : Continues w₀ notes w.awaitEnd)
  | abandoned _ => simpa [note?] using (h.silent rfl rfl : Continues w₀ notes w.abandon)
  | moved hm =>
    cases hm with
    | built hp => exact ⟨by simpa [note?, underway, waiting, hp] using h.handled,
        by simpa [note?, underway, hp] using h.begun_eq⟩
    | buildFailed hp => exact ⟨by simpa [note?, underway, waiting, hp] using h.handled,
        by simpa [note?, underway, hp] using h.begun_eq⟩
    | start hp hq => exact ⟨by simpa [note?, underway, waiting, hp, hq, operation?] using h.handled,
        by simpa [note?, underway, hp, hq] using congrArg (· ++ [_]) h.begun_eq⟩
    | finish hp => exact ⟨by simpa [note?, underway, waiting, hp] using h.handled,
        by simpa [note?, underway, hp] using h.begun_eq⟩
    | crash hp => exact ⟨by simpa [note?, underway, waiting, hp] using h.handled,
        by simpa [note?, underway, hp] using h.begun_eq⟩
    | poison hp => exact ⟨by simpa [note?, underway, waiting, hp] using h.handled,
        by simpa [note?, underway, hp] using h.begun_eq⟩
    | takeStop hp hq =>
      exact ⟨by simpa [note?, underway, waiting, hp, hq, operation?, List.filterMap_cons]
          using h.handled,
        by simpa [note?, underway, hp] using h.begun_eq⟩
    | notice hp hq hc => exact ⟨by simpa [note?, underway, waiting, hp, hq] using h.handled,
        by simpa [note?, underway, hp] using h.begun_eq⟩
    | hangUp hp => cases hl
    | hangUpUnbuilt hp => cases hl
    | discard hp => cases hl

end Continues

/-! ## 2. The counters -/

/-- The counters that the handle shows are right, as long as the queue is there. -/
structure Counted (w : Worker ρ J A) : Prop where
  pending : w.phase.listens = true → w.pending = w.waiting.length
  busy : w.busy = true ↔ w.underway ≠ []

theorem Counted.spawn (limit : Nat) : Counted (spawn limit : Worker ρ J A) where
  pending _ := rfl
  busy := by simp [Worker.spawn, underway]

/-- **Every action keeps the counters right.** -/
theorem Counted.step {w w' : Worker ρ J A} (h : Counted w) {a : Action ρ J A}
    (hw : w.act? a = some w') : Counted w' := by
  cases acts_of_act? hw with
  | accepted _ =>
    refine ⟨fun hl => ?_, h.busy⟩
    rw [waiting_accept, List.length_append, List.length_singleton]
    exact congrArg (· + 1) (h.pending hl)
  | shutDown hc =>
    have hwaiting := waiting_shutdown w
    simp only [shutdown, hc, if_true] at hwaiting
    exact ⟨fun hl => by rw [hwaiting]; exact h.pending hl, h.busy⟩
  | refused _ | shutBefore _ | awaited | abandoned _ => exact ⟨h.pending, h.busy⟩
  | moved hm =>
    have hpending := h.pending
    have hbusy := h.busy
    cases hm with
    | built hp => exact ⟨by simpa [waiting, hp, Phase.listens] using hpending,
        by simpa [underway, hp] using hbusy⟩
    | buildFailed hp => exact ⟨by simpa [waiting, hp, Phase.listens] using hpending,
        by simpa [underway, hp] using hbusy⟩
    | start hp hq =>
      refine ⟨fun _ => ?_, by simp [underway]⟩
      have hcount := hpending (by rw [hp]; rfl)
      simp only [waiting, hq, operation?, List.filterMap_cons, List.length_cons] at hcount ⊢
      omega
    | finish hp => exact ⟨by simpa [waiting, hp, Phase.listens] using hpending,
        by simp [underway]⟩
    | crash hp => exact ⟨by simpa [waiting, hp, Phase.listens] using hpending,
        by simp [underway]⟩
    | poison hp => exact ⟨by simpa [waiting, hp, Phase.listens] using hpending,
        by simpa [underway, hp] using hbusy⟩
    | takeStop hp hq =>
      exact ⟨by simpa [waiting, hp, hq, operation?, Phase.listens, List.filterMap_cons]
          using hpending,
        by simpa [underway, hp] using hbusy⟩
    | notice hp hq hc => exact ⟨by simpa [waiting, hp, Phase.listens] using hpending,
        by simpa [underway, hp] using hbusy⟩
    | hangUp hp => exact ⟨by simp [Phase.listens], by simpa [underway, hp] using hbusy⟩
    | hangUpUnbuilt hp => exact ⟨by simp [Phase.listens], by simpa [underway, hp] using hbusy⟩
    | discard hp => exact ⟨by simp [Phase.listens], by simpa [underway, hp] using hbusy⟩

end Worker
end Workbench
