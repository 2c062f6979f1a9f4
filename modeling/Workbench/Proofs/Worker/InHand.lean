import Workbench.Proofs.Session.Attachment
import Workbench.Proofs.Worker.Continuing

/-!
# What a worker has in hand

Where callers take their turns, a worker has one job in hand at most, and nothing goes wrong on it.

* `Worker.IsUp` is a worker that takes jobs, and `Worker.Rests` one that has none;
* `Worker.Holds` is a worker with one job in hand, and `Worker.Holds.step` says that its next step
  goes on with the job or ends it;
* `Worker.Spent` is a worker that has none and gets none any more.
-/

namespace Workbench

/-- The move is a failure of the resource. -/
def Worker.Move.isFailure {ρ A : Type} : Worker.Move ρ A → Bool
  | buildFailed _ => true
  | crash _ => true
  | _ => false

/-- The worker builds its resource or has it, and is not about to leave. -/
def Phase.isUp {ρ J : Type} : Phase ρ J → Bool
  | building => true
  | resting _ => true
  | running _ _ _ => true
  | _ => false

namespace Worker

section Up

variable {ρ J A : Type} {w w' : Worker ρ J A}

/-! ## 1. Workers that take jobs -/

/-- The worker takes jobs, and nothing has gone wrong. -/
structure IsUp (w : Worker ρ J A) : Prop where
  health : w.health = .running
  connected : w.connected = true
  readiness : ∀ reason, w.readiness ≠ .failed reason
  built : w.readiness = .building → w.phase = .building
  phase : w.phase.isUp = true
  stops : .stop ∉ w.queue
  counted : w.Counted

theorem IsUp.spawn (limit : Nat) : (spawn limit : Worker ρ J A).IsUp :=
  ⟨rfl, rfl, by rintro _ ⟨⟩, fun _ => rfl, rfl, by rintro ⟨⟩, .spawn limit⟩

theorem IsUp.accept (h : w.IsUp) (j : J) : (w.accept j).IsUp where
  health := h.health
  connected := h.connected
  readiness := h.readiness
  built := h.built
  phase := h.phase
  stops hmem := by
    rcases List.mem_append.mp hmem with hmem | hmem
    · exact h.stops hmem
    · cases List.mem_singleton.mp hmem
  counted := by
    refine ⟨fun hl => ?_, h.counted.busy⟩
    rw [waiting_accept, List.length_append]
    exact congrArg (· + 1) (h.counted.pending hl)

/-- Without a failure, a worker that takes jobs goes on taking them. -/
theorem IsUp.step (h : w.IsUp) {m : Move ρ A} (hw : w.advance? m = some w')
    (hm : m.isFailure = false) : w'.IsUp := by
  have hcounted : w'.Counted := h.counted.step (a := .move m) hw
  have hup := h.phase
  have hready (hp : w.phase ≠ .building) (hb : w.readiness = .building) : False := hp (h.built hb)
  cases advance_of_advance? hw with
  | built hp => exact ⟨h.health, h.connected, by rintro _ ⟨⟩, by simp, rfl, h.stops, hcounted⟩
  | buildFailed hp => cases hm
  | start hp hq =>
    have hstops := h.stops
    rw [hq] at hstops
    exact ⟨h.health, h.connected, h.readiness, fun hb => (hready (by simp [hp]) hb).elim, rfl,
      fun hmem => hstops (List.mem_cons_of_mem _ hmem), hcounted⟩
  | finish hp =>
    exact ⟨h.health, h.connected, h.readiness, fun hb => (hready (by simp [hp]) hb).elim, rfl,
      h.stops, hcounted⟩
  | crash hp => cases hm
  | takeStop hp hq => exact absurd (hq ▸ List.mem_cons_self) h.stops
  | notice hp hq hc =>
    rw [h.connected] at hc
    cases hc
  | _ =>
    rw [‹w.phase = _›] at hup
    cases hup

/-- Where no job waits, no answer is lost with the queue. -/
theorem loseQueued_of_waiting {queue : List (QueueItem J)}
    (h : queue.filterMap operation? = []) (replies : List (Reply A)) :
    loseQueued queue replies = replies := by
  induction queue with
  | nil => rfl
  | cons item rest ih =>
    cases item with
    | job ticket j => cases h
    | stop => exact ih h

theorem connected_shutdown (w : Worker ρ J A) : w.shutdown.connected = false := by
  unfold Worker.shutdown
  split
  · rfl
  · rename_i hc
    exact Bool.eq_false_iff.mpr hc

theorem replies_shutdown (w : Worker ρ J A) : w.shutdown.replies = w.replies := by
  unfold Worker.shutdown
  split <;> rfl

/-- A worker that takes jobs listens. -/
theorem IsUp.listens (h : w.IsUp) : w.phase.listens = true := by
  have hup := h.phase
  cases hp : w.phase <;> rw [hp] at hup <;> first | rfl | cases hup

/-- The handle shows that no job waits. -/
theorem IsUp.pending (h : w.IsUp) (hw : w.waiting = []) : w.pending = 0 := by
  rw [h.counted.pending h.listens, hw, List.length_nil]

/-- A worker that takes jobs refuses none, as long as none waits. -/
theorem IsUp.refusal? (h : w.IsUp) (hw : w.waiting = []) (bounded : Bool) :
    w.refusal? bounded = none := by
  have hroom : (bounded && 0 < w.limit && w.limit ≤ w.pending) = false := by
    rw [h.pending hw]
    cases bounded <;> simp [Nat.pos_iff_ne_zero]
  simp [Worker.refusal?, isFaulted, h.health, h.connected, hroom, h.listens]

end Up

/-! ## 2. Workers of workspaces -/

section Hands

variable {J A : Type} {w w' : Worker Workspace J A} {v : Workspace} {ticket : Nat} {job : J}

/-- Nothing is to be done on the workspace. -/
structure Rests (w : Worker Workspace J A) (v : Workspace) : Prop where
  workspace : w.phase.workspace? = some v
  underway : w.underway = []
  waiting : w.waiting = []

/-- One job is in hand: it waits, or it is running on the workspace as it was. -/
inductive Holds (w : Worker Workspace J A) (v : Workspace) (ticket : Nat) (job : J) : Prop where
  | waits {rest : List (QueueItem J)} (hp : w.phase.workspace? = some v) (hu : w.underway = [])
      (hq : w.queue = .job ticket job :: rest) (hrest : rest.filterMap operation? = [])
      (hreply : w.reply ticket = .waiting)
  | runs (hp : w.phase = .running v ticket job) (hq : w.waiting = [])
      (hreply : w.reply ticket = .waiting)

/-- Nothing is to be done, and nothing will be. -/
structure Spent (w : Worker Workspace J A) : Prop where
  phase : w.phase.isQuiet = true
  waiting : w.waiting = []

/-- A worker at rest has no step to make but the first. -/
theorem Rests.step (h : w.Rests v) (hup : w.IsUp) {m : Move Workspace A}
    (hw : w.advance? m = some w') (hm : m.isFailure = false) :
    ∃ v', m = .built v' ∧ v = .empty ∧ w'.Rests v' := by
  have hworkspace := h.workspace
  have hunderway := h.underway
  have hwaiting := h.waiting
  have hphase := hup.phase
  cases advance_of_advance? hw with
  | built hp =>
    rw [hp] at hworkspace
    cases hworkspace
    exact ⟨_, rfl, rfl, rfl, rfl, hwaiting⟩
  | buildFailed hp => cases hm
  | crash hp => cases hm
  | start hp hq =>
    rw [Worker.waiting, hq] at hwaiting
    cases hwaiting
  | finish hp =>
    rw [Worker.underway, hp] at hunderway
    cases hunderway
  | takeStop hp hq => exact absurd (hq ▸ List.mem_cons_self) hup.stops
  | notice hp hq hc =>
    rw [hup.connected] at hc
    cases hc
  | _ =>
    rw [‹w.phase = _›] at hphase
    cases hphase

/-- The job that a worker at rest accepts is in hand from then on. -/
theorem Rests.accept (h : w.Rests v) (hup : w.IsUp) (job : J) :
    (w.accept job).Holds v w.replies.length job := by
  have hq : w.queue = [] := by
    cases hq : w.queue with
    | nil => rfl
    | cons item rest =>
      have hwaiting := h.waiting
      rw [Worker.waiting, hq] at hwaiting
      cases item with
      | job ticket j => cases hwaiting
      | stop => exact absurd (hq ▸ List.mem_cons_self) hup.stops
  have hqueue : (w.accept job).queue = [.job w.replies.length job] := by
    simp only [Worker.accept, hq, List.nil_append]
  exact .waits h.workspace h.underway hqueue rfl (by simp [Worker.accept, Worker.reply])

/-- How a step of the worker finds the job in hand. -/
inductive Handled (w : Worker Workspace J A) (v : Workspace) (ticket : Nat) (job : J) :
    Move Workspace A → Worker Workspace J A → Prop where
  /-- The job is in hand still. -/
  | goesOn {m : Move Workspace A} {w' : Worker Workspace J A} (h : w'.Holds v ticket job)
      (hm : ∀ v' a, m ≠ .finish v' a) : Handled w v ticket job m w'
  /-- The job ends. -/
  | ends {v' : Workspace} {a : A} {w' : Worker Workspace J A}
      (hp : w.phase = .running v ticket job) (hp' : w'.phase = .resting v')
      (hq' : w'.waiting = []) (hreply : w'.reply ticket = .value a) :
      Handled w v ticket job (.finish v' a) w'

/-- **With a job in hand, a worker goes on with it or ends it.** -/
theorem Holds.step (h : w.Holds v ticket job) {m : Move Workspace A}
    (hw : w.advance? m = some w') (hm : m.isFailure = false)
    (hbuilt : ∀ v', m = .built v' → v' = .empty) : Handled w v ticket job m w' := by
  cases h with
  | waits hp hu hq hrest hreply =>
    have hfree {r : Workspace} {t : Nat} {j : J} : w.phase ≠ .running r t j := by
      intro hrun
      rw [Worker.underway, hrun] at hu
      cases hu
    cases advance_of_advance? hw with
    | built hp' =>
      rw [hp'] at hp
      cases hp
      rw [hbuilt _ rfl]
      exact .goesOn (.waits rfl rfl hq hrest hreply) (by rintro _ _ ⟨⟩)
    | start hp' hq' =>
      rw [hq] at hq'
      cases hq'
      rw [hp'] at hp
      cases hp
      exact .goesOn (.runs rfl hrest hreply) (by rintro _ _ ⟨⟩)
    | finish hp' => exact absurd hp' hfree
    | buildFailed hp' => cases hm
    | crash hp' => cases hm
    | takeStop hp' hq' =>
      rw [hq] at hq'
      cases hq'
    | notice hp' hq' hc =>
      rw [hq] at hq'
      cases hq'
    | _ =>
      rw [‹w.phase = _›] at hp
      cases hp
  | runs hp hq hreply =>
    cases advance_of_advance? hw with
    | finish hp' =>
      rw [hp] at hp'
      cases hp'
      have hlt : ticket < w.replies.length := by
        refine Nat.lt_of_not_le fun hge => ?_
        rw [Worker.reply, List.getElem?_eq_none hge] at hreply
        cases hreply
      exact .ends hp rfl hq (by simp [Worker.reply, hlt])
    | crash hp' => cases hm
    | _ =>
      rw [‹w.phase = _›] at hp
      cases hp

/-- Nobody is answered as long as the job is in hand. -/
theorem Holds.outcome? (h : w.Holds v ticket job) : w.outcome? ticket = none := by
  rw [Worker.outcome?_eq_none]
  cases h <;> assumption

/-- As long as the job is in hand, the worker has something to do. -/
theorem Holds.ne_nil (h : w.Holds v ticket job) : w.underway ++ w.waiting ≠ [] := by
  cases h with
  | waits hp hu hq hrest hreply => simp [Worker.waiting, hq, operation?]
  | runs hp hq hreply => simp [Worker.underway, hp]

theorem Holds.shutdown (h : w.Holds v ticket job) : w.shutdown.Holds v ticket job := by
  have hwaiting := waiting_shutdown w
  unfold Worker.shutdown at hwaiting ⊢
  split
  · rename_i hc
    rw [if_pos hc] at hwaiting
    cases h with
    | @waits rest hp hu hq hrest hreply =>
      have hl : w.phase.listens = true := by
        cases hphase : w.phase <;> rw [hphase] at hp <;> first | rfl | cases hp
      have hstop : (rest ++ [QueueItem.stop]).filterMap operation? = [] := by
        simp [hrest, operation?]
      exact .waits hp hu (by simp only [hl, hq, if_true, List.cons_append]) hstop hreply
    | runs hp hq hreply => exact .runs hp (hwaiting.trans hq) hreply
  · exact h

/-- A worker with nothing to do any more has no job to begin or to end. -/
theorem Spent.step (h : w.Spent) {m : Move Workspace A} (hw : w.advance? m = some w') :
    w'.Spent ∧ m.isFailure = false ∧ (∀ v', m ≠ .built v') ∧ ∀ v' a, m ≠ .finish v' a := by
  have hquiet := h.phase
  have hwaiting := h.waiting
  cases advance_of_advance? hw with
  | start hp hq =>
    rw [Worker.waiting, hq] at hwaiting
    cases hwaiting
  | takeStop hp hq =>
    rw [Worker.waiting, hq] at hwaiting
    exact ⟨⟨rfl, hwaiting⟩, rfl, by rintro _ ⟨⟩, by rintro _ _ ⟨⟩⟩
  | notice hp hq hc => exact ⟨⟨rfl, hwaiting⟩, rfl, by rintro _ ⟨⟩, by rintro _ _ ⟨⟩⟩
  | hangUp hp => exact ⟨⟨rfl, rfl⟩, rfl, by rintro _ ⟨⟩, by rintro _ _ ⟨⟩⟩
  | hangUpUnbuilt hp => exact ⟨⟨rfl, rfl⟩, rfl, by rintro _ ⟨⟩, by rintro _ _ ⟨⟩⟩
  | discard hp => exact ⟨⟨rfl, hwaiting⟩, rfl, by rintro _ ⟨⟩, by rintro _ _ ⟨⟩⟩
  | _ =>
    rw [‹w.phase = _›] at hquiet
    cases hquiet

/-- Nobody who has an answer loses it. -/
theorem Spent.replies (h : w.Spent) {m : Move Workspace A} (hw : w.advance? m = some w') :
    w'.replies = w.replies := by
  obtain ⟨-, hm, -, hfinish⟩ := h.step hw
  cases advance_of_advance? hw with
  | finish hp => exact absurd rfl (hfinish _ _)
  | crash hp => cases hm
  | hangUp hp => exact loseQueued_of_waiting h.waiting w.replies
  | hangUpUnbuilt hp => exact loseQueued_of_waiting h.waiting w.replies
  | _ => rfl

theorem Spent.shutdown (h : w.Spent) : w.shutdown.Spent where
  phase := by
    unfold Worker.shutdown
    split <;> exact h.phase
  waiting := by rw [waiting_shutdown, h.waiting]

end Hands
end Worker
end Workbench
