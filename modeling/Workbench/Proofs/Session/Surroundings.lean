import Workbench.Proofs.Project.Times
import Workbench.Proofs.Session.Attachment

/-!
# The surroundings along a run

All sessions work in the same surroundings, and what one of them leaves behind is what the next one
finds.  So the surroundings are handed on from event to event.

* `Backend.Leads` is what an event makes of the surroundings, and `Backend.Carries` what a run makes
  of them, if nobody else touches them; a host brings about nothing else
  (`Backend.leads_of_nextMove`);
* a workspace is built empty, its jobs come to what `Workspace.carryOut` says, and none of them
  crashes (`leads_built`, `leads_finish`, `not_leads_crash`); so a run that a disk is carried along
  is a run on a disk (`onDisk_of_carries`).
-/

namespace Workbench

namespace Backend

variable {ρ σ : Type}

/-! ## 1. One event -/

/-- What an event makes of the surroundings.  A worker touches them when it builds its resource and
when a job ends, and it may do its job at any time. -/
def Leads (b : Backend ρ σ) (context : PlanContext) (e : Engine ρ) (x x' : σ) : Event ρ → Prop
  | .work seat (.built r) => b.build seat x = (x', some (.ok r))
  | .work seat (.buildFailed reason) => ∃ fault, b.build seat x = (x', some (.error fault)) ∧
      reason = fault.message
  | .work seat (.finish r answer) => ∃ s r₀ ticket job now, e.registry.session? seat = some s ∧
      s.worker.phase = .running r₀ ticket job ∧
      b.run context seat job r₀ x now = (x', some ⟨r, some answer⟩)
  | .work seat (.crash r) => ∃ s r₀ ticket job now, e.registry.session? seat = some s ∧
      s.worker.phase = .running r₀ ticket job ∧
      b.run context seat job r₀ x now = (x', some ⟨r, none⟩)
  | _ => x' = x

/-- **A host leads its surroundings so.** -/
theorem leads_of_nextMove {h : Host ρ σ} {seat : Nat} {s : Session ρ} {x : σ}
    {move : Worker.Move ρ JobAnswer} (hs : h.engine.registry.session? seat = some s)
    (hm : h.nextMove seat s.worker = (x, some move)) :
    h.backend.Leads h.context h.engine h.surroundings x (.work seat move) := by
  unfold Host.nextMove at hm
  split at hm
  · split at hm <;> cases hm
    · exact ‹_›
    · exact ⟨_, ‹_›, rfl⟩
  · split at hm
    · cases hm
      rfl
    · cases hm
      rfl
    · split at hm <;> cases hm
      rfl
  · rename_i r ticket job hp
    split at hm <;> cases hm
    · exact ⟨s, r, ticket, job, _, hs, hp, ‹_›⟩
    · exact ⟨s, r, ticket, job, _, hs, hp, ‹_›⟩
  all_goals cases hm <;> rfl

/-! ## 2. Runs -/

/-- What the events of a run make of the surroundings, if nobody else touches them. -/
def Carries (b : Backend ρ σ) (context : PlanContext) : σ → List (Engine ρ × Event ρ) → σ → Prop
  | x, [], x' => x' = x
  | x, y :: past, x' => ∃ z, b.Leads context y.1 x z y.2 ∧ b.Carries context z past x'

variable {b : Backend ρ σ} {context : PlanContext}

theorem carries_append {past more : List (Engine ρ × Event ρ)} {x x' : σ} :
    b.Carries context x (past ++ more) x' ↔
      ∃ z, b.Carries context x past z ∧ b.Carries context z more x' := by
  induction past generalizing x with
  | nil => simp only [List.nil_append, Carries, exists_eq_left]
  | cons y past ih =>
    simp only [List.cons_append, Carries, ih]
    constructor
    · rintro ⟨z, hz, z', hz', hx'⟩
      exact ⟨z', ⟨z, hz, hz'⟩, hx'⟩
    · rintro ⟨z', ⟨z, hz, hz'⟩, hx'⟩
      exact ⟨z, hz, z', hz', hx'⟩

theorem carries_concat {past : List (Engine ρ × Event ρ)} {y : Engine ρ × Event ρ} {x x' : σ} :
    b.Carries context x (past ++ [y]) x' ↔
      ∃ z, b.Carries context x past z ∧ b.Leads context y.1 z x' y.2 := by
  simp only [carries_append, Carries, exists_eq_right']

end Backend

/-! ## 3. Workspaces on a disk -/

namespace Workspace

variable {context : PlanContext} {e : Engine Workspace} {d d' : Disk} {seat : Nat}

theorem leads_built {w : Workspace} (h : backend.Leads context e d d' (.work seat (.built w))) :
    w = .empty ∧ d' = d := by
  have hbuild : backend.build seat d = (d', some (.ok w)) := h
  cases hbuild
  exact ⟨rfl, rfl⟩

theorem not_leads_buildFailed {reason : String} :
    ¬ backend.Leads context e d d' (.work seat (.buildFailed reason)) := by
  rintro ⟨fault, hbuild, -⟩
  cases hbuild

theorem leads_finish {w w' : Workspace} {answer : JobAnswer} {s : Session Workspace} {ticket : Nat}
    {job : Job} (h : backend.Leads context e d d' (.work seat (.finish w' answer)))
    (hs : e.registry.session? seat = some s) (hp : s.worker.phase = .running w ticket job) :
    ∃ now, (w.carryOut context d now job).disk = d' ∧
      (w.carryOut context d now job).workspace = w' ∧
      (w.carryOut context d now job).result = answer := by
  obtain ⟨s₀, w₀, ticket₀, job₀, now, hs₀, hp₀, hrun⟩ := h
  rw [hs] at hs₀
  cases hs₀
  rw [hp] at hp₀
  cases hp₀
  rw [run_eq] at hrun
  cases hrun
  exact ⟨now, rfl, rfl, rfl⟩

theorem not_leads_crash {w : Workspace} :
    ¬ backend.Leads context e d d' (.work seat (.crash w)) := by
  rintro ⟨s, w₀, ticket, job, now, -, -, hrun⟩
  rw [run_eq] at hrun
  cases hrun

/-- What leads the disk on is allowed on a disk. -/
theorem allows_of_leads {event : Event Workspace} (h : backend.Leads context e d d' event) :
    backend.Allows context e event := by
  cases event with
  | work seat move =>
    cases move with
    | built w => exact ⟨d, d', h⟩
    | finish w' answer =>
      obtain ⟨s, w, ticket, job, now, hs, hp, hrun⟩ := h
      intro s' w₀ ticket' job' hs' hp'
      rw [hs] at hs'
      cases hs'
      rw [hp] at hp'
      cases hp'
      exact ⟨d, d', now, hrun⟩
    | _ => trivial
  | _ => trivial

end Workspace

/-- **A run that a disk is carried along is a run on a disk.** -/
theorem Engine.onDisk_of_carries {context : PlanContext} {d d' : Disk}
    {past : List (Engine Workspace × Event Workspace)}
    (h : Workspace.backend.Carries context d past d') : OnDisk context past := by
  induction past generalizing d with
  | nil => intro x hx; cases hx
  | cons y past ih =>
    obtain ⟨z, hlead, hrest⟩ := h
    intro x hx
    rcases List.mem_cons.mp hx with rfl | hx
    · exact Workspace.allows_of_leads hlead
    · exact ih hrest x hx

end Workbench
