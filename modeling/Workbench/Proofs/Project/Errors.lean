import Workbench.Proofs.Project.Opening
import Workbench.Proofs.Project.Times
import Workbench.Proofs.Session.Calls

/-!
# What workspaces fail with

The operations of a workspace fail for many reasons, but most errors that a caller may see are none
of theirs: what is said of sessions, of workers and of unknown tools is not said by a workspace, nor
that a time is up.  Whoever is told one of these has not been answered by a workspace.

* `Workspace.isOwn_of_perform` says so of every operation, and `isOwn_of_planner` of arguments that
  do not fit;
* `Workspace.isOwn_of_carryOut` says so of every job that a call can bring, and
  `Workspace.plain_of_carryOut` of every job at all that it tells neither of a fault nor of a time
  that is up.
-/

namespace Workbench

/-- The error is one that the work on a resource can fail with. -/
def ToolError.isOwn : ToolError → Bool
  | invalidParams _ => true
  | invalidPath _ => true
  | noProjectOpen => true
  | projectAlreadyOpen _ => true
  | projectNotFound _ => true
  | io _ => true
  | backend _ => true
  | _ => false

theorem ToolError.isPlain_of_isOwn {e : ToolError} (h : e.isOwn = true) : e.isPlain = true := by
  cases e <;> first | rfl | cases h

theorem ToolError.isOwn_of_tellsOfFiles {e : ToolError} (h : e.tellsOfFiles = true) :
    e.isOwn = true := by
  cases e <;> first | rfl | cases h

/-- A release, or the work of a tool for which there is a plan. -/
def Job.isPlanned : Job → Bool
  | release => true
  | tool info _ => (Tool.planner? info.name).isSome

theorem Tool.isOwn_of_parseArguments {α : Type} [Shaped α] {arguments : Json} {e : ToolError}
    (h : Tool.parseArguments α arguments = .error e) : e.isOwn = true := by
  unfold Tool.parseArguments at h
  split at h <;> cases h
  rfl

namespace Workspace

/-! ## 1. Operations -/

variable {d : Disk} {e : ToolError}

theorem isOwn_of_perform {op : Operation} {w : Workspace} {now : Timestamp}
    (h : (w.perform op d now).result = .error e) : e.isOwn = true := by
  cases failsWith_perform h with
  | free | taken => rfl
  | files he => exact ToolError.isOwn_of_tellsOfFiles he

/-- To give a workspace up is to close its project. -/
theorem isOwn_of_release {w : Workspace} {now : Timestamp}
    (h : (w.release d now).result = .error e) : e.isOwn = true := by
  cases hp : w.project with
  | none =>
    rw [release_of_none hp] at h
    cases h
  | some p =>
    rw [release_eq hp] at h
    cases hclose : (w.closeProject d now true).result with
    | ok name =>
      rw [hclose] at h
      cases h
    | error e' =>
      rw [hclose] at h
      cases h
      have hperform : (w.perform (.closeProject true) d now).result = .error e := hclose
      exact isOwn_of_perform hperform

/-! ## 2. Jobs -/

theorem isOwn_of_planner {planner : Planner} {name : String}
    (hp : Tool.planner? name = some planner) {context : PlanContext} {arguments : Json}
    (h : planner context arguments = .error e) : e.isOwn = true := by
  unfold Tool.planner? at hp
  repeat' split at hp
  all_goals cases hp
  · unfold Plan.openProject at h
    split at h
    · cases h
      exact Tool.isOwn_of_parseArguments ‹_›
    · split at h <;> cases h
      rfl
  · unfold Plan.closeProject at h
    split at h <;> cases h
    exact Tool.isOwn_of_parseArguments ‹_›
  · unfold Plan.saveProject at h
    split at h <;> cases h
    exact Tool.isOwn_of_parseArguments ‹_›
  · unfold Plan.projectInfo at h
    split at h <;> cases h
    exact Tool.isOwn_of_parseArguments ‹_›
  · unfold Plan.listBlocks at h
    split at h <;> cases h
    exact Tool.isOwn_of_parseArguments ‹_›
  · unfold Plan.exportBlocks at h
    split at h <;> cases h
    exact Tool.isOwn_of_parseArguments ‹_›
  · unfold Plan.importBlocks at h
    split at h
    · cases h
      exact Tool.isOwn_of_parseArguments ‹_›
    · split at h <;> cases h
      rfl

theorem error_of_map {α β : Type} {f : α → β} {o : Outcome α} (h : (o.map f).result = .error e) :
    o.result = .error e := by
  unfold Outcome.map at h
  cases hr : o.result with
  | error e' =>
    rw [hr] at h
    cases h
    rfl
  | ok a =>
    rw [hr] at h
    cases h

/-- **What a job fails with is its own**, if there is a plan for its tool. -/
theorem isOwn_of_carryOut {context : PlanContext} {w : Workspace} {now : Timestamp} {job : Job}
    (hjob : job.isPlanned = true) (h : (w.carryOut context d now job).result = .error e) :
    e.isOwn = true := by
  cases job with
  | release => exact isOwn_of_release (error_of_map h)
  | tool info arguments =>
    simp only [carryOut] at h
    split at h
    · rename_i hp
      rw [Job.isPlanned, hp] at hjob
      cases hjob
    · split at h
      · cases h
        exact isOwn_of_planner ‹_› ‹_›
      · exact isOwn_of_perform (error_of_map h)

/-- **No job of a workspace answers that a worker has faulted, or that a time is up.** -/
theorem plain_of_carryOut (context : PlanContext) (w : Workspace) (d : Disk) (now : Timestamp)
    (job : Job) : CallStage.Result.Plain (w.carryOut context d now job).result := by
  intro e h
  cases hjob : job.isPlanned with
  | true => exact ToolError.isPlain_of_isOwn (isOwn_of_carryOut hjob h)
  | false =>
    cases job with
    | release => cases hjob
    | tool info arguments =>
      have hp : Tool.planner? info.name = none :=
        Option.isNone_iff_eq_none.mp (Option.isSome_eq_false_iff.mp hjob)
      simp only [carryOut, hp] at h
      cases h
      rfl

end Workspace
end Workbench
