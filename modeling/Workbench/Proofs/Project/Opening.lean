import Workbench.Proofs.Project.Failing
import Workbench.Session.Basic

/-!
# What opens and closes a project

Whether a project is open is known in two places: the workspace holds the project, and the session
notes its name when a tool has ended.  The session goes by the table of the tools and by the answer
alone.  This module says that what it reads there is what has become of the workspace.

* `Operation.effect` is what the success of an operation does to the workspace, and
  `Workspace.follows_perform` says so; an operation that fails leaves the open project open;
* `Operation.FailsWith` is what an operation can fail with, and `Workspace.failsWith_perform` says
  that it fails with nothing else;
* `Tool.sound_of_planner?` says that the operation of a tool does what the table says of the tool;
* `Workspace.toldBy_of_run` is both together, for a job of a session: what its answer tells of the
  workspace.
-/

namespace Workbench

/-! ## 1. Operations on a workspace -/

/-- The error says that a project is open, or that none is. -/
def ToolError.blamesProject : ToolError → Bool
  | noProjectOpen => true
  | projectAlreadyOpen _ => true
  | _ => false

theorem ToolError.blamesProject_of_tellsOfFiles {e : ToolError} (h : e.tellsOfFiles = true) :
    e.blamesProject = false := by
  cases e <;> first | rfl | cases h

/-- What the success of an operation does to the workspace. -/
def Operation.effect : Operation → Transition
  | openProject _ _ => .attach
  | closeProject _ => .detach
  | _ => .none

/-- The name of the project that the answer to an operation tells of, if the operation opens
one. -/
def Operation.opened? : (op : Operation) → op.Answer → Option String
  | openProject _ _, info => some (ProjectInfo.name info)
  | _, _ => none

/-- The blame is deserved: a project is open where it was to be opened, or none where one was
needed. -/
def Operation.Blameworthy (op : Operation) (p : Option OpenProject) : Prop :=
  op.effect = .attach ↔ p.isSome = true

namespace Workspace

/-- The name of the open project. -/
def label? (w : Workspace) : Option String := w.project.map (·.name)

/-- What holds of the project that is open after an operation, and of the error if there is one. -/
def Follows (op : Operation) (w : Workspace) (o : Outcome op.Answer) : Prop :=
  match o.result with
  | .error e => o.workspace.label? = w.label? ∧
      (e.blamesProject = true → op.Blameworthy w.project)
  | .ok a =>
    match op.effect with
    | .none => o.workspace.label? = w.label?
    | .attach => o.workspace.label? = op.opened? a
    | .detach => o.workspace.label? = none

end Workspace

/-- **What an operation fails with**: what is said of the open project is so, and anything else that
is said is said of files. -/
inductive Operation.FailsWith (op : Operation) (w : Workspace) : ToolError → Prop where
  | free (hop : op.effect ≠ .attach) (hp : w.project = none) : FailsWith op w .noProjectOpen
  | taken {p : OpenProject} (hop : op.effect = .attach) (hp : w.project = some p) :
      FailsWith op w (.projectAlreadyOpen p.name)
  | files {e : ToolError} (he : e.tellsOfFiles = true) : FailsWith op w e

theorem Operation.FailsWith.blameworthy {op : Operation} {w : Workspace} {e : ToolError}
    (h : op.FailsWith w e) (hb : e.blamesProject = true) : op.Blameworthy w.project := by
  cases h with
  | free hop hp => simp [Blameworthy, hop, hp]
  | taken hop hp => simp [Blameworthy, hop, hp]
  | files he =>
    rw [ToolError.blamesProject_of_tellsOfFiles he] at hb
    cases hb

namespace Workspace

variable {op : Operation} {w : Workspace} {d : Disk} {now : Timestamp} {e : ToolError}

/-- To save fails in these ways, and so does what has to save. -/
theorem failsWith_save (hop : op.effect ≠ .attach) (h : (w.save d now).result = .error e) :
    op.FailsWith w e := by
  generalize ho : w.save d now = o at h
  cases save_outcomes ho with
  | closed hp =>
    cases h
    exact .free hop hp
  | unlisted | unwritten =>
    cases h
    exact .files rfl
  | saved =>
    obtain ⟨f, -, rfl⟩ := infoFor_eq_error_iff.mp h
    exact .files rfl

theorem failsWith_openProject {path : Path} {name : Option String}
    (h : (w.openProject d path name).result = .error e) :
    (Operation.openProject path name).FailsWith w e := by
  generalize ho : w.openProject d path name = o at h
  cases openProject_outcomes ho with
  | taken hp =>
    cases h
    exact .taken rfl hp
  | unlocated hp hlocate =>
    cases h
    exact .files (Project.tellsOfFiles_of_locate hlocate)
  | missing =>
    cases h
    exact .files rfl
  | opened => cases h

theorem failsWith_closeProject {saving : Bool}
    (h : (w.closeProject d now saving).result = .error e) :
    (Operation.closeProject saving).FailsWith w e := by
  generalize ho : w.closeProject d now saving = o at h
  cases closeProject_outcomes ho with
  | closed hp =>
    cases h
    exact .free (by rintro ⟨⟩) hp
  | unsaved hp hm hsave =>
    cases h
    exact failsWith_save (by rintro ⟨⟩) hsave
  | unchanged | saved => cases h

theorem failsWith_info (h : w.info d = .error e) : Operation.projectInfo.FailsWith w e := by
  unfold info at h
  split at h
  · cases h
    exact .free (by rintro ⟨⟩) ‹_›
  · obtain ⟨f, -, rfl⟩ := infoFor_eq_error_iff.mp h
    exact .files rfl

theorem failsWith_listBlocks (h : w.listBlocks d = .error e) :
    Operation.listBlocks.FailsWith w e := by
  unfold listBlocks at h
  split at h
  · cases h
    exact .free (by rintro ⟨⟩) ‹_›
  · split at h <;> cases h
    obtain ⟨f, -, rfl⟩ := projectBlocks_eq_error_iff.mp ‹_›
    exact .files rfl

theorem failsWith_exportBlocks {names : Option (List String)} {output : Path}
    (h : (w.exportBlocks d names output).result = .error e) :
    (Operation.exportBlocks names output).FailsWith w e := by
  generalize ho : w.exportBlocks d names output = o at h
  cases exportBlocks_outcomes ho with
  | closed hp =>
    cases h
    exact .free (by rintro ⟨⟩) hp
  | unlisted | unmade =>
    cases h
    exact .files rfl
  | done => cases h

theorem failsWith_importBlocks {files : List Path} {folder : Option String}
    (h : (w.importBlocks d files folder).result = .error e) :
    (Operation.importBlocks files folder).FailsWith w e := by
  generalize ho : w.importBlocks d files folder = o at h
  cases importBlocks_outcomes ho with
  | rejected hfolder =>
    cases h
    exact .files (importFolder_error hfolder)
  | closed _ hp =>
    cases h
    exact .free (by rintro ⟨⟩) hp
  | done => cases h

/-- **What the operations of a workspace fail with.** -/
theorem failsWith_perform (h : (w.perform op d now).result = .error e) : op.FailsWith w e := by
  cases op with
  | openProject path name => exact failsWith_openProject h
  | saveProject => exact failsWith_save (by rintro ⟨⟩) h
  | closeProject saving => exact failsWith_closeProject h
  | projectInfo => exact failsWith_info h
  | listBlocks => exact failsWith_listBlocks h
  | exportBlocks names output => exact failsWith_exportBlocks h
  | importBlocks files folder => exact failsWith_importBlocks h

/-- The project that is open after an operation that succeeds. -/
theorem label_perform {a : op.Answer} (h : (w.perform op d now).result = .ok a) :
    match op.effect with
    | .none => (w.perform op d now).workspace.label? = w.label?
    | .attach => (w.perform op d now).workspace.label? = op.opened? a
    | .detach => (w.perform op d now).workspace.label? = none := by
  cases op with
  | openProject path name =>
    generalize ho : w.perform (.openProject path name) d now = o at h
    cases openProject_outcomes ho with
    | opened =>
      cases h
      rfl
    | _ => cases h
  | saveProject =>
    generalize ho : w.perform .saveProject d now = o at h
    cases save_outcomes ho with
    | saved hp => simp [Operation.effect, label?, hp]
    | _ => cases h
  | closeProject saving =>
    generalize ho : w.perform (.closeProject saving) d now = o at h
    cases closeProject_outcomes ho with
    | unchanged | saved => rfl
    | closed | unsaved => cases h
  | projectInfo => rfl
  | listBlocks => rfl
  | exportBlocks names output => exact congrArg label? (workspace_exportBlocks names output)
  | importBlocks files folder =>
    generalize ho : w.perform (.importBlocks files folder) d now = o at h
    cases importBlocks_outcomes ho with
    | done _ hp => simp [Operation.effect, label?, hp]
    | _ => cases h

/-- **What an operation does to the open project**, and whom its error blames. -/
theorem follows_perform (op : Operation) (w : Workspace) (d : Disk) (now : Timestamp) :
    Follows op w (w.perform op d now) := by
  unfold Follows
  cases hr : (w.perform op d now).result with
  | error e =>
    have hsame : (w.perform op d now).workspace = w := workspace_of_error (r := .operation op) hr
    exact ⟨congrArg label? hsame, (failsWith_perform hr).blameworthy⟩
  | ok a => exact label_perform hr

end Workspace

/-! ## 2. The tools of the table -/

namespace Tool

theorem parseArguments_error {α : Type} [Shaped α] {arguments : Json} {e : ToolError}
    (h : parseArguments α arguments = .error e) : e.blamesProject = false := by
  unfold parseArguments at h
  split at h <;> cases h
  rfl

end Tool

namespace Plan

/-- A project that is opened is presented with its name. -/
theorem label_describe (verb : String) (info : ProjectInfo) :
    Session.label (describe verb info) = info.name := by
  have he : encode info = Json.object
      [("name", .str info.name), ("store_path", .str info.storePath), ("path", .str info.path),
        ("is_modified", .bool info.isModified), ("block_count", Json.nat info.blockCount)] := rfl
  simp [Session.label, describe, he, Json.object, Json.sortMembers, Json.get?,
    Json.lookup_insertMember, Json.str?]

/-- What becomes of the arguments of a tool: a plan with an effect that presents a project that it
opens by its name, or an error that blames no project. -/
def Sound (effect : Transition) (result : Except ToolError Plan) : Prop :=
  match result with
  | .error e => e.blamesProject = false
  | .ok plan => plan.operation.effect = effect ∧
      ∀ a name, plan.operation.opened? a = some name → Session.label (plan.present a) = name

theorem sound_openProject (context : PlanContext) (arguments : Json) :
    Sound .attach (openProject context arguments) := by
  unfold openProject
  split
  · exact Tool.parseArguments_error ‹_›
  · split
    · rfl
    · refine ⟨rfl, fun info name h => ?_⟩
      rw [← Option.some.inj h]
      exact label_describe _ info

theorem sound_closeProject (context : PlanContext) (arguments : Json) :
    Sound .detach (closeProject context arguments) := by
  unfold closeProject
  split
  · exact Tool.parseArguments_error ‹_›
  · exact ⟨rfl, by rintro a name ⟨⟩⟩

theorem sound_saveProject (context : PlanContext) (arguments : Json) :
    Sound .none (saveProject context arguments) := by
  unfold saveProject
  split
  · exact Tool.parseArguments_error ‹_›
  · exact ⟨rfl, by rintro a name ⟨⟩⟩

theorem sound_projectInfo (context : PlanContext) (arguments : Json) :
    Sound .none (projectInfo context arguments) := by
  unfold projectInfo
  split
  · exact Tool.parseArguments_error ‹_›
  · exact ⟨rfl, by rintro a name ⟨⟩⟩

theorem sound_listBlocks (context : PlanContext) (arguments : Json) :
    Sound .none (listBlocks context arguments) := by
  unfold listBlocks
  split
  · exact Tool.parseArguments_error ‹_›
  · exact ⟨rfl, by rintro a name ⟨⟩⟩

theorem sound_exportBlocks (context : PlanContext) (arguments : Json) :
    Sound .none (exportBlocks context arguments) := by
  unfold exportBlocks
  split
  · exact Tool.parseArguments_error ‹_›
  · exact ⟨rfl, by rintro a name ⟨⟩⟩

theorem sound_importBlocks (context : PlanContext) (arguments : Json) :
    Sound .none (importBlocks context arguments) := by
  unfold importBlocks
  split
  · exact Tool.parseArguments_error ‹_›
  · split
    · rfl
    · exact ⟨rfl, by rintro a name ⟨⟩⟩

end Plan

namespace Tool

/-- What the table says of the success of a tool, by the name of the tool. -/
theorem onSuccess_of_mem : ∀ info ∈ all, info.onSuccess =
    if info.name == "open_project" then .attach
    else if info.name == "close_project" then .detach
    else .none := by
  decide

/-- A tool that needs an open project opens none; the tool that opens one is known by its name. -/
theorem precondition_of_mem : ∀ info ∈ all,
    (info.precondition = .sessionAndResource → info.onSuccess ≠ .attach) ∧
      (info.name = "open_project" → info.onSuccess = .attach) := by
  decide

/-- **The operation of a tool does what the table says of the tool.** -/
theorem sound_of_planner? {info : ToolInfo} (hi : info ∈ all) {planner : Planner}
    (hp : planner? info.name = some planner) (context : PlanContext) (arguments : Json) :
    Plan.Sound info.onSuccess (planner context arguments) := by
  rw [onSuccess_of_mem info hi]
  unfold planner? at hp
  split at hp
  · rename_i hn
    cases hp
    rw [if_pos hn]
    exact Plan.sound_openProject context arguments
  · rename_i hn
    rw [if_neg hn]
    split at hp
    · rename_i hn
      cases hp
      rw [if_pos hn]
      exact Plan.sound_closeProject context arguments
    · rename_i hn
      rw [if_neg hn]
      split at hp
      · cases hp
        exact Plan.sound_saveProject context arguments
      · split at hp
        · cases hp
          exact Plan.sound_projectInfo context arguments
        · split at hp
          · cases hp
            exact Plan.sound_listBlocks context arguments
          · split at hp
            · cases hp
              exact Plan.sound_exportBlocks context arguments
            · split at hp <;> cases hp
              exact Plan.sound_importBlocks context arguments

end Tool

/-! ## 3. The jobs of a session -/

namespace Workspace

/-- What the answer of a tool tells of the workspace that it leaves behind. -/
def ToldBy (info : ToolInfo) (w w' : Workspace) : JobAnswer → Prop
  | .error e => w'.label? = w.label? ∧
      (e.blamesProject = true → (info.onSuccess = .attach ↔ w.project.isSome = true))
  | .ok out =>
    match info.onSuccess with
    | .none => w'.label? = w.label?
    | .attach => w'.label? = some (Session.label out)
    | .detach => w'.label? = none

/-- **What a session reads off the answer of a tool is what has become of its workspace.** -/
theorem toldBy_of_run {context : PlanContext} {seat : Nat} {info : ToolInfo} {arguments : Json}
    {w w' : Workspace} {d d' : Disk} {now : Timestamp} {answer : JobAnswer} (hi : info ∈ Tool.all)
    (h : backend.run context seat (.tool info arguments) w d now =
      (d', some ⟨w', some answer⟩)) : ToldBy info w w' answer := by
  have hfree : ∀ {e : ToolError}, e.blamesProject = false → ToldBy info w w (.error e) :=
    fun he => ⟨rfl, fun hb => by simp [he] at hb⟩
  simp only [Backend.run] at h
  split at h
  · cases h
    exact hfree rfl
  · rename_i planner hp
    have hsound := Tool.sound_of_planner? hi hp context arguments
    split at h
    · rename_i e he
      cases h
      rw [he] at hsound
      exact hfree hsound
    · rename_i plan hplan
      rw [hplan] at hsound
      obtain ⟨heffect, hpresent⟩ := hsound
      have hfollows := follows_perform plan.operation w d now
      simp only [backend, Ending.value, Ending.map, Option.map_some, Prod.mk.injEq,
        Option.some.injEq, Ending.mk.injEq] at h
      obtain ⟨-, rfl, rfl⟩ := h
      unfold Follows at hfollows
      unfold ToldBy
      rw [← heffect]
      cases hr : (w.perform plan.operation d now).result with
      | error e =>
        rw [hr] at hfollows
        exact hfollows
      | ok a =>
        rw [hr] at hfollows
        cases heff : plan.operation.effect with
        | none =>
          rw [heff] at hfollows
          exact hfollows
        | detach =>
          rw [heff] at hfollows
          exact hfollows
        | attach =>
          rw [heff] at hfollows
          obtain ⟨name, hname⟩ : ∃ name, plan.operation.opened? a = some name := by
            generalize plan.operation = op at heff a
            cases op <;> first | exact ⟨_, rfl⟩ | cases heff
          exact hfollows.trans (hname.trans (congrArg some (hpresent a name hname).symm))

end Workspace
end Workbench
