import Workbench.Proofs.Files.Writing
import Workbench.Proofs.Project.Outcomes

/-!
# Requests that fail

A request that fails leaves the workspace as it was.  Saving is where this could go wrong: it lists
the blocks, writes its file, notes that nothing is left to be saved, and lists the blocks again for
its answer.  But blocks can be listed wherever there is a directory, and no write takes a directory
away, so the second listing never fails.

* `Workspace.Request` is what may be asked of a workspace;
* `Workspace.Saved` is what a save brings about, and `Workspace.save_cases` says that a save which
  does not bring it about changes nothing;
* `Workspace.failsCleanly_respond` is the statement about every request.
-/

namespace Workbench
namespace Workspace

/-! ## 1. Requests -/

/-- What may be asked of a workspace: an operation, or to give itself up. -/
inductive Request where
  | operation (op : Operation)
  | release
  deriving DecidableEq, Repr

/-- The answer to a request that succeeds. -/
def Request.Answer : Request → Type
  | operation op => op.Answer
  | release => Unit

/-- What a request comes to. -/
def respond (w : Workspace) (d : Disk) (now : Timestamp) : (r : Request) → Outcome r.Answer
  | .operation op => w.perform op d now
  | .release => w.release d now

/-- The request closes the project, and saves it first if something was changed. -/
def Request.closesSaving : Request → Bool
  | operation (.closeProject saving) => saving
  | release => true
  | _ => false

/-- The request exports blocks. -/
def Request.exports : Request → Bool
  | operation (.exportBlocks _ _) => true
  | _ => false

/-! ## 2. Saving -/

variable {w : Workspace} {d : Disk} {now : Timestamp} {p : OpenProject}

theorem isEntryName_stateFile : Path.IsEntryName stateFile := ⟨by decide, by decide, by decide⟩

/-- A project can be summed up wherever its directory is one. -/
theorem exists_infoFor (h : d.isDirectory p.dir = true) : ∃ info, infoFor d p = .ok info := by
  obtain ⟨bs, hbs⟩ := Disk.blocks_eq_ok_iff.mpr h
  exact ⟨_, infoFor_eq_ok_iff.mpr ⟨bs, hbs, rfl⟩⟩

/-- **What a save brings about**: the file of the project is written with the number of the blocks
that could be listed before, and nothing is left to be saved. -/
structure Saved (d : Disk) (now : Timestamp) (p : OpenProject) (o : Outcome ProjectInfo) :
    Prop where
  written : ∃ bs, d.blocks p.dir = .ok bs ∧
    d.writeFile (p.dir.child stateFile) (stateText p now bs.length) = .ok o.disk
  workspace : o.workspace = ⟨some { p with modified := false }⟩
  succeeds : ∃ info, o.result = .ok info

/-- **A save brings about everything or nothing.** -/
theorem save_cases (w : Workspace) (d : Disk) (now : Timestamp) :
    (∃ p, w.project = some p ∧ Saved d now p (w.save d now)) ∨
      ∃ e, w.save d now = w.still d (.error e) := by
  generalize ho : w.save d now = o
  cases save_outcomes ho with
  | closed => exact Or.inr ⟨_, rfl⟩
  | unlisted => exact Or.inr ⟨_, rfl⟩
  | unwritten => exact Or.inr ⟨_, rfl⟩
  | @saved p bs saved hp hbs hwrite =>
    obtain ⟨key, hkey, hreplaced⟩ := Disk.replaced_of_writeFile hwrite
    obtain ⟨-, -, -, -, hfile⟩ := Disk.openForWriting_ok hkey
    have hdir : saved.isDirectory p.dir = true :=
      (hreplaced.grows hfile (by rintro ⟨⟩)).isDirectory (Disk.blocks_eq_ok_iff.mp ⟨bs, hbs⟩)
    exact Or.inl ⟨p, hp, ⟨bs, hbs, hwrite⟩, rfl, exists_infoFor hdir⟩

theorem save_of_error {e : ToolError} (h : (w.save d now).result = .error e) :
    w.save d now = w.still d (.error e) := by
  rcases w.save_cases d now with ⟨p, -, -, -, info, hinfo⟩ | ⟨e', he'⟩
  · rw [hinfo] at h
    cases h
  · rw [he'] at h ⊢
    cases h
    rfl

/-! ## 3. Closing -/

/-- To close without a change to be saved is to forget the project. -/
theorem closeProject_unsaved {saving : Bool} (hp : w.project = some p)
    (h : (saving && p.modified) = false) :
    w.closeProject d now saving = ⟨d, empty, .ok p.name⟩ := by
  simp [closeProject, hp, h]

/-- To close with changes to be saved is to save them and to forget the project; if they cannot be
saved, nothing is done at all. -/
theorem closeProject_saving (d : Disk) (now : Timestamp) (hp : w.project = some p)
    (hm : p.modified = true) :
    (Saved d now p (w.save d now) ∧
        w.closeProject d now true = ⟨(w.save d now).disk, empty, .ok p.name⟩) ∨
      ∃ e, (w.save d now).result = .error e ∧
        w.closeProject d now true = w.still d (.error e) := by
  simp only [closeProject, hp, hm, Bool.and_self, if_true]
  rcases w.save_cases d now with ⟨p', hp', hsaved⟩ | ⟨e, he⟩
  · rw [hp] at hp'
    cases hp'
    obtain ⟨info, hinfo⟩ := hsaved.succeeds
    exact Or.inl ⟨hsaved, by rw [hinfo]⟩
  · rw [he]
    exact Or.inr ⟨e, rfl, rfl⟩

/-- A release closes the open project with its changes saved. -/
theorem release_eq (hp : w.project = some p) :
    w.release d now = ⟨(w.closeProject d now true).disk, (w.closeProject d now true).workspace,
      (w.closeProject d now true).result.map fun _ => ()⟩ := by
  simp only [release, hp, Option.isSome_some, if_true]
  cases h : (w.closeProject d now true).result <;> rfl

theorem release_of_none (hp : w.project = none) : w.release d now = w.still d (.ok ()) := by
  simp [release, hp]

theorem closeProject_of_none (hp : w.project = none) (saving : Bool) :
    w.closeProject d now saving = w.still d (.error .noProjectOpen) := by
  simp [closeProject, hp]

/-- Without a change to be saved, a close writes nothing. -/
theorem disk_closeProject_unsaved {saving : Bool}
    (h : ∀ p, w.project = some p → (saving && p.modified) = false) :
    (w.closeProject d now saving).disk = d := by
  cases hp : w.project with
  | none => rw [closeProject_of_none hp, still]
  | some p => rw [closeProject_unsaved hp (h p hp)]

theorem disk_release_unsaved (h : ∀ p, w.project = some p → p.modified = false) :
    (w.release d now).disk = d := by
  cases hp : w.project with
  | none => rw [release_of_none hp, still]
  | some p =>
    rw [release_eq hp]
    exact disk_closeProject_unsaved fun p' hp' => by rw [h p' hp', Bool.and_false]

/-- **What a request to close comes to**: the project is forgotten, after it has been saved if that
is asked for and something was changed; or nothing is done at all. -/
theorem closeProject_cases (w : Workspace) (d : Disk) (now : Timestamp) (saving : Bool) :
    (∃ p disk, w.project = some p ∧ w.closeProject d now saving = ⟨disk, empty, .ok p.name⟩ ∧
        (disk = d ∨ Saved d now p (w.save d now) ∧ disk = (w.save d now).disk)) ∨
      ∃ e, w.closeProject d now saving = w.still d (.error e) := by
  generalize ho : w.closeProject d now saving = o
  cases closeProject_outcomes ho with
  | closed => exact Or.inr ⟨_, rfl⟩
  | unchanged hp => exact Or.inl ⟨_, d, hp, rfl, Or.inl rfl⟩
  | unsaved hp hm hsave =>
    rw [save_of_error hsave]
    exact Or.inr ⟨_, rfl⟩
  | saved hp hm hsave =>
    rcases w.save_cases d now with ⟨p', hp', hsaved⟩ | ⟨e, he⟩
    · cases hp.symm.trans hp'
      exact Or.inl ⟨_, _, hp, rfl, Or.inr ⟨hsaved, rfl⟩⟩
    · rw [he] at hsave
      cases hsave

theorem closeProject_of_error {saving : Bool} {e : ToolError}
    (h : (w.closeProject d now saving).result = .error e) :
    w.closeProject d now saving = w.still d (.error e) := by
  rcases w.closeProject_cases d now saving with ⟨p, disk, -, hclosed, -⟩ | ⟨e', hfailed⟩
  · rw [hclosed] at h
    cases h
  · rw [hfailed] at h ⊢
    cases h
    rfl

/-! ## 4. All requests -/

theorem openProject_of_error {path : Path} {name : Option String} {e : ToolError}
    (h : (w.openProject d path name).result = .error e) :
    w.openProject d path name = w.still d (.error e) := by
  generalize ho : w.openProject d path name = o at h ⊢
  cases openProject_outcomes ho with
  | opened => cases h
  | _ =>
    cases h
    rfl

theorem importBlocks_of_error {files : List Path} {folder : Option String} {e : ToolError}
    (h : (w.importBlocks d files folder).result = .error e) :
    w.importBlocks d files folder = w.still d (.error e) := by
  generalize ho : w.importBlocks d files folder = o at h ⊢
  cases importBlocks_outcomes ho with
  | done => cases h
  | _ =>
    cases h
    rfl

/-- An export never changes the workspace. -/
theorem workspace_exportBlocks (names : Option (List String)) (output : Path) :
    (w.exportBlocks d names output).workspace = w := by
  generalize ho : w.exportBlocks d names output = o
  cases exportBlocks_outcomes ho <;> rfl

theorem release_of_error {e : ToolError} (h : (w.release d now).result = .error e) :
    w.release d now = w.still d (.error e) := by
  cases hp : w.project with
  | none =>
    rw [release_of_none hp] at h
    cases h
  | some p =>
    rw [release_eq hp] at h ⊢
    cases hclose : (w.closeProject d now true).result with
    | ok name =>
      rw [hclose] at h
      cases h
    | error e' =>
      rw [hclose] at h
      cases h
      rw [closeProject_of_error hclose]
      rfl

/-- **A request that fails does nothing**, if it is no export. -/
theorem respond_of_error {r : Request} {e : ToolError} (hr : r.exports = false)
    (h : (w.respond d now r).result = .error e) :
    w.respond d now r = w.still d (.error e) := by
  match r with
  | .release => exact release_of_error h
  | .operation (.openProject path name) => exact openProject_of_error h
  | .operation .saveProject => exact save_of_error h
  | .operation (.closeProject saving) => exact closeProject_of_error h
  | .operation .projectInfo => exact congrArg (w.still d) h
  | .operation .listBlocks => exact congrArg (w.still d) h
  | .operation (.exportBlocks names output) => cases hr
  | .operation (.importBlocks files folder) => exact importBlocks_of_error h

/-- Changes that cannot be saved stop a request to close. -/
theorem respond_of_save_error {r : Request} {e : ToolError} (hp : w.project = some p)
    (hm : p.modified = true) (hr : r.closesSaving = true) (h : (w.save d now).result = .error e) :
    (w.respond d now r).result = .error e := by
  have hclose : (w.closeProject d now true).result = .error e := by
    rcases closeProject_saving d now hp hm with ⟨hsaved, -⟩ | ⟨e', he', hfailed⟩
    · obtain ⟨info, hinfo⟩ := hsaved.succeeds
      rw [hinfo] at h
      cases h
    · rw [he'] at h
      cases h
      rw [hfailed]
      rfl
  match r with
  | .operation (.closeProject true) => exact hclose
  | .release =>
    show (w.release d now).result = .error e
    rw [release_eq hp, hclose]
    rfl

/-- A request that fails leaves the workspace alone, an export as well. -/
theorem workspace_of_error {r : Request} {e : ToolError}
    (h : (w.respond d now r).result = .error e) : (w.respond d now r).workspace = w := by
  cases hr : r.exports with
  | false => rw [respond_of_error hr h]; rfl
  | true =>
    match r with
    | .operation (.exportBlocks names output) => exact workspace_exportBlocks names output

/-- **What is left when a request fails.** -/
structure FailsCleanly (w : Workspace) (d : Disk) (now : Timestamp) (r : Request) : Prop where
  /-- The workspace is as it was. -/
  workspace : ∀ e, (w.respond d now r).result = .error e → (w.respond d now r).workspace = w
  /-- So are the files, but for the directories that an export may have made. -/
  disk : ∀ e, (w.respond d now r).result = .error e → r.exports = false →
    (w.respond d now r).disk = d
  /-- Changes that cannot be saved keep the project open, and modified, when it was to be closed. -/
  unsaved : ∀ p, w.project = some p → p.modified = true → r.closesSaving = true →
    ∀ e, (w.save d now).result = .error e →
      (w.respond d now r).result = .error e ∧ (w.respond d now r).workspace.project = some p

/-- **A request that fails leaves the workspace as it was**, whatever is asked, whatever the disk
holds, and whatever the workspace has gone through before. -/
theorem failsCleanly_respond (w : Workspace) (d : Disk) (now : Timestamp) (r : Request) :
    FailsCleanly w d now r where
  workspace e h := workspace_of_error h
  disk e h hr := by
    rw [respond_of_error hr h]
    rfl
  unsaved p hp hm hr e h := by
    have herror := respond_of_save_error hp hm hr h
    have hexports : r.exports = false := by
      match r with
      | .operation (.closeProject true) => rfl
      | .release => rfl
    refine ⟨herror, ?_⟩
    rw [respond_of_error hexports herror]
    exact hp

/-- A project whose changes cannot be saved, as there is a directory in the place of its file. -/
example : release ⟨some ⟨"Plant", ⟨[""]⟩, ⟨["Plant"]⟩, true⟩⟩
    ⟨.directory "Plant" (.directory stateFile .empty .empty) .empty, [], none⟩ default =
    still ⟨some ⟨"Plant", ⟨[""]⟩, ⟨["Plant"]⟩, true⟩⟩
      ⟨.directory "Plant" (.directory stateFile .empty .empty) .empty, [], none⟩
      (.error (.ofFileFault .isDirectory)) := by
  rfl

end Workspace
end Workbench
