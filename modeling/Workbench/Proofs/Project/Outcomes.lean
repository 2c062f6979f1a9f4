import Workbench.Project.Operation
import Workbench.Proofs.Project.Scanning

/-!
# What operations come to

An operation on a workspace ends in one of a few ways, and here they are listed once for each
operation: `OpenOutcomes` and its likes have one case for each way, with what the workspace, the
disk and the arguments must be like for it.  Whatever is shown of an operation is shown by cases
over these.

* `Project.tellsOfFiles_of_locate` is what locating a project fails with;
* `Workspace.openProject_outcomes`, `Workspace.save_outcomes`, `Workspace.closeProject_outcomes`,
  `Workspace.exportBlocks_outcomes` and `Workspace.importBlocks_outcomes` say that there are no
  other ways.
-/

namespace Workbench

/-! ## 1. What is said of files -/

/-- The error tells of a path or of a file, and not of what is open. -/
def ToolError.tellsOfFiles : ToolError → Bool
  | invalidPath _ | projectNotFound _ | io _ => true
  | _ => false

namespace Project

variable {d : Disk} {e : ToolError}

theorem tellsOfFiles_of_storeAndName {dir shown : Path} (h : storeAndName dir shown = .error e) :
    e.tellsOfFiles = true := by
  unfold storeAndName at h
  split at h <;> cases h
  rfl

/-- **To locate a project** fails for what the files are like. -/
theorem tellsOfFiles_of_locate {p : Path} {name : Option String} (h : locate d p name = .error e) :
    e.tellsOfFiles = true := by
  unfold locate at h
  split at h
  · cases h
    rfl
  · split at h
    · split at h
      · cases h
        rfl
      · split at h
        · cases h
          rfl
        · exact tellsOfFiles_of_storeAndName h
    · split at h
      · cases h
      · split at h
        · cases h
          rfl
        · cases h
          rfl
        · dsimp only at h
          split at h
          · exact tellsOfFiles_of_storeAndName h
          · split at h <;> cases h
            rfl

end Project

/-- The directory of a project into which an import goes. -/
def OpenProject.target (p : OpenProject) (folder : Option Path) : Path :=
  match folder with
  | some f => p.dir.join f
  | none => p.dir

namespace Workspace

variable {w : Workspace} {d : Disk} {p : OpenProject} {now : Timestamp} {e : ToolError}

/-! ## 2. Looking -/

theorem projectBlocks_eq_ok_iff {bs : List FoundBlock} :
    projectBlocks d p = .ok bs ↔ d.blocks p.dir = .ok bs := by
  unfold projectBlocks
  cases d.blocks p.dir <;> simp

theorem projectBlocks_eq_error_iff :
    projectBlocks d p = .error e ↔ ∃ f, d.blocks p.dir = .error f ∧ e = .ofFileFault f := by
  unfold projectBlocks
  cases d.blocks p.dir <;> simp [eq_comm]

/-- A project is summed up with the number of its blocks. -/
theorem infoFor_eq_ok_iff {info : ProjectInfo} : infoFor d p = .ok info ↔
    ∃ bs, d.blocks p.dir = .ok bs ∧
      info = ⟨p.name, p.store.text, p.dir.text, p.modified, bs.length⟩ := by
  unfold infoFor projectBlocks
  cases d.blocks p.dir <;> simp [eq_comm]

theorem infoFor_eq_error_iff :
    infoFor d p = .error e ↔ ∃ f, d.blocks p.dir = .error f ∧ e = .ofFileFault f := by
  unfold infoFor projectBlocks
  cases d.blocks p.dir <;> simp [eq_comm]

theorem importFolder_error {folder : Option String} (h : importFolder folder = .error e) :
    e.tellsOfFiles = true := by
  unfold importFolder at h
  split at h
  · cases h
  · dsimp only at h
    split at h <;> cases h
    rfl

/-! ## 3. Opening, saving and closing -/

/-- What opening a project comes to.  Where there is the directory of the project, its blocks can be
listed, so nothing else is in the way. -/
inductive OpenOutcomes (w : Workspace) (d : Disk) (path : Path) (given : Option String) :
    Outcome ProjectInfo → Prop where
  | taken {p : OpenProject} (hp : w.project = some p) :
      OpenOutcomes w d path given (w.still d (.error (.projectAlreadyOpen p.name)))
  | unlocated {e : ToolError} (hp : w.project = none)
      (hlocate : Project.locate d path given = .error e) :
      OpenOutcomes w d path given (w.still d (.error e))
  | missing {store : Path} {name : String} (hp : w.project = none)
      (hlocate : Project.locate d path given = .ok (store, name))
      (hdir : d.isDirectory (store.join (.ofString name)) = false) :
      OpenOutcomes w d path given
        (w.still d (.error (.projectNotFound (store.join (.ofString name)).text)))
  | opened {store : Path} {name : String} {bs : List FoundBlock} (hp : w.project = none)
      (hlocate : Project.locate d path given = .ok (store, name))
      (hdir : d.isDirectory (store.join (.ofString name)) = true)
      (hbs : d.blocks (store.join (.ofString name)) = .ok bs) :
      OpenOutcomes w d path given
        ⟨d, ⟨some ⟨name, store, store.join (.ofString name), false⟩⟩,
          .ok ⟨name, store.text, (store.join (.ofString name)).text, false, bs.length⟩⟩

theorem openProject_outcomes {path : Path} {given : Option String} {o : Outcome ProjectInfo}
    (h : w.openProject d path given = o) : OpenOutcomes w d path given o := by
  subst h
  unfold openProject
  split
  · exact .taken ‹_›
  · split
    · exact .unlocated ‹_› ‹_›
    · rename_i hp _ store name hlocate
      dsimp only
      split
      · rename_i hdir
        exact .missing hp hlocate (by simpa using hdir)
      · rename_i hdir
        have hdir : d.isDirectory (store.join (.ofString name)) = true := by simpa using hdir
        obtain ⟨bs, hbs⟩ := Disk.blocks_eq_ok_iff.mpr hdir
        have hinfo : infoFor d ⟨name, store, store.join (.ofString name), false⟩ = .ok
            ⟨name, store.text, (store.join (.ofString name)).text, false, bs.length⟩ :=
          infoFor_eq_ok_iff.mpr ⟨bs, hbs, rfl⟩
        rw [hinfo]
        exact .opened hp hlocate hdir hbs

/-- What saving comes to. -/
inductive SaveOutcomes (w : Workspace) (d : Disk) (now : Timestamp) :
    Outcome ProjectInfo → Prop where
  | closed (hp : w.project = none) : SaveOutcomes w d now (w.still d (.error .noProjectOpen))
  | unlisted {p : OpenProject} {f : FileFault} (hp : w.project = some p)
      (hbs : d.blocks p.dir = .error f) : SaveOutcomes w d now (w.still d (.error (.ofFileFault f)))
  | unwritten {p : OpenProject} {bs : List FoundBlock} {f : FileFault} (hp : w.project = some p)
      (hbs : d.blocks p.dir = .ok bs)
      (hwrite : d.writeFile (p.dir.child stateFile) (stateText p now bs.length) = .error f) :
      SaveOutcomes w d now (w.still d (.error (.ofFileFault f)))
  | saved {p : OpenProject} {bs : List FoundBlock} {d' : Disk} (hp : w.project = some p)
      (hbs : d.blocks p.dir = .ok bs)
      (hwrite : d.writeFile (p.dir.child stateFile) (stateText p now bs.length) = .ok d') :
      SaveOutcomes w d now
        ⟨d', ⟨some { p with modified := false }⟩, infoFor d' { p with modified := false }⟩

theorem save_outcomes {o : Outcome ProjectInfo} (h : w.save d now = o) :
    SaveOutcomes w d now o := by
  subst h
  unfold save
  split
  · exact .closed ‹_›
  · rename_i p hp
    split
    · rename_i he
      obtain ⟨f, hbs, rfl⟩ := projectBlocks_eq_error_iff.mp he
      exact .unlisted hp hbs
    · rename_i bs hbs
      rw [projectBlocks_eq_ok_iff] at hbs
      split
      · exact .unwritten hp hbs ‹_›
      · exact .saved hp hbs ‹_›

/-- What closing a project comes to.  The project is saved first if that is wanted and something was
changed, and stays open if it cannot be saved. -/
inductive CloseOutcomes (w : Workspace) (d : Disk) (now : Timestamp) (saving : Bool) :
    Outcome String → Prop where
  | closed (hp : w.project = none) :
      CloseOutcomes w d now saving (w.still d (.error .noProjectOpen))
  | unchanged {p : OpenProject} (hp : w.project = some p) (hm : (saving && p.modified) = false) :
      CloseOutcomes w d now saving ⟨d, empty, .ok p.name⟩
  | unsaved {p : OpenProject} {e : ToolError} (hp : w.project = some p)
      (hm : (saving && p.modified) = true) (hsave : (w.save d now).result = .error e) :
      CloseOutcomes w d now saving ⟨(w.save d now).disk, (w.save d now).workspace, .error e⟩
  | saved {p : OpenProject} {info : ProjectInfo} (hp : w.project = some p)
      (hm : (saving && p.modified) = true) (hsave : (w.save d now).result = .ok info) :
      CloseOutcomes w d now saving ⟨(w.save d now).disk, empty, .ok p.name⟩

theorem closeProject_outcomes {saving : Bool} {o : Outcome String}
    (h : w.closeProject d now saving = o) : CloseOutcomes w d now saving o := by
  subst h
  unfold closeProject
  split
  · exact .closed ‹_›
  · rename_i p hp
    split
    · rename_i hm
      dsimp only
      split
      · exact .unsaved hp hm ‹_›
      · exact .saved hp hm ‹_›
    · rename_i hm
      exact .unchanged hp (by simpa using hm)

/-! ## 4. Exporting and importing -/

/-- What an export comes to. -/
inductive ExportOutcomes (w : Workspace) (d : Disk) (names : Option (List String)) (output : Path) :
    Outcome ExportReport → Prop where
  | closed (hp : w.project = none) :
      ExportOutcomes w d names output (w.still d (.error .noProjectOpen))
  | unlisted {p : OpenProject} {f : FileFault} (hp : w.project = some p)
      (hbs : d.blocks p.dir = .error f) :
      ExportOutcomes w d names output (w.still d (.error (.ofFileFault f)))
  | unmade {p : OpenProject} {bs : List FoundBlock} {made : Disk} {f : FileFault}
      (hp : w.project = some p) (hbs : d.blocks p.dir = .ok bs)
      (hmade : d.makeDirectories output = (made, .error f)) :
      ExportOutcomes w d names output (w.still made (.error (.ofFileFault f)))
  | done {p : OpenProject} {bs : List FoundBlock} {made : Disk} {b : Batch ExportedBlock}
      (hp : w.project = some p) (hbs : d.blocks p.dir = .ok bs)
      (hmade : d.makeDirectories output = (made, .ok ()))
      (hb : (wantedNames names bs).foldl (exportOne bs output) ⟨made, [], []⟩ = b) :
      ExportOutcomes w d names output (w.still b.disk (.ok ⟨output.text, b.done, b.errors,
        .ofCounts b.done.length b.errors.length⟩))

theorem exportBlocks_outcomes {names : Option (List String)} {output : Path}
    {o : Outcome ExportReport} (h : w.exportBlocks d names output = o) :
    ExportOutcomes w d names output o := by
  subst h
  unfold exportBlocks
  split
  · exact .closed ‹_›
  · rename_i p hp
    split
    · rename_i he
      obtain ⟨f, hbs, rfl⟩ := projectBlocks_eq_error_iff.mp he
      exact .unlisted hp hbs
    · rename_i bs hbs
      rw [projectBlocks_eq_ok_iff] at hbs
      split
      · exact .unmade hp hbs ‹_›
      · exact .done hp hbs ‹_› rfl

/-- What an import comes to.  The folder is looked at before the project. -/
inductive ImportOutcomes (w : Workspace) (d : Disk) (files : List Path) (folder : Option String) :
    Outcome ImportReport → Prop where
  | rejected {e : ToolError} (hfolder : importFolder folder = .error e) :
      ImportOutcomes w d files folder (w.still d (.error e))
  | closed {path : Option Path} (hfolder : importFolder folder = .ok path)
      (hp : w.project = none) :
      ImportOutcomes w d files folder (w.still d (.error .noProjectOpen))
  | done {path : Option Path} {p : OpenProject} {b : Batch ImportedBlock}
      (hfolder : importFolder folder = .ok path) (hp : w.project = some p)
      (hb : files.foldl (importOne (p.target path) folder) ⟨d, [], []⟩ = b) :
      ImportOutcomes w d files folder
        ⟨b.disk, ⟨some { p with modified := p.modified || !b.done.isEmpty }⟩,
          .ok ⟨b.done, b.errors, .ofCounts b.done.length b.errors.length⟩⟩

theorem importBlocks_outcomes {files : List Path} {folder : Option String}
    {o : Outcome ImportReport} (h : w.importBlocks d files folder = o) :
    ImportOutcomes w d files folder o := by
  subst h
  unfold importBlocks
  split
  · exact .rejected ‹_›
  · split
    · exact .closed ‹_› ‹_›
    · exact .done ‹_› ‹_› rfl

end Workspace
end Workbench
