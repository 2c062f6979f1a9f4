import Workbench.Project.Operation
import Workbench.Proofs.Files.Alike
import Workbench.Session.Backend

/-!
# Projects apart from times

A workspace asks for the time only to write down when a project was saved.  So the times at which
its operations run make no difference to what they answer, nor to what they leave behind, but for
the times in the files that saving wrote.

* `Workspace.SavedAlike` are contents that are the same, or were written by saving one project at
  two times;
* `Workspace.Outcome.Alike` is that two operations came to the same, apart from times;
* `Workspace.perform_alike` and `Workspace.release_alike` say so of every operation, and
  `Workspace.run_alike` of every job.
-/

namespace Workbench

/-! ## 1. What is found on disks that are alike -/

namespace Disk.Alike

variable {R : String → String → Prop} {d d' : Disk}

theorem blocksBelow (h : d.Alike R d') (levels : Nat) (folder : List String) (dir : Path) :
    d.blocksBelow levels folder dir = d'.blocksBelow levels folder dir := by
  induction levels generalizing folder dir with
  | zero => rfl
  | succ levels ih => simp only [Disk.blocksBelow, h.readDirectory, h.isDirectory, ih]

theorem blocks (h : d.Alike R d') (dir : Path) : d.blocks dir = d'.blocks dir := by
  simp only [Disk.blocks, h.tree.depth, h.blocksBelow]

theorem findFrom (h : d.Alike R d') (levels : Nat) (dir : Path) :
    Project.findFrom d levels dir = Project.findFrom d' levels dir := by
  induction levels generalizing dir with
  | zero => rfl
  | succ levels ih =>
    have hfind : Project.findFrom d levels = Project.findFrom d' levels := funext ih
    have hdirectories : d.isDirectory = d'.isDirectory := funext h.isDirectory
    simp only [Project.findFrom, h.readDirectory, h.isFile, hfind, hdirectories]

theorem locate (h : d.Alike R d') (p : Path) (name : Option String) :
    Project.locate d p name = Project.locate d' p name := by
  simp only [Project.locate, Project.findFile, h.pathExists, h.isFile, h.tree.depth, h.findFrom]

end Disk.Alike

namespace Workspace

variable {R : String → String → Prop} {d d' : Disk}

theorem projectBlocks_alike (h : d.Alike R d') (p : OpenProject) :
    projectBlocks d p = projectBlocks d' p := by
  simp only [projectBlocks, h.blocks]

theorem infoFor_alike (h : d.Alike R d') (p : OpenProject) : infoFor d p = infoFor d' p := by
  simp only [infoFor, projectBlocks_alike h]

/-! ## 2. Outcomes apart from times -/

/-- Contents that are the same, or that saving one project wrote at two times. -/
inductive SavedAlike : String → String → Prop where
  | same (content : String) : SavedAlike content content
  | saved (p : OpenProject) (now now' : Timestamp) (blockCount : Nat) :
      SavedAlike (stateText p now blockCount) (stateText p now' blockCount)

/-- **Two outcomes are the same apart from times**: the results and the workspaces are equal, and
the disks differ at most in when projects were saved. -/
structure Outcome.Alike {α : Type} (o o' : Outcome α) : Prop where
  disk : o.disk.Alike SavedAlike o'.disk
  workspace : o.workspace = o'.workspace
  result : o.result = o'.result

section Outcomes

variable {α : Type} (w : Workspace) {now now' : Timestamp} (h : d.Alike SavedAlike d')
include h

theorem still_alike {r r' : Except ToolError α} (hr : r = r') :
    (w.still d r).Alike (w.still d' r') :=
  ⟨h, rfl, hr⟩

theorem openProject_alike (path : Path) (name : Option String) :
    (w.openProject d path name).Alike (w.openProject d' path name) := by
  simp only [openProject, h.locate, h.isDirectory, infoFor_alike h]
  split
  · exact w.still_alike h rfl
  · split
    · exact w.still_alike h rfl
    · split
      · exact w.still_alike h rfl
      · split
        · exact w.still_alike h rfl
        · exact ⟨h, rfl, rfl⟩

theorem save_alike : (w.save d now).Alike (w.save d' now') := by
  simp only [save, projectBlocks_alike h]
  split
  · exact w.still_alike h rfl
  · rename_i p _
    split
    · exact w.still_alike h rfl
    · rename_i bs _
      have hwrite := h.writeFile (p.dir.child stateFile) (.saved p now now' bs.length)
      revert hwrite
      cases d.writeFile (p.dir.child stateFile) (stateText p now bs.length) <;>
        cases d'.writeFile (p.dir.child stateFile) (stateText p now' bs.length) <;>
        intro hwrite <;> cases hwrite
      · exact w.still_alike h rfl
      · rename_i saved
        exact ⟨saved, rfl, infoFor_alike saved _⟩

theorem closeProject_alike (saving : Bool) :
    (w.closeProject d now saving).Alike (w.closeProject d' now' saving) := by
  have hsave : (w.save d now).Alike (w.save d' now') := w.save_alike h
  simp only [closeProject]
  split
  · exact w.still_alike h rfl
  · split
    · rw [← hsave.result]
      split
      · exact ⟨hsave.disk, hsave.workspace, rfl⟩
      · exact ⟨hsave.disk, rfl, rfl⟩
    · exact ⟨h, rfl, rfl⟩

theorem release_alike : (w.release d now).Alike (w.release d' now') := by
  have hclose : (w.closeProject d now true).Alike (w.closeProject d' now' true) :=
    w.closeProject_alike h true
  simp only [release]
  split
  · rw [← hclose.result]
    split
    · exact ⟨hclose.disk, hclose.workspace, rfl⟩
    · exact ⟨hclose.disk, hclose.workspace, rfl⟩
  · exact w.still_alike h rfl

end Outcomes

/-! ## 3. Batches -/

/-- Batches with the same reports, on disks that are alike. -/
structure Batch.Alike {α : Type} (R : String → String → Prop) (b b' : Batch α) : Prop where
  disk : b.disk.Alike R b'.disk
  done : b.done = b'.done
  errors : b.errors = b'.errors

theorem exportOne_alike (hblank : R "" "") (bs : List FoundBlock) (output : Path)
    {b b' : Batch ExportedBlock} (h : b.Alike R b') (name : String) :
    (exportOne bs output b name).Alike R (exportOne bs output b' name) := by
  unfold exportOne
  split
  · exact ⟨h.disk, h.done, congrArg (· ++ _) h.errors⟩
  · rename_i found _
    split
    · exact h
    · rename_i fileName _
      dsimp only
      have hcopy := h.disk.copyFile hblank found.source (output.child fileName)
      revert hcopy
      cases b.disk.copyFile found.source (output.child fileName) <;>
        cases b'.disk.copyFile found.source (output.child fileName) <;>
        intro hcopy <;> cases hcopy
      · exact ⟨h.disk, h.done, congrArg (· ++ _) h.errors⟩
      · exact ⟨‹_›, congrArg (· ++ _) h.done, h.errors⟩

theorem copyInto_alike (hblank : R "" "") (h : d.Alike R d') (source dir : Path)
    (fileName : String) :
    (copyInto d source dir fileName).1.Alike R (copyInto d' source dir fileName).1 ∧
      (copyInto d source dir fileName).2 = (copyInto d' source dir fileName).2 := by
  unfold copyInto
  have hmake := h.makeDirectories dir
  revert hmake
  obtain ⟨made, f⟩ := d.makeDirectories dir
  obtain ⟨made', f'⟩ := d'.makeDirectories dir
  rintro ⟨hmade, hf⟩
  dsimp only at hmade hf
  subst hf
  cases f with
  | error f => exact ⟨hmade, rfl⟩
  | ok _ =>
    have hcopy := hmade.copyFile hblank source (dir.child fileName)
    dsimp only
    revert hcopy
    cases made.copyFile source (dir.child fileName) <;>
      cases made'.copyFile source (dir.child fileName) <;> intro hcopy <;> cases hcopy
    · exact ⟨hmade, rfl⟩
    · exact ⟨‹_›, rfl⟩

theorem importOne_alike (hblank : R "" "") (dir : Path) (folder : Option String)
    {b b' : Batch ImportedBlock} (h : b.Alike R b') (file : Path) :
    (importOne dir folder b file).Alike R (importOne dir folder b' file) := by
  unfold importOne
  rw [h.disk.isFile file]
  dsimp only
  split
  · exact ⟨h.disk, h.done, congrArg (· ++ _) h.errors⟩
  · split
    · rename_i stem fileName _ _
      have hcopy := copyInto_alike hblank h.disk file dir fileName
      revert hcopy
      obtain ⟨copied, f⟩ := copyInto b.disk file dir fileName
      obtain ⟨copied', f'⟩ := copyInto b'.disk file dir fileName
      rintro ⟨hdisk, hf⟩
      dsimp only at hdisk hf
      subst hf
      cases f with
      | error f => exact ⟨hdisk, h.done, congrArg (· ++ _) h.errors⟩
      | ok _ => exact ⟨hdisk, congrArg (· ++ _) h.done, h.errors⟩
    · exact ⟨h.disk, h.done, congrArg (· ++ _) h.errors⟩

theorem foldl_alike {α β : Type} {f : Batch α → β → Batch α}
    (hf : ∀ b b' : Batch α, b.Alike R b' → ∀ x, (f b x).Alike R (f b' x)) (items : List β)
    {b b' : Batch α} (h : b.Alike R b') : (items.foldl f b).Alike R (items.foldl f b') := by
  induction items generalizing b b' with
  | nil => exact h
  | cons x items ih => exact ih (hf b b' h x)

theorem exportBlocks_alike (w : Workspace) (h : d.Alike SavedAlike d')
    (names : Option (List String)) (output : Path) :
    (w.exportBlocks d names output).Alike (w.exportBlocks d' names output) := by
  simp only [exportBlocks, projectBlocks_alike h]
  split
  · exact w.still_alike h rfl
  · split
    · exact w.still_alike h rfl
    · rename_i bs _
      have hmake := h.makeDirectories output
      revert hmake
      obtain ⟨made, f⟩ := d.makeDirectories output
      obtain ⟨made', f'⟩ := d'.makeDirectories output
      rintro ⟨hmade, hf⟩
      dsimp only at hmade hf
      subst hf
      cases f with
      | error f => exact w.still_alike hmade rfl
      | ok _ =>
        have hall := foldl_alike
          (fun _ _ hb name => exportOne_alike (.same "") bs output hb name) (wantedNames names bs)
          (⟨hmade, rfl, rfl⟩ : (Batch.mk made [] []).Alike SavedAlike ⟨made', [], []⟩)
        refine w.still_alike hall.disk ?_
        simp only [hall.done, hall.errors]

theorem importBlocks_alike (w : Workspace) (h : d.Alike SavedAlike d') (files : List Path)
    (folder : Option String) :
    (w.importBlocks d files folder).Alike (w.importBlocks d' files folder) := by
  simp only [importBlocks]
  split
  · exact w.still_alike h rfl
  · split
    · exact w.still_alike h rfl
    · have hall (dir : Path) := foldl_alike
        (fun _ _ hb file => importOne_alike (.same "") dir folder hb file) files
        (⟨h, rfl, rfl⟩ : (Batch.mk d [] []).Alike SavedAlike ⟨d', [], []⟩)
      have hdone (dir : Path) := (hall dir).done
      have herrors (dir : Path) := (hall dir).errors
      refine ⟨(hall _).disk, ?_, ?_⟩
      · simp only [hdone]
      · simp only [hdone, herrors]

/-! ## 4. Operations and jobs -/

/-- **An operation comes to the same at any time**, on disks that differ in times only. -/
theorem perform_alike (op : Operation) (w : Workspace) (h : d.Alike SavedAlike d')
    (now now' : Timestamp) : (w.perform op d now).Alike (w.perform op d' now') := by
  cases op with
  | openProject path name => exact w.openProject_alike h path name
  | saveProject => exact w.save_alike h
  | closeProject saving => exact w.closeProject_alike h saving
  | projectInfo =>
    have hinfo : w.info d = w.info d' := by simp only [info, infoFor_alike h]
    exact w.still_alike h hinfo
  | listBlocks =>
    have hblocks : w.listBlocks d = w.listBlocks d' := by
      simp only [listBlocks, projectBlocks_alike h]
    exact w.still_alike h hblocks
  | exportBlocks names output => exact w.exportBlocks_alike h names output
  | importBlocks files folder => exact w.importBlocks_alike h files folder

/-- An outcome with another presentation of its success. -/
def Outcome.map {α β : Type} (f : α → β) (o : Outcome α) : Outcome β :=
  ⟨o.disk, o.workspace, o.result.map f⟩

theorem Outcome.Alike.map {α β : Type} (f : α → β) {o o' : Outcome α} (h : o.Alike o') :
    (o.map f).Alike (o'.map f) :=
  ⟨h.disk, h.workspace, congrArg (Except.map f) h.result⟩

/-- What a job comes to on a workspace and a disk. -/
def carryOut (context : PlanContext) (w : Workspace) (d : Disk) (now : Timestamp) :
    Job → Outcome ToolOutput
  | .release => (w.release d now).map fun () => ⟨"", .null⟩
  | .tool info arguments =>
    match Tool.planner? info.name with
    | none => w.still d (.error (.unknownTool info.name))
    | some planner =>
      match planner context arguments with
      | .error e => w.still d (.error e)
      | .ok plan => (w.perform plan.operation d now).map plan.present

/-- The backend of workspaces carries every job out to its end. -/
theorem run_eq (context : PlanContext) (seat : Nat) (job : Job) (w : Workspace) (d : Disk)
    (now : Timestamp) : backend.run context seat job w d now =
      ((w.carryOut context d now job).disk,
        some (.value (w.carryOut context d now job).workspace
          (w.carryOut context d now job).result)) := by
  cases job with
  | release => rfl
  | tool info arguments =>
    simp only [Backend.run, carryOut]
    cases Tool.planner? info.name with
    | none => rfl
    | some planner =>
      dsimp only
      cases planner context arguments with
      | error e => rfl
      | ok plan => rfl

end Workspace

/-- Two jobs ask the same of a workspace: both release it, or both are calls of one tool with one
plan. -/
inductive Job.Agrees (context : PlanContext) : Job → Job → Prop where
  | release : Agrees context .release .release
  | tool (info : ToolInfo) {arguments arguments' : Json}
      (h : ∀ planner, Tool.planner? info.name = some planner →
        planner context arguments = planner context arguments') :
      Agrees context (.tool info arguments) (.tool info arguments')

namespace Workspace

variable {d d' : Disk}

/-- **A job comes to the same at any time**, on disks that differ in times only. -/
theorem carryOut_alike {context : PlanContext} {job job' : Job} (hjob : Job.Agrees context job job')
    (w : Workspace) (h : d.Alike SavedAlike d') (now now' : Timestamp) :
    (w.carryOut context d now job).Alike (w.carryOut context d' now' job') := by
  cases hjob with
  | release => exact (w.release_alike h).map _
  | tool info hplan =>
    simp only [carryOut]
    split
    · exact w.still_alike h rfl
    · rename_i planner hplanner
      rw [hplan planner hplanner]
      split
      · exact w.still_alike h rfl
      · rename_i plan _
        exact (perform_alike plan.operation w h now now').map plan.present

end Workspace
end Workbench
