import Workbench.Proofs.Json.Rereading
import Workbench.Proofs.Project.Failing

/-!
# Changes that are not saved

A project is modified once an import has brought a block in, until the project is saved.  This can
be read off the answers: `Mark` says what the answer to a request means for it, and a project is
modified exactly if a block has been brought in since the last answer that settled everything.

* `Workspace.project_respond` is what one request does to the open project, by the mark of its
  answer;
* `Workspace.Tracks` holds after every request (`Tracks.step`), so after all of them;
* `Workspace.tracksChanges_of_visits` is this for every history of a workspace, and what closing a
  modified project writes.
-/

namespace Workbench
namespace Workspace

/-! ## 1. What an answer means -/

/-- What the answer to a request means for changes that are not saved. -/
inductive Mark where
  /-- A project has been opened or saved: nothing is left to be saved. -/
  | settled
  /-- An import has brought in one block at least. -/
  | brought
  /-- Nothing changes, or no project is open any more. -/
  | other
  deriving DecidableEq, Repr

/-- The mark of an answer. -/
def Request.mark : (r : Request) → Except ToolError r.Answer → Mark
  | .operation (.openProject _ _), .ok _ => .settled
  | .operation .saveProject, .ok _ => .settled
  | .operation (.importBlocks _ _), .ok report =>
    if (ImportReport.imported report).isEmpty then .other else .brought
  | _, _ => .other

/-- What a request does to the open project, by the mark of its answer. -/
def Moves (before after : Option OpenProject) : Mark → Prop
  | .settled => ∃ p, after = some p ∧ p.modified = false
  | .brought => ∃ p, before = some p ∧ after = some { p with modified := true }
  | .other => after = before ∨ after = none

variable {w : Workspace} {d : Disk} {now : Timestamp}

theorem mark_of_error {r : Request} (e : ToolError) : r.mark (.error e) = .other := by
  match r with
  | .release => rfl
  | .operation (.openProject _ _) => rfl
  | .operation .saveProject => rfl
  | .operation (.closeProject _) => rfl
  | .operation .projectInfo => rfl
  | .operation .listBlocks => rfl
  | .operation (.exportBlocks _ _) => rfl
  | .operation (.importBlocks _ _) => rfl

theorem project_openProject {path : Path} {name : Option String} {info : ProjectInfo}
    (h : (w.openProject d path name).result = .ok info) :
    ∃ p, (w.openProject d path name).workspace.project = some p ∧ p.modified = false := by
  generalize ho : w.openProject d path name = o at h ⊢
  cases openProject_outcomes ho with
  | opened => exact ⟨_, rfl, rfl⟩
  | _ => cases h

/-- No project is open after a close. -/
theorem project_closeProject {saving : Bool} {name : String}
    (h : (w.closeProject d now saving).result = .ok name) :
    (w.closeProject d now saving).workspace = empty := by
  rcases w.closeProject_cases d now saving with ⟨p, disk, -, hclosed, -⟩ | ⟨e, hfailed⟩
  · rw [hclosed]
  · rw [hfailed] at h
    cases h

theorem project_release {u : Unit} (h : (w.release d now).result = .ok u) :
    (w.release d now).workspace.project = none := by
  cases hp : w.project with
  | none => rw [release_of_none hp, still, hp]
  | some p =>
    rw [release_eq hp] at h ⊢
    cases hclose : (w.closeProject d now true).result with
    | error e =>
      rw [hclose] at h
      cases h
    | ok name => exact congrArg project (project_closeProject hclose)

/-- An import marks the project as modified if it has brought something in. -/
theorem project_importBlocks {files : List Path} {folder : Option String} {report : ImportReport}
    (h : (w.importBlocks d files folder).result = .ok report) :
    ∃ p, w.project = some p ∧ (w.importBlocks d files folder).workspace.project =
      some { p with modified := p.modified || !report.imported.isEmpty } := by
  generalize ho : w.importBlocks d files folder = o at h ⊢
  cases importBlocks_outcomes ho with
  | done _ hp =>
    cases h
    exact ⟨_, hp, rfl⟩
  | _ => cases h

/-- **What a request does to the open project.** -/
theorem project_respond (w : Workspace) (d : Disk) (now : Timestamp) (r : Request) :
    Moves w.project (w.respond d now r).workspace.project
      (r.mark (w.respond d now r).result) := by
  cases hr : (w.respond d now r).result with
  | error e =>
    rw [mark_of_error]
    exact Or.inl (congrArg project (workspace_of_error hr))
  | ok a =>
    match r with
    | .release => exact Or.inr (project_release hr)
    | .operation (.openProject path name) => exact project_openProject hr
    | .operation .saveProject =>
      rcases w.save_cases d now with ⟨p, -, hsaved⟩ | ⟨e, he⟩
      · exact ⟨_, congrArg project hsaved.workspace, rfl⟩
      · have herror : (w.save d now).result = .error e := by rw [he, still]
        rw [show (w.save d now).result = .ok a from hr] at herror
        cases herror
    | .operation (.closeProject saving) => exact Or.inr (congrArg project (project_closeProject hr))
    | .operation .projectInfo => exact Or.inl rfl
    | .operation .listBlocks => exact Or.inl rfl
    | .operation (.exportBlocks names output) =>
      exact Or.inl (congrArg project (workspace_exportBlocks names output))
    | .operation (.importBlocks files folder) =>
      obtain ⟨p, hp, hproject⟩ := project_importBlocks hr
      cases hempty : (ImportReport.imported a).isEmpty with
      | true =>
        rw [hempty, Bool.not_true, Bool.or_false] at hproject
        simp only [Request.mark, hempty, if_true]
        exact Or.inl (hproject.trans hp.symm)
      | false =>
        rw [hempty, Bool.not_false, Bool.or_true] at hproject
        simp only [Request.mark, hempty]
        exact ⟨p, hp, hproject⟩

/-! ## 2. One request after the other -/

/-- A request, with what the disk holds when it is made.  Between two requests others may have
changed the files. -/
structure Visit where
  disk : Disk
  now : Timestamp
  request : Request

/-- A workspace after some requests. -/
def after (w : Workspace) : List Visit → Workspace
  | [] => w
  | v :: rest => (w.respond v.disk v.now v.request).workspace.after rest

/-- The marks of the answers to some requests. -/
def marks (w : Workspace) : List Visit → List Mark
  | [] => []
  | v :: rest => v.request.mark (w.respond v.disk v.now v.request).result ::
      (w.respond v.disk v.now v.request).workspace.marks rest

/-- **The open project is modified exactly if a block has been brought in since all was
settled.** -/
def Tracks (ms : List Mark) (w : Workspace) : Prop :=
  ∀ p, w.project = some p → ∃ front back, ms = front ++ .settled :: back ∧ .settled ∉ back ∧
    (p.modified = true ↔ .brought ∈ back)

theorem tracks_empty : Tracks [] empty := by rintro p ⟨⟩

/-- **One request more.** -/
theorem Tracks.step {ms : List Mark} {m : Mark} {w w' : Workspace} (h : Tracks ms w)
    (hm : Moves w.project w'.project m) : Tracks (ms ++ [m]) w' := by
  intro p hp
  cases m with
  | settled =>
    obtain ⟨p', hp', hmodified⟩ := hm
    rw [hp] at hp'
    cases hp'
    exact ⟨ms, [], rfl, List.not_mem_nil, by simp [hmodified]⟩
  | brought =>
    obtain ⟨p', hbefore, hafter⟩ := hm
    rw [hp] at hafter
    cases hafter
    obtain ⟨front, back, rfl, hback, -⟩ := h p' hbefore
    exact ⟨front, back ++ [.brought], by simp, by simpa using hback, by simp⟩
  | other =>
    rcases hm with hsame | hnone
    · obtain ⟨front, back, rfl, hback, hmodified⟩ := h p (hsame ▸ hp)
      exact ⟨front, back ++ [.other], by simp, by simpa using hback, by simpa using hmodified⟩
    · rw [hp] at hnone
      cases hnone

/-- **All requests**, by induction over those that are still to come. -/
theorem Tracks.all {ms : List Mark} {w : Workspace} (h : Tracks ms w) (visits : List Visit) :
    Tracks (ms ++ w.marks visits) (w.after visits) := by
  induction visits generalizing ms w with
  | nil => simpa [marks, after] using h
  | cons v rest ih =>
    have hnext := ih (h.step (w.project_respond v.disk v.now v.request))
    rwa [List.append_assoc] at hnext

/-! ## 3. What closing writes -/

/-- The text is that of an object with the name of a project and the number of its blocks, and it is
read as that object. -/
def Records (content name : String) (count : Nat) : Prop :=
  ∃ j : Json, content = j.pretty ∧ j.get? "project" = some (.str name) ∧
    j.get? "block_count" = some (Json.nat count) ∧
    (count < 2 ^ 64 → Json.parse content = .ok j)

theorem records_stateText (p : OpenProject) (now : Timestamp) (count : Nat) :
    Records (stateText p now count) p.name count := by
  have hkeys : (Json.keys [("project", .str p.name), ("saved_at", .str now.textWithOffset),
      ("block_count", Json.nat count)]).Nodup := by
    show ["project", "saved_at", "block_count"].Nodup
    decide
  refine ⟨_, rfl, Json.get?_object hkeys _, Json.get?_object hkeys _, fun hcount => ?_⟩
  have hnumber : (Json.nat count).Readable := by
    have hwhole : Json.IsWhole count := by
      unfold Json.IsWhole
      omega
    exact ⟨trivial, hwhole, Nat.succ_pos 126⟩
  refine Json.parse_pretty_object hkeys fun m hm => ?_
  simp only [List.mem_cons, List.not_mem_nil, or_false] at hm
  rcases hm with rfl | rfl | rfl
  · exact Json.readable_str _
  · exact Json.readable_str _
  · exact hnumber

variable {p : OpenProject}

/-- A save that succeeds has written the name of the project and the number of the blocks that could
be listed before, and this is read back. -/
theorem Saved.records {o : Outcome ProjectInfo} (h : Saved d now p o) (hp : w.project = some p) :
    ∃ infos content, w.listBlocks d = .ok infos ∧
      d.writeFile (p.dir.child stateFile) content = .ok o.disk ∧
      o.disk.readFile (p.dir.child stateFile) = .ok content ∧
      Records content p.name infos.length := by
  obtain ⟨bs, hbs, hwrite⟩ := h.written
  refine ⟨bs.map (·.info), stateText p now bs.length, ?_, hwrite,
    Disk.readFile_of_writeFile_child isEntryName_stateFile hwrite, ?_⟩
  · simp only [listBlocks, hp, projectBlocks_eq_ok_iff.mpr hbs]
  · rw [List.length_map]
    exact records_stateText p now bs.length

/-- To close a modified project with its changes, however it is asked for, is to save it. -/
theorem disk_respond_of_modified {r : Request} {a : r.Answer} (hp : w.project = some p)
    (hm : p.modified = true) (hr : r.closesSaving = true)
    (h : (w.respond d now r).result = .ok a) :
    Saved d now p (w.save d now) ∧ (w.respond d now r).disk = (w.save d now).disk := by
  rcases closeProject_saving d now hp hm with ⟨hsaved, hclosed⟩ | ⟨e, he, -⟩
  · refine ⟨hsaved, ?_⟩
    match r with
    | .operation (.closeProject true) => exact congrArg Outcome.disk hclosed
    | .release =>
      exact (congrArg Outcome.disk (release_eq hp)).trans (congrArg Outcome.disk hclosed)
  · rw [respond_of_save_error hp hm hr he] at h
    cases h

/-! ## 4. Every history -/

/-- **What is known of unsaved changes** after some requests to a workspace that was empty. -/
structure TracksChanges (visits : List Visit) : Prop where
  /-- The open project is modified exactly if a block has been brought in since it was opened or
  saved. -/
  modified : Tracks (empty.marks visits) (empty.after visits)
  /-- Where a modified project is closed with its changes, its file has been written: with its name,
  and with the number of the blocks that would have been listed. -/
  saved : ∀ p, (empty.after visits).project = some p → p.modified = true →
    ∀ d now r a, Request.closesSaving r = true →
      ((empty.after visits).respond d now r).result = .ok a →
      ∃ infos content, (empty.after visits).listBlocks d = .ok infos ∧
        d.writeFile (p.dir.child stateFile) content =
          .ok ((empty.after visits).respond d now r).disk ∧
        ((empty.after visits).respond d now r).disk.readFile (p.dir.child stateFile) =
          .ok content ∧
        Records content p.name infos.length
  /-- To close without saving writes nothing, and neither does any way to close a project that is
  not modified. -/
  unwritten : ∀ d now saving,
    (∀ p, (empty.after visits).project = some p → (saving && p.modified) = false) →
    ((empty.after visits).respond d now (.operation (.closeProject saving))).disk = d
  /-- Nor is anything written when a workspace without changes is given up. -/
  unwritten_release : ∀ d now,
    (∀ p, (empty.after visits).project = some p → p.modified = false) →
    ((empty.after visits).respond d now .release).disk = d

/-- **No change is lost or saved for nothing**, whatever is asked of a workspace one after the
other, and whatever the disk holds each time. -/
theorem tracksChanges_of_visits (visits : List Visit) : TracksChanges visits where
  modified := tracks_empty.all visits
  saved p hp hm d now r a hr h := by
    obtain ⟨hsaved, hdisk⟩ := disk_respond_of_modified hp hm hr h
    rw [hdisk]
    exact hsaved.records hp
  unwritten _ _ _ h := disk_closeProject_unsaved h
  unwritten_release _ _ h := disk_release_unsaved h

end Workspace
end Workbench
