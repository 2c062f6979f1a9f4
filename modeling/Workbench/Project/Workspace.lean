import Workbench.Json.Printer
import Workbench.Project.Block
import Workbench.Project.Locate

/-!
# Workspaces

A workspace holds at most one open project: a directory with a project file and the sources of its
blocks.  Every operation takes the workspace and the disk and gives both back with its result, also
when it fails.

A project is modified once an import has brought something in, until it is saved; saving writes a
small file beside the project file.
-/

namespace Workbench

/-- An open project. -/
structure OpenProject where
  name : String
  /-- The directory that holds the directory of the project. -/
  store : Path
  dir : Path
  modified : Bool
  deriving DecidableEq, Repr

/-- A workspace. -/
structure Workspace where
  project : Option OpenProject
  deriving DecidableEq, Repr, Inhabited

namespace Workspace

/-- No project is open. -/
def empty : Workspace := ⟨none⟩

/-- An operation's disk and workspace afterwards, and its result. -/
structure Outcome (α : Type) where
  disk : Disk
  workspace : Workspace
  result : Except ToolError α

/-- A result that leaves disk and workspace alone. -/
def still {α : Type} (w : Workspace) (d : Disk) (r : Except ToolError α) : Outcome α := ⟨d, w, r⟩

/-- The name of the file that saving writes. -/
def stateFile : String := ".tia-mcp-state.json"

/-! ## 1. Looking -/

/-- The blocks of a project. -/
def projectBlocks (d : Disk) (p : OpenProject) : Except ToolError (List FoundBlock) :=
  match d.blocks p.dir with
  | .ok bs => .ok bs
  | .error f => .error (.ofFileFault f)

/-- The summary of a project. -/
def infoFor (d : Disk) (p : OpenProject) : Except ToolError ProjectInfo :=
  match projectBlocks d p with
  | .ok bs => .ok ⟨p.name, p.store.text, p.dir.text, p.modified, bs.length⟩
  | .error e => .error e

/-- The summary of the open project. -/
def info (w : Workspace) (d : Disk) : Except ToolError ProjectInfo :=
  match w.project with
  | none => .error .noProjectOpen
  | some p => infoFor d p

/-- The blocks of the open project. -/
def listBlocks (w : Workspace) (d : Disk) : Except ToolError (List BlockInfo) :=
  match w.project with
  | none => .error .noProjectOpen
  | some p =>
    match projectBlocks d p with
    | .ok bs => .ok (bs.map (·.info))
    | .error e => .error e

/-! ## 2. Opening, saving and closing -/

/-- Opens a project. -/
def openProject (w : Workspace) (d : Disk) (path : Path) (name : Option String) :
    Outcome ProjectInfo :=
  match w.project with
  | some p => w.still d (.error (.projectAlreadyOpen p.name))
  | none =>
    match Project.locate d path name with
    | .error e => w.still d (.error e)
    | .ok (store, name) =>
      let dir := store.join (.ofString name)
      if !d.isDirectory dir then w.still d (.error (.projectNotFound dir.text))
      else
        let p : OpenProject := ⟨name, store, dir, false⟩
        match infoFor d p with
        | .error e => w.still d (.error e)
        | .ok info => ⟨d, ⟨some p⟩, .ok info⟩

/-- What saving writes. -/
def stateText (p : OpenProject) (now : Timestamp) (blockCount : Nat) : String :=
  (Json.object [("project", .str p.name), ("saved_at", .str now.textWithOffset),
    ("block_count", Json.nat blockCount)]).pretty

/-- Saves the open project. -/
def save (w : Workspace) (d : Disk) (now : Timestamp) : Outcome ProjectInfo :=
  match w.project with
  | none => w.still d (.error .noProjectOpen)
  | some p =>
    match projectBlocks d p with
    | .error e => w.still d (.error e)
    | .ok bs =>
      match d.writeFile (p.dir.child stateFile) (stateText p now bs.length) with
      | .error f => w.still d (.error (.ofFileFault f))
      | .ok saved =>
        let p := { p with modified := false }
        ⟨saved, ⟨some p⟩, infoFor saved p⟩

/-- Closes the open project, after saving it if that is wanted and something was changed. -/
def closeProject (w : Workspace) (d : Disk) (now : Timestamp) (saving : Bool) : Outcome String :=
  match w.project with
  | none => w.still d (.error .noProjectOpen)
  | some p =>
    if saving && p.modified then
      let saved := w.save d now
      match saved.result with
      | .error e => ⟨saved.disk, saved.workspace, .error e⟩
      | .ok _ => ⟨saved.disk, empty, .ok p.name⟩
    else ⟨d, empty, .ok p.name⟩

/-- Gives the workspace up: an open project is saved if something was changed, and closed. -/
def release (w : Workspace) (d : Disk) (now : Timestamp) : Outcome Unit :=
  if w.project.isSome then
    let closed := w.closeProject d now true
    match closed.result with
    | .error e => ⟨closed.disk, closed.workspace, .error e⟩
    | .ok _ => ⟨closed.disk, closed.workspace, .ok ()⟩
  else w.still d (.ok ())

/-! ## 3. Exporting -/

/-- The names to export: those that were given, or those of all blocks. -/
def wantedNames (names : Option (List String)) (bs : List FoundBlock) : List String :=
  match names with
  | some (n :: ns) => n :: ns
  | _ => bs.map (·.info.name)

/-- What has been done of a batch. -/
structure Batch (α : Type) where
  disk : Disk
  done : List α
  errors : List ItemError

/-- Exports the block of a name. -/
def exportOne (bs : List FoundBlock) (output : Path) (b : Batch ExportedBlock) (name : String) :
    Batch ExportedBlock :=
  match bs.find? fun b => b.info.name == name with
  | none => { b with errors := b.errors ++ [⟨name, "Block not found"⟩] }
  | some found =>
    match found.source.fileName? with
    | none => b
    | some fileName =>
      let target := output.child fileName
      match b.disk.copyFile found.source target with
      | .ok d => { b with disk := d, done := b.done ++ [⟨name, target.text⟩] }
      | .error f => { b with errors := b.errors ++ [⟨name, f.message⟩] }

/-- Exports blocks of the open project into a directory. -/
def exportBlocks (w : Workspace) (d : Disk) (names : Option (List String)) (output : Path) :
    Outcome ExportReport :=
  match w.project with
  | none => w.still d (.error .noProjectOpen)
  | some p =>
    match projectBlocks d p with
    | .error e => w.still d (.error e)
    | .ok bs =>
      match d.makeDirectories output with
      | (d, .error f) => w.still d (.error (.ofFileFault f))
      | (d, .ok ()) =>
        let b := (wantedNames names bs).foldl (exportOne bs output) ⟨d, [], []⟩
        w.still b.disk (.ok ⟨output.text, b.done, b.errors,
          .ofCounts b.done.length b.errors.length⟩)

/-! ## 4. Importing -/

/-- The folder of an import, which must be relative and must not lead upwards; nothing if none is
named. -/
def importFolder (folder : Option String) : Except ToolError (Option Path) :=
  match folder.filter fun f => !Text.allBlank f with
  | none => .ok none
  | some f =>
    let path := Path.ofString (Text.trim f)
    let inside := path.components.all fun c =>
      match c with
      | .name _ => true
      | .here => true
      | _ => false
    if inside then .ok (some path)
    else
      .error (.invalidPath
        ("target folder must be relative and stay inside the project: " ++ f))

/-- What is said of a file that is no block. -/
def unsupported : String :=
  "Unsupported block file, expected one of [" ++
    String.intercalate ", " (Block.extensions.map Text.quote) ++ "]"

/-- Copies a file into a directory, which is made if it is missing. -/
def copyInto (d : Disk) (source dir : Path) (fileName : String) :
    Disk × Except FileFault Unit :=
  match d.makeDirectories dir with
  | (d, .error f) => (d, .error f)
  | (d, .ok ()) =>
    match d.copyFile source (dir.child fileName) with
    | .ok d => (d, .ok ())
    | .error f => (d, .error f)

/-- Imports a file. -/
def importOne (dir : Path) (folder : Option String) (b : Batch ImportedBlock) (file : Path) :
    Batch ImportedBlock :=
  let failed (d : Disk) (reason : String) : Batch ImportedBlock :=
    { b with disk := d, errors := b.errors ++ [⟨file.text, reason⟩] }
  if !b.disk.isFile file then failed b.disk "File not found"
  else
    match Block.stem? file, file.fileName? with
    | some stem, some fileName =>
      match copyInto b.disk file dir fileName with
      | (d, .ok ()) => { b with disk := d, done := b.done ++ [⟨file.text, stem, folder⟩] }
      | (d, .error f) => failed d f.message
    | _, _ => failed b.disk unsupported

/-- Imports files into the open project. -/
def importBlocks (w : Workspace) (d : Disk) (files : List Path) (folder : Option String) :
    Outcome ImportReport :=
  match importFolder folder with
  | .error e => w.still d (.error e)
  | .ok path =>
    match w.project with
    | none => w.still d (.error .noProjectOpen)
    | some p =>
      let dir :=
        match path with
        | some f => p.dir.join f
        | none => p.dir
      let b := files.foldl (importOne dir folder) ⟨d, [], []⟩
      let p := { p with modified := p.modified || !b.done.isEmpty }
      ⟨b.disk, ⟨some p⟩, .ok ⟨b.done, b.errors, .ofCounts b.done.length b.errors.length⟩⟩

end Workspace
end Workbench
