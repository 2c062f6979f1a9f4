import Workbench.CommandLine.Invocation
import Workbench.Files.Snapshot
import Workbench.Server.Surface
import Workbench.Tool.Document

/-!
# Programs

Two programs run from the command line.  The server either ends at once or waits for a client on a
host; the other program writes the document of the tools.
-/

namespace Workbench

/-- How a program ends. -/
structure ProgramEnd where
  disk : Disk
  exitCode : Nat
  output : String
  errorOutput : String
  deriving Repr

/-- What a program comes to when it is started. -/
inductive Program where
  | ended (how : ProgramEnd)
  /-- The server waits for requests. -/
  | serving (host : Host Workspace Disk)

namespace ProgramEnd

/-- The program did what it was to do. -/
def success (disk : Disk) (output : String) : ProgramEnd := ⟨disk, 0, output, ""⟩

/-- The words of the command line are wrong. -/
def misuse (disk : Disk) : ProgramEnd := ⟨disk, 2, "", ""⟩

/-- The program failed, for a reason that may itself have one. -/
def failure (disk : Disk) (message : String) (source : Option String) : ProgramEnd :=
  let cause :=
    match source with
    | some s => "\n\nCaused by:\n    " ++ s
    | none => ""
  ⟨disk, 1, "", "Error: " ++ message ++ cause ++ "\n"⟩

/-- There are no settings. -/
def ofConfigError (disk : Disk) (e : ConfigError) : ProgramEnd := failure disk e.message e.source?

end ProgramEnd

namespace Program

/-! ## 1. The server -/

/-- The project at a path and its blocks, on a workspace of its own. -/
def report (disk : Disk) (path : Path) (name : Option String) (now : Timestamp) :
    Disk × Except ToolError Json :=
  let opened := Workspace.empty.openProject disk path name
  match opened.result with
  | .error e => (opened.disk, .error e)
  | .ok info =>
    let w := opened.workspace
    match w.listBlocks opened.disk with
    | .error e => (opened.disk, .error e)
    | .ok blocks =>
      let closed := w.closeProject opened.disk now false
      match closed.result with
      | .error e => (closed.disk, .error e)
      | .ok _ =>
        (closed.disk, .ok (Json.object
          [("project", encode info), ("blocks", .arr (blocks.map encode))]))

/-- Prints the project at a path. -/
def probe (disk : Disk) (path : String) (name : Option String) (now : Timestamp) : ProgramEnd :=
  match report disk (disk.expandHome path) name now with
  | (disk, .ok j) => .success disk (j.pretty ++ "\n")
  | (disk, .error e) => .failure disk ("probe failed: " ++ e.message) none

/-- A host for the settings, with its patrol. -/
def host (c : Config) (disk : Disk) (ids : Nat → String) (now : Nat) : Host Workspace Disk :=
  let engine := Engine.start (.ofConfig c.session) (.ofSeconds c.session.callTimeoutSecs) ids now
  (Host.start engine Workspace.backend ⟨c.exportPath, disk.home⟩ disk).startPatrol

/-- What the server does with its settings; flags count before the document. -/
def withConfig (c : Config) (disk : Disk) (ids : Nat → String) (now : Nat) : Command → Program
  | .probe path name => ended (probe disk path name (.ofNanos now))
  | .serve flags =>
    match (c.withFlags flags).validate with
    | .error e => ended (.ofConfigError disk e)
    | .ok () => serving (host (c.withFlags flags) disk ids now)

/-- Starts the server.  The settings are read before the command is looked at. -/
def start (words : List String) (fallback : Option String) (disk : Disk) (ids : Nat → String)
    (now : Nat) : Program :=
  match Invocation.read fallback words with
  | .fault => ended (.misuse disk)
  | .help => ended (.success disk "")
  | .version => ended (.success disk (Server.name ++ " " ++ Server.version ++ "\n"))
  | .run config command =>
    match Config.load disk (config.map Path.ofString) with
    | .error e => ended (.ofConfigError disk e)
    | .ok c => withConfig c disk ids now command

/-- The places that the sessions may look at without being told: the directories of their projects,
and where blocks are exported to. -/
def places (h : Host Workspace Disk) : List Key :=
  let projects := h.engine.registry.sessions.filterMap fun s =>
    s.worker.phase.resource?.bind fun w => w.project.map (·.dir)
  (h.context.exportDir :: projects).map h.surroundings.plainKey

/-- How the server ends when its client leaves without having introduced itself. -/
def abandoned (h : Host Workspace Disk) : ProgramEnd :=
  .failure h.surroundings "connection closed: initialized request" none

/-- How the server ends when its client leaves: all sessions are closed. -/
def leave (h : Host Workspace Disk) : ProgramEnd :=
  .success (h.serve .stop true).1.surroundings ""

/-! ## 2. The document of the tools -/

/-- Writes the document to the file that the first word names, or prints it. -/
def writeDocument (words : List String) (disk : Disk) : ProgramEnd :=
  match words with
  | [] => .success disk Tool.document
  | file :: _ =>
    match disk.writeFile (.ofString file) Tool.document with
    | .ok disk => .success disk ""
    | .error fault =>
      ⟨disk, 1, "", "failed to write " ++ file ++ ": " ++ fault.message ++ "\n"⟩

end Program
end Workbench
