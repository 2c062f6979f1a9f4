import Workbench.Shape.Basic

/-!
# The tools

Every tool, with its category, what must hold before it runs, what its success does to the session,
and its documentation.  The table is the only place that says what a tool needs.
-/

namespace Workbench

/-! ## 1. Categories and conditions -/

/-- The groups of tools. -/
inductive ToolCategory where
  | session
  | project
  | blocks
  | discovery
  deriving DecidableEq, Repr, Inhabited

namespace ToolCategory

/-- All categories, in the order in which they are shown. -/
def all : List ToolCategory := [session, project, blocks, discovery]

/-- The names of the categories. -/
def names : List String := ["session", "project", "blocks", "discovery"]

/-- The place of a category among the names. -/
def index : ToolCategory → Fin 4
  | session => 0
  | project => 1
  | blocks => 2
  | discovery => 3

/-- The category at a place. -/
def ofIndex : Fin 4 → ToolCategory
  | 0 => session
  | 1 => project
  | 2 => blocks
  | 3 => discovery

/-- The name of a category. -/
def name (c : ToolCategory) : String := names.get c.index

/-- What the tools of a category do. -/
def description : ToolCategory → String
  | session => "Create, inspect, close and terminate engineering sessions"
  | project => "Open, save, inspect and close the session's project"
  | blocks => "List, export and import PLC blocks"
  | discovery => "Find tools and read their documentation"

instance : Shaped ToolCategory where
  shape := .choice names
  toValue := index
  ofValue := ofIndex
  ofValue_toValue c := by cases c <;> rfl
  toValue_ofValue := (by decide : ∀ i : Fin 4, (ofIndex i).index = i)

end ToolCategory

/-- What must hold before a tool runs. -/
inductive Precondition where
  | none
  /-- The call names a live session. -/
  | sessionOnly
  /-- The call names a live session with a project attached. -/
  | sessionAndResource
  deriving DecidableEq, Repr, Inhabited

namespace Precondition

/-- The names of the preconditions. -/
def names : List String := ["none", "session_only", "session_and_resource"]

/-- The place of a precondition among the names. -/
def index : Precondition → Fin 3
  | none => ⟨0, by decide⟩
  | sessionOnly => ⟨1, by decide⟩
  | sessionAndResource => ⟨2, by decide⟩

/-- The precondition at a place. -/
def ofIndex : Fin 3 → Precondition
  | 0 => none
  | 1 => sessionOnly
  | 2 => sessionAndResource

/-- The name of a precondition. -/
def name (p : Precondition) : String := names.get p.index

instance : Shaped Precondition where
  shape := .choice names
  toValue := index
  ofValue := ofIndex
  ofValue_toValue p := by cases p <;> rfl
  toValue_ofValue := (by decide : ∀ i : Fin 3, (ofIndex i).index = i)

end Precondition

/-- What the success of a tool does to the state of its session. -/
inductive Transition where
  | none
  | attach
  | detach
  deriving DecidableEq, Repr, Inhabited

namespace Transition

/-- The names of the transitions. -/
def names : List String := ["none", "attach", "detach"]

/-- The place of a transition among the names. -/
def index : Transition → Fin 3
  | none => ⟨0, by decide⟩
  | attach => ⟨1, by decide⟩
  | detach => ⟨2, by decide⟩

/-- The transition at a place. -/
def ofIndex : Fin 3 → Transition
  | 0 => none
  | 1 => attach
  | 2 => detach

/-- The name of a transition. -/
def name (t : Transition) : String := names.get t.index

instance : Shaped Transition where
  shape := .choice names
  toValue := index
  ofValue := ofIndex
  ofValue_toValue t := by cases t <;> rfl
  toValue_ofValue := (by decide : ∀ i : Fin 3, (ofIndex i).index = i)

end Transition

/-- A tool. -/
structure ToolInfo where
  name : String
  category : ToolCategory
  precondition : Precondition
  onSuccess : Transition
  /-- One line, for listings. -/
  summary : String
  /-- The whole documentation. -/
  description : String
  /-- The arguments of a call, as JSON. -/
  sample : String
  keywords : List String
  deriving DecidableEq, Repr, Inhabited

/-! ## 2. The table -/

namespace Tool

/-- Start a new engineering session. -/
def createSession : ToolInfo where
  name := "create_session"
  category := .session
  precondition := .none
  onSuccess := .none
  summary := "Start a new engineering session"
  description := "Start a new session with its own dedicated worker. Every later call for this " ++
    "session runs on that worker, one at a time, in the order it was received. Optional " ++
    "metadata is stored verbatim and returned by session_info. Fails with capacity_exceeded " ++
    "when the configured session limit is reached; close an existing session first."
  sample := "\x7b\"metadata\": \x7b\"owner\": \"line-3\"\x7d\x7d"
  keywords := ["session", "create", "new", "start", "open"]

/-- List all sessions with age, idle time and state. -/
def listSessions : ToolInfo where
  name := "list_sessions"
  category := .session
  precondition := .none
  onSuccess := .none
  summary := "List all sessions with age, idle time and state"
  description := "Return a snapshot of every session: id, state, attached project, creation " ++
    "and last activity times, age and idle seconds, suspect flag, queued operations and " ++
    "metadata. Also returns aggregate statistics."
  sample := "\x7b\x7d"
  keywords := ["session", "list", "all", "status", "stats"]

/-- Show one session's state and metadata. -/
def sessionInfo : ToolInfo where
  name := "session_info"
  category := .session
  precondition := .sessionOnly
  onSuccess := .none
  summary := "Show one session's state and metadata"
  description := "Return the snapshot for one session. Does not count as activity, so it never " ++
    "delays idle eviction."
  sample := "\x7b\"session_id\": \"3f2a...\"\x7d"
  keywords := ["session", "info", "status", "details"]

/-- Close a session and release its project. -/
def closeSession : ToolInfo where
  name := "close_session"
  category := .session
  precondition := .sessionOnly
  onSuccess := .none
  summary := "Close a session and release its project"
  description := "Close a session gracefully. Queued operations finish first, then the open " ++
    "project (if any) is saved when modified and closed on the session's worker, and the " ++
    "worker stops. Closing a session that is already closing succeeds."
  sample := "\x7b\"session_id\": \"3f2a...\"\x7d"
  keywords := ["session", "close", "end", "release", "stop"]

/-- Force-remove a session without waiting for it. -/
def terminateSession : ToolInfo where
  name := "terminate_session"
  category := .session
  precondition := .sessionOnly
  onSuccess := .none
  summary := "Force-remove a session without waiting for it"
  description := "Operator path for a stuck session. The session is removed at once and its " ++
    "slot freed. Release is queued behind any running operation but not awaited; a long native " ++
    "call keeps running until it returns on its own."
  sample := "\x7b\"session_id\": \"3f2a...\"\x7d"
  keywords := ["session", "terminate", "kill", "force", "stuck"]

/-- Open a project in a session. -/
def openProject : ToolInfo where
  name := "open_project"
  category := .project
  precondition := .sessionOnly
  onSuccess := .attach
  summary := "Open a project in a session"
  description := "Open a project on the session's worker. project_path may point at an .ap* " ++
    "project file or at a directory; with a directory, project_name selects a sub-directory, " ++
    "otherwise the first .ap* file below it decides. A session holds at most one project; " ++
    "close_project first to switch."
  sample := "\x7b\"session_id\": \"3f2a...\", \"project_path\": " ++
    "\"C:/Projects/Plant/Plant.ap18\"\x7d"
  keywords := ["project", "open", "load", "ap18", "ap19"]

/-- Close the session's project. -/
def closeProject : ToolInfo where
  name := "close_project"
  category := .project
  precondition := .sessionAndResource
  onSuccess := .detach
  summary := "Close the session's project"
  description := "Close the project attached to the session. Unsaved changes are saved first " ++
    "unless save is false. The session stays open and can open another project."
  sample := "\x7b\"session_id\": \"3f2a...\", \"save\": true\x7d"
  keywords := ["project", "close", "detach"]

/-- Save the session's project. -/
def saveProject : ToolInfo where
  name := "save_project"
  category := .project
  precondition := .sessionAndResource
  onSuccess := .none
  summary := "Save the session's project"
  description := "Persist the attached project and clear its modified flag."
  sample := "\x7b\"session_id\": \"3f2a...\"\x7d"
  keywords := ["project", "save", "persist", "write"]

/-- Name, path, modified flag and block count of the project. -/
def getProjectInfo : ToolInfo where
  name := "get_project_info"
  category := .project
  precondition := .sessionAndResource
  onSuccess := .none
  summary := "Name, path, modified flag and block count of the project"
  description := "Return information about the attached project: name, store path, project " ++
    "directory, whether it has unsaved changes and how many blocks it holds."
  sample := "\x7b\"session_id\": \"3f2a...\"\x7d"
  keywords := ["project", "info", "metadata", "modified"]

/-- List PLC blocks in the project. -/
def listBlocks : ToolInfo where
  name := "list_blocks"
  category := .blocks
  precondition := .sessionAndResource
  onSuccess := .none
  summary := "List PLC blocks in the project"
  description := "List every block of the attached project with its name, type (OB, FB, FC, " ++
    "DB, UDT, SCL) and folder path. Optional block_type filters by type."
  sample := "\x7b\"session_id\": \"3f2a...\", \"block_type\": \"FB\"\x7d"
  keywords := ["blocks", "list", "plc", "ob", "fb", "fc", "db", "udt"]

/-- Export blocks to a folder. -/
def exportBlocks : ToolInfo where
  name := "export_blocks"
  category := .blocks
  precondition := .sessionAndResource
  onSuccess := .none
  summary := "Export blocks to a folder"
  description := "Export the named blocks, or all blocks when block_names is omitted, to " ++
    "output_path (defaults to the configured export directory). Returns the written files and " ++
    "per-block errors."
  sample := "\x7b\"session_id\": \"3f2a...\", \"block_names\": [\"Main\", \"Conveyor_FB\"], " ++
    "\"output_path\": \"./exports\"\x7d"
  keywords := ["blocks", "export", "xml", "scl", "backup"]

/-- Import block files into the project. -/
def importBlocks : ToolInfo where
  name := "import_blocks"
  category := .blocks
  precondition := .sessionAndResource
  onSuccess := .none
  summary := "Import block files into the project"
  description := "Import block files (.xml, .scl, .udt, .db) into the attached project, " ++
    "optionally under target_folder. Marks the project modified. Returns imported blocks and " ++
    "per-file errors."
  sample := "\x7b\"session_id\": \"3f2a...\", \"paths\": [\"./exports/Main.xml\"], " ++
    "\"target_folder\": \"Imported\"\x7d"
  keywords := ["blocks", "import", "xml", "scl", "restore"]

/-- Discover tools by query or category. -/
def toolCatalog : ToolInfo where
  name := "tool_catalog"
  category := .discovery
  precondition := .none
  onSuccess := .none
  summary := "Discover tools by query or category"
  description := "Search the tool registry by free-text query and/or category. Returns tool " ++
    "names, short descriptions, precondition and matched keywords."
  sample := "\x7b\"query\": \"export blocks\"\x7d"
  keywords := ["tools", "catalog", "discover", "search", "find"]

/-- Full documentation for one tool. -/
def toolHelp : ToolInfo where
  name := "tool_help"
  category := .discovery
  precondition := .none
  onSuccess := .none
  summary := "Full documentation for one tool"
  description := "Return the full description, example invocation, category and precondition " ++
    "for a tool."
  sample := "\x7b\"name\": \"open_project\"\x7d"
  keywords := ["help", "docs", "documentation", "usage"]

/-- All tools, in the order in which they are published. -/
def all : List ToolInfo :=
  [createSession, listSessions, sessionInfo, closeSession, terminateSession,
    openProject, closeProject, saveProject, getProjectInfo,
    listBlocks, exportBlocks, importBlocks,
    toolCatalog, toolHelp]

/-- The tool of a name. -/
def find? (name : String) : Option ToolInfo := all.find? fun t => t.name == name

/-- The tools of a category. -/
def inCategory (c : ToolCategory) : List ToolInfo := all.filter fun t => t.category == c

end Tool
end Workbench
