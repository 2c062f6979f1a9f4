import Workbench.Config.Basic
import Workbench.Files.Disk
import Workbench.Shape.Encode
import Workbench.Shape.Text
import Workbench.Text.Letters

/-!
# Reading the settings

`Config.parse` reads a document; `Config.load` finds it on the disk; `Config.withFlags` lays what
the command line sets over it.  No settings come out in which a limit that must not be zero is zero.
-/

namespace Workbench

/-- Why there are no settings. -/
inductive ConfigError where
  | read (path : Path) (fault : FileFault)
  /-- The document, and what is wrong with it. -/
  | parse (path : Path) (document : String) (fault : Json.Fault)
  | invalid (reason : String)
  deriving Repr

namespace ConfigError

/-- What a failure to read or parse comes from. -/
def source? : ConfigError → Option String
  | read _ fault => some fault.message
  | parse _ document fault => some (fault.message document.toList)
  | invalid _ => none

/-- The wording of an error. -/
def message : ConfigError → String
  | read path fault => "Failed to read config " ++ path.text ++ ": " ++ fault.message
  | parse path document fault =>
    "Failed to parse config " ++ path.text ++ ": " ++ fault.message document.toList
  | invalid reason => "Invalid config: " ++ reason

end ConfigError

/-- The settings that the command line gives. -/
structure ServeFlags where
  maxSessions : Option Nat
  idleTimeoutSecs : Option Nat
  sweepIntervalSecs : Option Nat
  callTimeoutSecs : Option Nat
  deriving DecidableEq, Repr

namespace ServeFlags

/-- No flag is given. -/
def none : ServeFlags := ⟨.none, .none, .none, .none⟩

end ServeFlags

namespace Config

/-! ## 1. Documents -/

/-- The settings of a document. -/
def ofFile (home : Option String) (f : ConfigFile) : Config :=
  let logging := (f.logging <|> f.settings.bind (·.logging)).getD LoggingConfig.standard
  let session := (f.session <|> f.settings.bind (·.session)).getD SessionConfig.standard
  let nestedPath := (f.paths.bind (·.projectDefaults)).bind (·.exportPath)
  let path := ((f.exportPath <|> nestedPath).map (Path.expandHome home)).getD standardExportPath
  ⟨session, path, ⟨Text.asciiLower logging.level⟩⟩

/-- The limits that must not be zero are not. -/
def validate (c : Config) : Except ConfigError Unit :=
  if c.session.maxConcurrent == 0 then
    .error (.invalid "session.max_concurrent must be at least 1")
  else if c.session.sweepIntervalSecs == 0 then
    .error (.invalid "session.sweep_interval_secs must be at least 1")
  else if c.session.callTimeoutSecs == 0 then
    .error (.invalid "session.call_timeout_secs must be at least 1")
  else .ok ()

/-- The settings of a document that lies at a path. -/
def parseAt (path : Path) (home : Option String) (document : String) :
    Except ConfigError Config :=
  match readText ConfigFile document with
  | .error fault => .error (.parse path document fault)
  | .ok file =>
    match (ofFile home file).validate with
    | .error e => .error e
    | .ok () => .ok (ofFile home file)

/-- The settings of a document. -/
def parse (home : Option String) (document : String) : Except ConfigError Config :=
  parseAt .empty home document

/-- The document that is looked for in the working directory. -/
def defaultFile : Path := .ofString "tia_portal_mcp.json"

/-- The settings of the document at a path, or of the one in the working directory, or those that
hold where nothing is set.  A document whose path is given must be there. -/
def load (disk : Disk) (path : Option Path) : Except ConfigError Config :=
  let file :=
    match path with
    | some p => some p
    | none => if disk.isFile defaultFile then some defaultFile else none
  match file with
  | none => .ok standard
  | some p =>
    match disk.readFile p with
    | .error fault => .error (.read p fault)
    | .ok document => parseAt p disk.home document

/-! ## 2. Flags -/

/-- The settings with those of the command line over them. -/
def withFlags (c : Config) (flags : ServeFlags) : Config :=
  { c with session :=
    { c.session with
      maxConcurrent := flags.maxSessions.getD c.session.maxConcurrent
      idleTimeoutSecs := flags.idleTimeoutSecs.getD c.session.idleTimeoutSecs
      sweepIntervalSecs := flags.sweepIntervalSecs.getD c.session.sweepIntervalSecs
      callTimeoutSecs := flags.callTimeoutSecs.getD c.session.callTimeoutSecs } }

/-! ## 3. Writing -/

/-- The settings as a document in the flat layout. -/
def document (c : Config) : Json :=
  Json.object [("session", encode c.session), ("export_path", .str c.exportPath.text),
    ("logging", encode c.logging)]

end Config
end Workbench
