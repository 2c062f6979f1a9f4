import Workbench.Engine.Host

/-!
# What the server publishes

The server tells a client what it is for, which tools there are, and which resources can be read:
the settings in effect, and the sessions with their statistics.
-/

namespace Workbench
namespace Server

/-- The name of the server. -/
def name : String := "tia-mcp"

/-- The version of the server. -/
def version : String := "0.3.0"

/-- What the server can do: offer tools and resources. -/
def capabilities : Json := Json.object [("tools", .obj []), ("resources", .obj [])]

/-- What a client is told about the use of the server. -/
def instructions (maxSessions : Nat) : String :=
  "TIA Portal engineering server. Each session owns one engineering connection; " ++
  "calls within a session run in order, sessions run in parallel. \n\nWorkflow: \n" ++
  "1. create_session: get a session_id (at most " ++ toString maxSessions ++ " at a time) \n" ++
  "2. open_project: attach a project to the session \n" ++
  "3. list_blocks / export_blocks / import_blocks / save_project \n" ++
  "4. close_project, then close_session when done \n\n" ++
  "Every response is an envelope \x7bsuccess, message, data, error\x7d. " ++
  "Idle sessions are closed automatically. \n\nTool Categories:\n" ++
  String.intercalate "\n"
    (ToolCategory.all.map fun c => "- " ++ c.name ++ ": " ++ c.description)

/-- The tools with the schemas of their arguments. -/
def tools : List Json :=
  Tool.all.map fun t =>
    Json.object
      [("name", .str t.name), ("description", .str t.description),
        ("inputSchema", (Tool.schema? t.name).getD
          (Json.object [("type", .str "object"), ("properties", .obj [])]))]

/-! ## Resources -/

/-- The address of the settings in effect. -/
def configUri : String := "tia://config"

/-- The address of the sessions. -/
def sessionsUri : String := "tia://sessions"

/-- The form of the resources. -/
def mimeType : String := "application/json"

/-- The description of a resource. -/
def resourceEntry (uri title description : String) : Json :=
  Json.object
    [("uri", .str uri), ("name", .str title), ("description", .str description),
      ("mimeType", .str mimeType)]

/-- The resources that can be read. -/
def resources : List Json :=
  [resourceEntry configUri "Server Configuration" "Session limits, timeouts and paths in effect",
    resourceEntry sessionsUri "Sessions" "Live sessions and manager statistics"]

variable {ρ σ : Type}

/-- The settings in effect; times in whole seconds. -/
def configReport (h : Host ρ σ) : Json :=
  let settings := h.engine.registry.settings
  Json.object
    [("server_name", .str name), ("server_version", .str version),
      ("max_sessions", .nat settings.maxConcurrent),
      ("session_timeout", .nat settings.idleTimeout.seconds),
      ("sweep_interval", .nat settings.sweepInterval.seconds),
      ("release_timeout", .nat settings.releaseTimeout.seconds),
      ("max_queue_depth", .nat settings.maxQueueDepth),
      ("call_timeout", .nat h.engine.callTimeout.seconds),
      ("max_call_timeout", .nat Call.maxTimeoutSecs),
      ("export_path", .str h.context.exportDir.text)]

/-- The content of a resource, if there is one at the address. -/
def resource? (h : Host ρ σ) (uri : String) : Option Json :=
  if uri == configUri then some (configReport h)
  else if uri == sessionsUri then some h.engine.registry.overview
  else none

end Server
end Workbench
