import Workbench.Server.Surface

/-!
# Requests of clients

A client sends a method with parameters and gets a result or a fault.  A method that the server does
not have and parameters that do not fit the method are refused in the same way.

* `ClientRequest.ofMethod` reads a request, and `ClientRequest.answer` answers it on a host;
* `ClientMessage` is the frame in which requests and answers travel.
-/

namespace Workbench

/-- What a client can ask for. -/
inductive ClientRequest where
  | listTools
  | callTool (c : Call)
  /-- A call that is to run on while the client goes about something else. -/
  | callInBackground (c : Call)
  | listResources
  | listResourceTemplates
  | readResource (uri : String)
  | listPrompts
  | ping
  | other (method : String)
  deriving DecidableEq, Repr

/-- Why a request has no result. -/
inductive ClientFault where
  | unknownMethod (method : String)
  | unknownResource (uri : String)
  | noBackground
  deriving DecidableEq, Repr

namespace ClientFault

/-- The number of a fault. -/
def code : ClientFault → Int
  | unknownMethod _ => -32601
  | unknownResource _ => -32002
  | noBackground => -32603

/-- The wording of a fault. -/
def message : ClientFault → String
  | unknownMethod method => method
  | unknownResource uri => "Unknown resource: " ++ uri
  | noBackground => "Task processing not implemented"

/-- A fault as it is sent. -/
def json (f : ClientFault) : Json :=
  Json.object [("code", .int f.code), ("message", .str f.message)]

end ClientFault

namespace ClientRequest

/-- The object that a member of parameters holds, if it is not left out; nothing if the member holds
anything else. -/
def object? (params : Json) (key : String) : Option (Option (List (String × Json))) :=
  match params.get? key with
  | none => some none
  | some .null => some none
  | some (.obj members) => some (some members)
  | some _ => none

/-- Whether parameters fit a listing.  They may be left out; otherwise they are an object.  Lists
are sent as a whole, so a place to go on from says nothing. -/
def fitsListing (params : Json) : Bool :=
  match params with
  | .null => true
  | .obj _ => (object? params "_meta").isSome
  | _ => false

/-- The call that parameters ask for, and whether it is to run in the background.  Arguments may be
left out. -/
def callOf? (params : Json) : Option (Call × Bool) :=
  match (params.get? "name").bind Json.str?, object? params "arguments", object? params "task",
      object? params "_meta" with
  | some name, some members, some task, some _ => some (⟨name, .obj (members.getD [])⟩, task.isSome)
  | _, _, _, _ => none

/-- The resource that parameters ask for. -/
def resourceOf? (params : Json) : Option String :=
  if (object? params "_meta").isSome then (params.get? "uri").bind Json.str? else none

/-- The request that a method and its parameters make. -/
def ofMethod (method : String) (params : Json) : ClientRequest :=
  let listing (request : ClientRequest) := if fitsListing params then request else other method
  if method == "tools/list" then listing listTools
  else if method == "resources/list" then listing listResources
  else if method == "resources/templates/list" then listing listResourceTemplates
  else if method == "prompts/list" then listing listPrompts
  else if method == "ping" then ping
  else if method == "tools/call" then
    match callOf? params with
    | some (c, inBackground) => if inBackground then callInBackground c else callTool c
    | none => other method
  else if method == "resources/read" then
    match resourceOf? params with
    | some uri => readResource uri
    | none => other method
  else other method

variable {ρ σ : Type}

/-- The host after a request, and what is sent back; nothing if the request waits in vain. -/
def answer (h : Host ρ σ) : ClientRequest → Host ρ σ × Option (Except ClientFault Json)
  | listTools => (h, some (.ok (Json.object [("tools", .arr Server.tools)])))
  | listResources => (h, some (.ok (Json.object [("resources", .arr Server.resources)])))
  | listResourceTemplates => (h, some (.ok (Json.object [("resourceTemplates", .arr [])])))
  | listPrompts => (h, some (.ok (Json.object [("prompts", .arr [])])))
  | ping => (h, some (.ok (.obj [])))
  | readResource uri =>
    match Server.resource? h uri with
    | none => (h, some (.error (.unknownResource uri)))
    | some body =>
      (h, some (.ok (Json.object
        [("contents", .arr [Json.object
          [("uri", .str uri), ("mimeType", .str Server.mimeType), ("text", .str body.pretty)]])])))
  | callTool c =>
    match h.serve (.call c) false with
    | (h, some (.called result)) =>
      (h, some (.ok (ResponseEnvelope.ofResult c.tool result).toolResult))
    | (h, _) => (h, none)
  | callInBackground _ => (h, some (.error .noBackground))
  | other method => (h, some (.error (.unknownMethod method)))

end ClientRequest

/-! ## Messages -/

/-- A message of a client.  One without an identifier is a notice and is not answered. -/
structure ClientMessage where
  id : Option Json
  method : String
  params : Json
  deriving DecidableEq, Repr

namespace ClientMessage

/-- The message that a JSON value is. -/
def ofJson? (j : Json) : Option ClientMessage :=
  (j.get? "method").bind Json.str? |>.map fun method =>
    ⟨j.get? "id", method, (j.get? "params").getD (.obj [])⟩

/-- The client introduces itself with this message. -/
def isIntroduction (m : ClientMessage) : Bool := m.method == "initialize"

/-- The frame of an answer. -/
def frame (id : Json) (member : String) (body : Json) : Json :=
  Json.object [("jsonrpc", .str "2.0"), ("id", id), (member, body)]

variable {ρ σ : Type}

/-- How the server introduces itself, in the version of the exchange that the client has named. -/
def introduction (h : Host ρ σ) (params : Json) : Json :=
  Json.object
    [("protocolVersion", (params.get? "protocolVersion").getD (.str "2025-03-26")),
      ("capabilities", Server.capabilities),
      ("serverInfo", Json.object [("name", .str Server.name), ("version", .str Server.version)]),
      ("instructions", .str (Server.instructions h.engine.registry.settings.maxConcurrent))]

/-- The host after a message, and the answer. -/
def answer (h : Host ρ σ) (m : ClientMessage) : Host ρ σ × Option Json :=
  match m.id with
  | none => (h, none)
  | some id =>
    if m.isIntroduction then (h, some (frame id "result" (introduction h m.params)))
    else
      match (ClientRequest.ofMethod m.method m.params).answer h with
      | (h, some (.ok body)) => (h, some (frame id "result" body))
      | (h, some (.error fault)) => (h, some (frame id "error" fault.json))
      | (h, none) => (h, none)

end ClientMessage
end Workbench
