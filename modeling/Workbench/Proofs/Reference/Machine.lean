import Workbench.Proofs.Project.Opening
import Workbench.Proofs.Project.Times
import Workbench.Task.Call

/-!
# The reference machine

What calls come to, told without workers, queues and waits: there is one workspace for every live
session, all of them on one disk, and a call is carried out at once.

* `Reference` is the machine, `Reference.serve` carries a call out, and `Reference.serveAll` a list
  of calls, one after the other;
* the machine has no clock: where a time is asked for, it is always the same one
  (`Reference.moment`), so its answers count up to times (`SameButTimes`);
* answers are compared as they are before they are put into envelopes, which add nothing to them but
  the name of the tool (`ResponseEnvelope.ofResult`).
-/

namespace Workbench

/-! ## 1. Answers apart from times -/

/-- The time of everything that happens in the machine. -/
def Reference.moment : Timestamp := .ofNanos 0

/-- A snapshot with its times left blank. -/
def SessionInfo.timeless (i : SessionInfo) : SessionInfo :=
  { i with
    createdAt := Reference.moment, lastActivity := Reference.moment, ageSecs := 0, idleSecs := 0 }

/-- The statistics of listed sessions. -/
def SessionStats.ofInfos (settings : SessionSettings) (infos : List SessionInfo) :
    SessionStats where
  totalSessions := infos.length
  created := infos.countP (·.state == .created)
  resourceAttached := infos.countP (·.state == .resourceAttached)
  closing := infos.countP (·.state == .closed)
  suspect := infos.countP (·.suspect)
  maxConcurrent := settings.maxConcurrent
  idleTimeoutSecs := settings.idleTimeout.seconds

/-- What is told of all sessions. -/
def Call.listing (infos : List SessionInfo) (stats : SessionStats) : ToolOutput :=
  ⟨toString infos.length ++ " sessions",
    Json.object
      [("count", .nat infos.length), ("sessions", .arr (infos.map encode)), ("stats", stats.json)]⟩

/-- **The same answer apart from times.**  Only snapshots of sessions tell times. -/
inductive SameButTimes : CallStage.Result → CallStage.Result → Prop where
  | same (answer : CallStage.Result) : SameButTimes answer answer
  | info (start : String) {i j : SessionInfo} (h : i.timeless = j.timeless) :
      SameButTimes (.ok (Call.infoOutput start i)) (.ok (Call.infoOutput start j))
  | listing (stats : SessionStats) {infos infos' : List SessionInfo}
      (h : infos.map (·.timeless) = infos'.map (·.timeless)) :
      SameButTimes (.ok (Call.listing infos stats)) (.ok (Call.listing infos' stats))

/-! ## 2. The machine -/

/-- What a live session has. -/
structure LiveSession where
  metadata : List (String × Json)
  workspace : Workspace

/-- A session that was started: its identifier, and what it has as long as it is live. -/
structure Seat where
  id : String
  live : Option LiveSession

/-- The machine. -/
structure Reference where
  settings : SessionSettings
  context : PlanContext
  /-- The identifiers of the sessions, in the order of their starts. -/
  ids : Nat → String
  /-- All sessions that were started, also those that are over. -/
  seats : List Seat
  disk : Disk

/-- A live session, as a snapshot shows it. -/
def LiveSession.info (x : LiveSession) (id : String) : SessionInfo where
  id := id
  state := if x.workspace.project.isSome then .resourceAttached else .created
  attached := x.workspace.project.map (·.name)
  createdAt := Reference.moment
  lastActivity := Reference.moment
  ageSecs := 0
  idleSecs := 0
  suspect := false
  pendingOperations := 0
  metadata := x.metadata

namespace Reference

/-- A machine on which no session was started yet. -/
def start (settings : SessionSettings) (context : PlanContext) (ids : Nat → String)
    (disk : Disk) : Reference :=
  ⟨settings, context, ids, [], disk⟩

/-- The seat of the session with an identifier, live or over. -/
def seat? (m : Reference) (id : String) : Option Nat := m.seats.findIdx? (·.id == id)

/-- What the session at a seat has, as long as it is live. -/
def live? (m : Reference) (k : Nat) : Option LiveSession := (m.seats[k]?).bind (·.live)

/-- The live sessions. -/
def infos (m : Reference) : List SessionInfo :=
  m.seats.filterMap fun y => y.live.map fun x => x.info y.id

/-- The machine with another state of the session at a seat, and another disk. -/
def put (m : Reference) (k : Nat) (x : Option LiveSession) (disk : Disk) : Reference :=
  { m with seats := m.seats.modify k fun y => { y with live := x }, disk := disk }

/-! ## 3. Calls -/

/-- A fresh workspace is added, unless as many sessions are live as may be. -/
def create (m : Reference) (metadata : List (String × Json)) : Reference × CallStage.Result :=
  if m.settings.maxConcurrent ≤ m.infos.length then
    (m, .error (.capacityExceeded m.settings.maxConcurrent))
  else
    let id := m.ids m.seats.length
    let x : LiveSession := ⟨metadata, .empty⟩
    ({ m with seats := m.seats ++ [⟨id, some x⟩] },
      .ok (Call.infoOutput "Created session" (x.info id)))

/-- The workspace of a live session is released, whatever comes of it, and forgotten. -/
def release (m : Reference) (k : Nat) : Reference :=
  match m.live? k with
  | none => m
  | some x => m.put k none (x.workspace.release m.disk moment).disk

/-- A session is ended; one that is over stays so. -/
def finish (m : Reference) (verb member id : String) : Reference × CallStage.Result :=
  match m.seat? id with
  | none => (m, .error (.sessionNotFound id))
  | some k => (m.release k, .ok (Call.endedOutput verb id member))

/-- The handler of a tool is applied to the workspace of a session. -/
def perform (m : Reference) (info : ToolInfo) (arguments : Json) (k : Nat) (x : LiveSession) :
    Reference × CallStage.Result :=
  let o := x.workspace.carryOut m.context m.disk moment (.tool info arguments)
  (m.put k (some { x with workspace := o.workspace }) o.disk, o.result)

/-- A tool is called on a live session that has what the tool requires. -/
def use (m : Reference) (info : ToolInfo) (arguments : Json) (id : String) (k : Nat)
    (x : LiveSession) : Reference × CallStage.Result :=
  if info.name == "session_info" then (m, .ok (Call.infoOutput "Session" (x.info id)))
  else m.perform info arguments k x

/-- A tool is called on a live session. -/
def attend (m : Reference) (info : ToolInfo) (arguments : Json) (id : String) (k : Nat)
    (x : LiveSession) : Reference × CallStage.Result :=
  if info.precondition == .sessionAndResource && x.workspace.project.isNone then
    (m, .error (.preconditionNotMet
      (info.name ++ " requires an open project, but session " ++ id ++ " has none")))
  else m.use info arguments id k x

/-- A tool is called on a session, which must be live. -/
def callOn (m : Reference) (info : ToolInfo) (arguments : Json) (id : String) :
    Reference × CallStage.Result :=
  match m.seat? id with
  | none => (m, .error (.sessionNotFound id))
  | some k =>
    match m.live? k with
    | none => (m, .error (.sessionNotFound id))
    | some x => m.attend info arguments id k x

/-- A call for the session that its arguments name. -/
def named (m : Reference) (arguments : Json) (f : String → Reference × CallStage.Result) :
    Reference × CallStage.Result :=
  match Call.sessionId arguments with
  | .error e => (m, .error e)
  | .ok id => f id

/-- A call of a tool of the table. -/
def serveTool (m : Reference) (info : ToolInfo) (arguments : Json) :
    Reference × CallStage.Result :=
  if info.name == "close_session" then m.named arguments (m.finish "Closed" "closed")
  else if info.name == "terminate_session" then
    m.named arguments (m.finish "Terminated" "terminated")
  else if info.precondition != .none then m.named arguments (m.callOn info arguments)
  else if info.name == "create_session" then
    match Call.metadata arguments with
    | .error e => (m, .error e)
    | .ok metadata => m.create metadata
  else if info.name == "list_sessions" then
    (m, .ok (Call.listing m.infos (.ofInfos m.settings m.infos)))
  else if info.name == "tool_catalog" then (m, Tool.catalog arguments)
  else if info.name == "tool_help" then (m, Tool.help arguments)
  else (m, .error (.unknownTool info.name))

/-- The machine after a call, and the answer. -/
def serve (m : Reference) (c : Call) : Reference × CallStage.Result :=
  match Tool.find? c.tool with
  | none => (m, .error (.unknownTool c.tool))
  | some info => m.serveTool info c.arguments

/-- The machine after a list of calls, and the answers. -/
def serveAll (m : Reference) : List Call → Reference × List CallStage.Result
  | [] => (m, [])
  | c :: rest =>
    let (next, answer) := m.serve c
    let (last, answers) := next.serveAll rest
    (last, answer :: answers)

/-! ## 4. The surroundings of plans -/

theorem release_context (m : Reference) (k : Nat) : (m.release k).context = m.context := by
  unfold release
  split <;> rfl

theorem finish_context (m : Reference) (verb member id : String) :
    (m.finish verb member id).1.context = m.context := by
  unfold finish
  split
  · rfl
  · exact m.release_context _

theorem callOn_context (m : Reference) (info : ToolInfo) (arguments : Json) (id : String) :
    (m.callOn info arguments id).1.context = m.context := by
  unfold callOn attend use
  split
  · rfl
  · split
    · rfl
    · split
      · rfl
      · split <;> rfl

theorem named_context {m : Reference} {f : String → Reference × CallStage.Result}
    (hf : ∀ id, (f id).1.context = m.context) (arguments : Json) :
    (m.named arguments f).1.context = m.context := by
  unfold named
  split
  · rfl
  · exact hf _

/-- No call changes the surroundings in which plans are made. -/
theorem serve_context (m : Reference) (c : Call) : (m.serve c).1.context = m.context := by
  unfold serve
  split
  · rfl
  · unfold serveTool
    split
    · exact named_context (m.finish_context _ _) _
    · split
      · exact named_context (m.finish_context _ _) _
      · split
        · exact named_context (m.callOn_context _ _) _
        · split
          · split
            · rfl
            · unfold create
              split <;> rfl
          · split
            · rfl
            · split
              · rfl
              · split <;> rfl

end Reference
end Workbench
