import Workbench.Task.Close
import Workbench.Task.Create
import Workbench.Tool.Catalog

/-!
# Calls

A call names a tool and brings its arguments.  What a tool needs is looked at before anything is
queued; a tool that works on the resource is queued for the worker of its session and awaited for a
limited time.

* `Call.sessionId` and `Call.timeout` are what a call asks for, read from its raw arguments;
* `CallStage.step` carries a call out, and `CallStage.expire?` gives up waiting for the worker: the
  job goes on, and the session is suspect from then on.

A call that finds its worker faulted closes the session before it answers.
-/

namespace Workbench

/-! ## 1. What a call asks for -/

/-- A call of a tool. -/
structure Call where
  tool : String
  arguments : Json
  deriving DecidableEq, Repr

namespace Call

/-- The longest time that a call may ask for, in seconds. -/
def maxTimeoutSecs : Nat := 600

/-- The session that a call is for, under either of its names; the first name counts where both are
there. -/
def sessionId (arguments : Json) : Except ToolError String :=
  match ((arguments.get? "session_id").or (arguments.get? "sessionId")).bind Json.str? with
  | some id => .ok id
  | none => .error (.sessionNotFound "<missing session_id>")

/-- How long a call waits: the time it asks for within limits, or the standard time. -/
def timeout (standard : Duration) (arguments : Json) : Duration :=
  match (arguments.get? "timeout_secs").bind Json.nat? with
  | some secs => .ofSeconds (max 1 (min maxTimeoutSecs secs))
  | none => standard

/-- The metadata for a new session. -/
def metadata (arguments : Json) : Except ToolError (List (String × Json)) :=
  match Tool.parseArguments CreateSessionRequest arguments with
  | .error e => .error e
  | .ok r =>
    match r.metadata with
    | none => .ok []
    | some .null => .ok []
    | some (.obj members) => .ok members
    | some _ => .error (.invalidParams "metadata must be a JSON object")

/-- What is told of an ended session. -/
def endedOutput (verb id member : String) : ToolOutput :=
  ⟨verb ++ " session " ++ id,
    Json.object [("session_id", .str id), (member, .bool true)]⟩

/-- What is told of a session. -/
def infoOutput (start : String) (info : SessionInfo) : ToolOutput :=
  ⟨start ++ " " ++ info.id, encode info⟩

/-- What is told of the start of a session. -/
def created : Except SessionError SessionInfo → Except ToolError ToolOutput
  | .ok info => .ok (infoOutput "Created session" info)
  | .error e => .error e.toToolError

end Call

/-! ## 2. The stages of a call -/

/-- The stages of a call.  The name of its session is kept for the case of a fault. -/
inductive CallStage where
  | arrive
  | close (id : String) (stage : Closing)
  | terminate (id : String) (stage : Termination)
  | create (stage : Creation)
  | resolve (info : ToolInfo)
  | check (info : ToolInfo) (id : String) (seat : Nat)
  | enter (info : ToolInfo) (id : String) (seat : Nat)
  | await (id : String) (seat ticket : Nat) (limit : Duration)
  /-- The worker has faulted. -/
  | closeFaulted (id : String) (stage : Closing)
  deriving DecidableEq, Repr

namespace CallStage

variable {ρ : Type}

/-- The end of a call. -/
abbrev Result := Except ToolError ToolOutput

/-- How a call goes on when the worker did not do its job. -/
def ofWorkerError (r : Registry ρ) (id : String) : WorkerError →
    Progress (Registry ρ) CallStage Result
  | .faulted => .next r (closeFaulted id .lookup)
  | e => .done r (.error e.toToolError)

/-- A call whose tool is known: closing and terminating do without a live session. -/
def dispatch (r : Registry ρ) (info : ToolInfo) (arguments : Json) :
    Progress (Registry ρ) CallStage Result :=
  if info.name == "close_session" then
    match Call.sessionId arguments with
    | .error e => .done r (.error e)
    | .ok id => .next r (close id .lookup)
  else if info.name == "terminate_session" then
    match Call.sessionId arguments with
    | .error e => .done r (.error e)
    | .ok id => .next r (terminate id .lookup)
  else if info.precondition != .none then .next r (resolve info)
  else if info.name == "create_session" then
    match Call.metadata arguments with
    | .error e => .done r (.error e)
    | .ok metadata => .next r (create (.enter metadata))
  else if info.name == "list_sessions" then
    .done r (.ok ⟨toString r.listed.length ++ " sessions", r.overview⟩)
  else if info.name == "tool_catalog" then .done r (Tool.catalog arguments)
  else if info.name == "tool_help" then .done r (Tool.help arguments)
  else .done r (.error (.unknownTool info.name))

/-- A call that has found its session: a snapshot is answered at once, anything else is queued. -/
def queueJob (r : Registry ρ) (standard : Duration) (info : ToolInfo) (arguments : Json)
    (id : String) (seat : Nat) (s : Session ρ) : Progress (Registry ρ) CallStage Result :=
  if info.name == "session_info" then
    .done r (.ok (Call.infoOutput "Session" (s.info r.now)))
  else
    match Tool.planner? info.name with
    | none => .done r (.error (.unknownTool info.name))
    | some _ =>
      match s.worker.submit true (.tool info arguments) with
      | (_, .error e) => ofWorkerError r id e
      | (w, .ok ticket) =>
        .next (r.put seat { s with worker := w })
          (await id seat ticket (Call.timeout standard arguments))

/-- A step of a call. -/
def step (r : Registry ρ) (standard : Duration) (c : Call) (stage : CallStage) :
    Progress (Registry ρ) CallStage Result :=
  match stage with
  | arrive =>
    match Tool.find? c.tool with
    | none => .done r (.error (.unknownTool c.tool))
    | some info => dispatch r info c.arguments
  | close id stage =>
    (stage.step r id).lastly (close id) fun
      | .ok () => .ok (Call.endedOutput "Closed" id "closed")
      | .error e => .error e.toToolError
  | terminate id stage =>
    (stage.step r id).lastly (terminate id) fun
      | .ok () => .ok (Call.endedOutput "Terminated" id "terminated")
      | .error e => .error e.toToolError
  | create stage =>
    (stage.step r).lastly create Call.created
  | resolve info =>
    match Call.sessionId c.arguments with
    | .error e => .done r (.error e)
    | .ok id =>
      match r.live? id with
      | none => .done r (.error (.sessionNotFound id))
      | some seat => .next r (check info id seat)
  | check info id seat =>
    match r.session? seat with
    | none => .done r (.error (.sessionNotFound id))
    | some s =>
      if info.precondition == .sessionAndResource && s.state != .resourceAttached then
        .done r (.error (.preconditionNotMet
          (info.name ++ " requires an open project, but session " ++ id ++ " has none")))
      else .next r (enter info id seat)
  | enter info id seat =>
    match r.session? seat with
    | none => .done r (.error (.sessionNotFound id))
    | some s => queueJob r standard info c.arguments id seat s
  | await id seat ticket _ =>
    match r.session? seat with
    | none => .done r (.error (.sessionNotFound id))
    | some s =>
      match s.worker.outcome? ticket with
      | none => .wait
      | some (.ok answer) => .done r answer
      | some (.error e) => ofWorkerError r id e
  | closeFaulted id stage =>
    (stage.step r id).lastly (closeFaulted id) fun _ => .error .workerFaulted

/-- How a call goes on when its time is up, where it waits for a limited time. -/
def expire? (r : Registry ρ) (stage : CallStage) :
    Option (Progress (Registry ρ) CallStage Result) :=
  match stage with
  | await _ seat ticket limit =>
    match r.session? seat with
    | none => none
    | some s =>
      match s.worker.outcome? ticket with
      | some _ => none
      | none => some (.done (r.put seat s.markSuspect) (.error (.timeout limit)))
  | close id stage => stage.expire?.map fun stage => .next r (close id stage)
  | closeFaulted id stage => stage.expire?.map fun stage => .next r (closeFaulted id stage)
  | _ => none

/-- The end of a call that starts a session, if no worker can be started for it. -/
def refuse? (r : Registry ρ) (reason : String) :
    CallStage → Option (Progress (Registry ρ) CallStage Result)
  | create stage => (stage.refuse? r reason).map fun p => p.lastly create Call.created
  | _ => none

/-- For how long a call waits at this stage, where it does so for a limited time; `release` is the
limit of a release. -/
def limit? (release : Duration) : CallStage → Option Duration
  | await _ _ _ limit => some limit
  | close _ stage => if stage.isWaiting then some release else none
  | closeFaulted _ stage => if stage.isWaiting then some release else none
  | _ => none

end CallStage
end Workbench
