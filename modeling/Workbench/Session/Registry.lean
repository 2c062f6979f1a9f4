import Workbench.Config.Basic
import Workbench.Session.Basic

/-!
# The registry of sessions

The registry holds the sessions and remembers for a while which ones were closed.  A session has a
seat for good, the count of sessions that were started before it; it is in the registry from its
start until it is removed or forgotten.  Sessions are listed in the order of their seats.
-/

namespace Workbench

/-- Limits and times of sessions. -/
structure SessionSettings where
  /-- The most sessions that are not closed. -/
  maxConcurrent : Nat
  /-- How long a session may be idle; zero: forever. -/
  idleTimeout : Duration
  sweepInterval : Duration
  /-- How long a close waits for the release, and then for the end of the worker. -/
  releaseTimeout : Duration
  /-- The most operations that wait in a session; zero: no limit. -/
  maxQueueDepth : Nat
  deriving DecidableEq, Repr

namespace SessionSettings

/-- The limits and times that the settings give. -/
def ofConfig (c : SessionConfig) : SessionSettings where
  maxConcurrent := c.maxConcurrent
  idleTimeout := .ofSeconds c.idleTimeoutSecs
  sweepInterval := .ofSeconds c.sweepIntervalSecs
  releaseTimeout := .ofSeconds c.releaseTimeoutSecs
  maxQueueDepth := c.maxQueueDepth

end SessionSettings

/-- How many sessions there are, and the limits that hold. -/
structure SessionStats where
  totalSessions : Nat
  created : Nat
  resourceAttached : Nat
  /-- Closed, but not yet forgotten. -/
  closing : Nat
  suspect : Nat
  maxConcurrent : Nat
  idleTimeoutSecs : Nat
  deriving DecidableEq, Repr

namespace SessionStats

/-- The statistics as they are sent. -/
def json (s : SessionStats) : Json :=
  Json.object
    [("total_sessions", .nat s.totalSessions), ("created", .nat s.created),
      ("resource_attached", .nat s.resourceAttached), ("closing", .nat s.closing),
      ("suspect", .nat s.suspect), ("max_concurrent", .nat s.maxConcurrent),
      ("idle_timeout_secs", .nat s.idleTimeoutSecs)]

end SessionStats

/-- All sessions that were ever started, those that were closed lately, and the clock. -/
structure Registry (ρ : Type) where
  settings : SessionSettings
  /-- The identifiers for the seats. -/
  ids : Nat → String
  /-- The sessions by their seats, also those that are no longer listed. -/
  sessions : List (Session ρ)
  /-- Identifiers of closed sessions, with the moments at which they were forgotten. -/
  remembered : List (String × Nat)
  now : Nat

namespace Registry

variable {ρ : Type}

/-- A registry without sessions. -/
def start (settings : SessionSettings) (ids : Nat → String) (now : Nat) : Registry ρ :=
  ⟨settings, ids, [], [], now⟩

/-! ## 1. Sessions by seat and by identifier -/

/-- The session at a seat. -/
def session? (r : Registry ρ) (seat : Nat) : Option (Session ρ) := r.sessions[seat]?

/-- The registry with another session at a seat. -/
def put (r : Registry ρ) (seat : Nat) (s : Session ρ) : Registry ρ :=
  { r with sessions := r.sessions.set seat s }

/-- The registry with a change to the session at a seat. -/
def update (r : Registry ρ) (seat : Nat) (f : Session ρ → Session ρ) : Registry ρ :=
  match r.session? seat with
  | some s => r.put seat (f s)
  | none => r

/-- A listed session has the identifier. -/
def holds (s : Session ρ) (id : String) : Bool := s.listed && s.id == id

/-- The seat of the listed session with an identifier, closed or not. -/
def seat? (r : Registry ρ) (id : String) : Option Nat := r.sessions.findIdx? (holds · id)

/-- The seat of the listed session with an identifier, unless it is closed. -/
def live? (r : Registry ρ) (id : String) : Option Nat :=
  (r.seat? id).filter fun seat =>
    match r.session? seat with
    | some s => !s.isClosed
    | none => false

/-- The seats of the listed sessions that are not closed. -/
def liveSeats (r : Registry ρ) : List Nat :=
  (List.range r.sessions.length).filter fun seat =>
    match r.session? seat with
    | some s => s.listed && !s.isClosed
    | none => false

/-- The listed sessions. -/
def listed (r : Registry ρ) : List (Session ρ) := r.sessions.filter (·.listed)

/-! ## 2. Starting and forgetting -/

/-- No further session can be started. -/
def isFull (r : Registry ρ) : Bool :=
  r.settings.maxConcurrent ≤ (r.listed.filter fun s => !s.isClosed).length

/-- The seat that the next session gets. -/
def nextSeat (r : Registry ρ) : Nat := r.sessions.length

/-- The registry with one more session. -/
def register (r : Registry ρ) (metadata : List (String × Json)) : Registry ρ :=
  { r with
    sessions := r.sessions ++
      [.create (r.ids r.nextSeat) metadata r.settings.maxQueueDepth r.now] }

/-- Takes a session off the list. -/
def remove (r : Registry ρ) (id : String) : Registry ρ :=
  { r with
    sessions := r.sessions.map fun s => if holds s id then { s with listed := false } else s }

/-- How long a closed session is remembered. -/
def retention : Duration := .ofSeconds 300

/-- Takes a session off the list and remembers that it was closed.  What was closed too long ago is
forgotten at that occasion, and not before. -/
def forget (r : Registry ρ) (id : String) : Registry ρ :=
  let kept := r.remembered.filter fun (other, moment) =>
    other != id && r.now - moment < retention.nanos
  { r.remove id with remembered := kept ++ [(id, r.now)] }

/-- The session is known to have been closed. -/
def remembers (r : Registry ρ) (id : String) : Bool :=
  r.remembered.any fun (other, _) => other == id

/-! ## 3. Reports -/

/-- The listed sessions at this moment. -/
def infos (r : Registry ρ) : List SessionInfo := r.listed.map (·.info r.now)

/-- The statistics at this moment. -/
def stats (r : Registry ρ) : SessionStats where
  totalSessions := r.listed.length
  created := r.listed.countP (·.state == .created)
  resourceAttached := r.listed.countP (·.state == .resourceAttached)
  closing := r.listed.countP (·.state == .closed)
  suspect := r.listed.countP (·.suspect)
  maxConcurrent := r.settings.maxConcurrent
  idleTimeoutSecs := r.settings.idleTimeout.seconds

/-- The listed sessions and the statistics, as they are sent. -/
def overview (r : Registry ρ) : Json :=
  Json.object
    [("count", .nat r.listed.length), ("sessions", .arr (r.infos.map encode)),
      ("stats", r.stats.json)]

end Registry
end Workbench
