import Workbench.Shape.Basic

/-!
# Session snapshots

The states of a session's life and the snapshot of a session that listings and answers show.
-/

namespace Workbench

/-- The states of a session's life. -/
inductive SessionState where
  /-- The worker is up and no project is attached. -/
  | created
  /-- A project is open on the worker. -/
  | resourceAttached
  /-- No further operation is taken. -/
  | closed
  deriving DecidableEq, Repr, Inhabited

namespace SessionState

/-- The names of the states. -/
def names : List String := ["created", "resource_attached", "closed"]

/-- The place of a state among the names. -/
def index : SessionState → Fin 3
  | created => 0
  | resourceAttached => 1
  | closed => 2

/-- The state at a place. -/
def ofIndex : Fin 3 → SessionState
  | 0 => created
  | 1 => resourceAttached
  | 2 => closed

@[simp] theorem ofIndex_index (s : SessionState) : ofIndex s.index = s := by
  cases s <;> rfl

@[simp] theorem index_ofIndex : ∀ i : Fin 3, (ofIndex i).index = i := by decide

/-- The name of a state. -/
def name (s : SessionState) : String := names.get s.index

instance : Shaped SessionState where
  shape := .choice names
  toValue := index
  ofValue := ofIndex
  ofValue_toValue := ofIndex_index
  toValue_ofValue := index_ofIndex

end SessionState

/-- A session at one moment. -/
structure SessionInfo where
  id : String
  state : SessionState
  /-- The name of the attached project, if there is one. -/
  attached : Option String
  createdAt : Timestamp
  /-- When an operation last ended. -/
  lastActivity : Timestamp
  ageSecs : Nat
  idleSecs : Nat
  /-- A call timed out and its operation may still be running. -/
  suspect : Bool
  /-- The operations that wait, without the one that is running. -/
  pendingOperations : Nat
  metadata : List (String × Json)
  deriving Repr

instance : Shaped SessionInfo where
  shape := .record "SessionInfo" (.ofList
    [(.plain "id", .text), (.plain "state", Shaped.shape SessionState),
      (.omitted "attached", .option .text), (.plain "created_at", .time),
      (.plain "last_activity", .time), (.plain "age_secs", .natural .plain),
      (.plain "idle_secs", .natural .plain), (.plain "suspect", .flag),
      (.plain "pending_operations", .natural .size),
      (.withDefault "metadata" (.obj []), .object)])
  toValue i := (i.id, i.state.index, i.attached, i.createdAt, i.lastActivity, i.ageSecs,
    i.idleSecs, i.suspect, i.pendingOperations, i.metadata, ())
  ofValue v := ⟨v.1, SessionState.ofIndex v.2.1, v.2.2.1, v.2.2.2.1, v.2.2.2.2.1, v.2.2.2.2.2.1,
    v.2.2.2.2.2.2.1, v.2.2.2.2.2.2.2.1, v.2.2.2.2.2.2.2.2.1, v.2.2.2.2.2.2.2.2.2.1⟩
  ofValue_toValue i := by simp
  toValue_ofValue v := congrArg (fun i => (v.1, i, v.2.2)) (SessionState.index_ofIndex v.2.1)

end Workbench
