import Workbench.Engine.Basic

/-!
# The stages of tasks

A task goes on from stage to stage until it ends with an answer.  Here it is said once, for each
kind of task, what a step at a stage comes to: `Steps` lists the next stages, the answers and the
waits, each with what the registry must be like for it, and `steps_of_step` says that there is
nothing else.  Whatever is shown of the steps of a task is shown by cases over its `Steps`.

* the parts of a close: `Release.Steps`, `Closing.Steps`, `Termination.Steps`;
* `Creation.Steps`, `Sweep.Steps`, `Patrol.Steps` and `Shutdown.Steps`;
* `CallStage.Steps`, with one case for each reason why a call ends.
-/

namespace Workbench

variable {ρ : Type}

/-- A task waits as long as its last part does. -/
theorem Progress.lastly_eq_wait {S T U A B : Type} {p : Progress S T A} {stage : T → U}
    {answer : A → B} : p.lastly stage answer = .wait ↔ p = .wait := by
  cases p <;> simp [lastly, within]

/-! ## 1. Closing a session -/

namespace Release

/-- What a step of a release comes to. -/
inductive Steps (r : Registry ρ) (seat : Nat) :
    Release → Progress (Registry ρ) Release Unit → Prop where
  /-- There is no session. -/
  | vacant {stage : Release} (hs : r.session? seat = none) : Steps r seat stage (.done r ())
  | refused {s : Session ρ} {w : Worker ρ Job JobAnswer} {e : WorkerError}
      (hs : r.session? seat = some s) (hw : s.worker.submit false .release = (w, .error e)) :
      Steps r seat queue (.next r shutdown)
  | queued {s : Session ρ} {w : Worker ρ Job JobAnswer} {ticket : Nat}
      (hs : r.session? seat = some s) (hw : s.worker.submit false .release = (w, .ok ticket)) :
      Steps r seat queue (.next (r.put seat { s with worker := w }) (awaitAnswer ticket))
  | unanswered {s : Session ρ} {ticket : Nat} (hs : r.session? seat = some s)
      (ho : s.worker.outcome? ticket = none) : Steps r seat (awaitAnswer ticket) .wait
  | answered {s : Session ρ} {ticket : Nat} {o : Except WorkerError JobAnswer}
      (hs : r.session? seat = some s) (ho : s.worker.outcome? ticket = some o) :
      Steps r seat (awaitAnswer ticket) (.next r shutdown)
  | shutDown {s : Session ρ} (hs : r.session? seat = some s) :
      Steps r seat shutdown
        (.next (r.put seat { s with worker := s.worker.shutdown }) beginAwaitEnd)
  /-- Somebody else waits for the end. -/
  | awaited {s : Session ρ} (hs : r.session? seat = some s) (ha : s.worker.awaited = true) :
      Steps r seat beginAwaitEnd (.next r forget)
  | awaits {s : Session ρ} (hs : r.session? seat = some s) (ha : s.worker.awaited = false) :
      Steps r seat beginAwaitEnd
        (.next (r.put seat { s with worker := s.worker.awaitEnd }) awaitEnd)
  | lives {s : Session ρ} (hs : r.session? seat = some s) (he : s.worker.hasEnded = false) :
      Steps r seat awaitEnd .wait
  | ended {s : Session ρ} (hs : r.session? seat = some s) (he : s.worker.hasEnded = true) :
      Steps r seat awaitEnd (.next r forget)
  | forgotten {s : Session ρ} (hs : r.session? seat = some s) :
      Steps r seat forget (.done (r.forget s.id) ())

theorem steps_of_step {r : Registry ρ} {seat : Nat} {stage : Release}
    {p : Progress (Registry ρ) Release Unit} (h : stage.step r seat = p) :
    Steps r seat stage p := by
  subst h
  unfold step
  split
  · exact .vacant ‹_›
  · rename_i s hs
    cases stage with
    | queue =>
      simp only
      split
      · exact .refused hs ‹_›
      · exact .queued hs ‹_›
    | awaitAnswer ticket =>
      simp only
      split
      · exact .unanswered hs ‹_›
      · exact .answered hs ‹_›
    | shutdown => exact .shutDown hs
    | beginAwaitEnd =>
      simp only
      split
      · exact .awaited hs ‹_›
      · exact .awaits hs (by simpa using ‹¬ s.worker.awaited = true›)
    | awaitEnd =>
      simp only
      split
      · exact .ended hs ‹_›
      · exact .lives hs (by simpa using ‹¬ s.worker.hasEnded = true›)
    | forget => exact .forgotten hs

end Release

namespace Closing

/-- What a step of a close comes to. -/
inductive Steps (r : Registry ρ) (id : String) :
    Closing → Progress (Registry ρ) Closing (Except SessionError Unit) → Prop where
  | found {seat : Nat} (hk : r.seat? id = some seat) : Steps r id lookup (.next r (begin seat))
  | missed (hk : r.seat? id = none) : Steps r id lookup (.next r lookBack)
  | remembered (hr : r.remembers id = true) : Steps r id lookBack (.done r (.ok ()))
  | unknown (hr : r.remembers id = false) :
      Steps r id lookBack (.done r (.error (.notFound id)))
  | vacant {seat : Nat} (hs : r.session? seat = none) : Steps r id (begin seat) (.done r (.ok ()))
  /-- Somebody else has closed the session. -/
  | second {seat : Nat} {s : Session ρ} (hs : r.session? seat = some s)
      (hc : s.isClosed = true) : Steps r id (begin seat) (.done r (.ok ()))
  | won {seat : Nat} {s : Session ρ} (hs : r.session? seat = some s) (hc : s.isClosed = false) :
      Steps r id (begin seat) (.next (r.put seat s.beginClose.1) (release seat .queue))
  | waits {seat : Nat} {stage : Release} (h : stage.step r seat = .wait) :
      Steps r id (release seat stage) .wait
  | releases {seat : Nat} {stage stage' : Release} {r' : Registry ρ}
      (h : stage.step r seat = .next r' stage') :
      Steps r id (release seat stage) (.next r' (release seat stage'))
  | released {seat : Nat} {stage : Release} {r' : Registry ρ}
      (h : stage.step r seat = .done r' ()) :
      Steps r id (release seat stage) (.done r' (.ok ()))

theorem steps_of_step {r : Registry ρ} {id : String} {stage : Closing}
    {p : Progress (Registry ρ) Closing (Except SessionError Unit)} (h : stage.step r id = p) :
    Steps r id stage p := by
  subst h
  cases stage with
  | lookup =>
    simp only [step]
    split
    · exact .found ‹_›
    · exact .missed ‹_›
  | lookBack =>
    simp only [step, late]
    split
    · exact .remembered ‹_›
    · exact .unknown (by simpa using ‹¬ r.remembers id = true›)
  | begin seat =>
    simp only [step]
    split
    · exact .vacant ‹_›
    · rename_i s hs
      cases hc : s.isClosed with
      | true =>
        simp only [Session.beginClose, hc, if_true]
        exact .second hs hc
      | false =>
        have h : Steps r id (begin seat) _ := .won hs hc
        simpa only [Session.beginClose, hc, Bool.false_eq_true, if_false] using h
  | release seat stage =>
    simp only [step]
    cases h : stage.step r seat with
    | wait => exact .waits h
    | next r' stage' => exact .releases h
    | done r' a => exact .released h

end Closing

namespace Termination

/-- What a step of a termination comes to. -/
inductive Steps (r : Registry ρ) (id : String) :
    Termination → Progress (Registry ρ) Termination (Except SessionError Unit) → Prop where
  | found {seat : Nat} (hk : r.seat? id = some seat) : Steps r id lookup (.next r (begin seat))
  | missed (hk : r.seat? id = none) : Steps r id lookup (.next r lookBack)
  | remembered (hr : r.remembers id = true) : Steps r id lookBack (.done r (.ok ()))
  | unknown (hr : r.remembers id = false) :
      Steps r id lookBack (.done r (.error (.notFound id)))
  | vacant {seat : Nat} (hs : r.session? seat = none) : Steps r id (begin seat) (.done r (.ok ()))
  | closed {seat : Nat} {s : Session ρ} (hs : r.session? seat = some s) :
      Steps r id (begin seat) (.next (r.put seat s.beginClose.1) (forget seat s.beginClose.2))
  | won (seat : Nat) : Steps r id (forget seat true) (.next (r.forget id) (queue seat))
  | second (seat : Nat) : Steps r id (forget seat false) (.done (r.forget id) (.ok ()))
  | queued (seat : Nat) :
      Steps r id (queue seat)
        (.next (r.update seat fun s => { s with worker := (s.worker.submit false .release).1 })
          (shutdown seat))
  | shutDown (seat : Nat) :
      Steps r id (shutdown seat)
        (.done (r.update seat fun s => { s with worker := s.worker.shutdown }) (.ok ()))

theorem steps_of_step {r : Registry ρ} {id : String} {stage : Termination}
    {p : Progress (Registry ρ) Termination (Except SessionError Unit)} (h : stage.step r id = p) :
    Steps r id stage p := by
  subst h
  cases stage with
  | lookup =>
    simp only [step]
    split
    · exact .found ‹_›
    · exact .missed ‹_›
  | lookBack =>
    simp only [step, Closing.late]
    split
    · exact .remembered ‹_›
    · exact .unknown (by simpa using ‹¬ r.remembers id = true›)
  | begin seat =>
    simp only [step]
    split
    · exact .vacant ‹_›
    · exact .closed ‹_›
  | forget seat won =>
    cases won with
    | true => exact .won seat
    | false => exact .second seat
  | queue seat => exact .queued seat
  | shutdown seat => exact .shutDown seat

end Termination

/-! ## 2. Starting a session -/

namespace Creation

/-- What a step of a start comes to. -/
inductive Steps (r : Registry ρ) :
    Creation → Progress (Registry ρ) Creation (Except SessionError SessionInfo) → Prop where
  | full {metadata : List (String × Json)} (hf : r.isFull = true) :
      Steps r (enter metadata) (.done r (.error (.capacityExceeded r.settings.maxConcurrent)))
  | registered {metadata : List (String × Json)} (hf : r.isFull = false) :
      Steps r (enter metadata) (.next (r.register metadata) (awaitReady r.nextSeat))
  | unseated {seat : Nat} (hs : r.session? seat = none) : Steps r (awaitReady seat) .wait
  | building {seat : Nat} {s : Session ρ} (hs : r.session? seat = some s)
      (hr : s.worker.readiness = .building) : Steps r (awaitReady seat) .wait
  | ready {seat : Nat} {s : Session ρ} (hs : r.session? seat = some s)
      (hr : s.worker.readiness = .ready) :
      Steps r (awaitReady seat) (.done r (.ok (s.info r.now)))
  | failed {seat : Nat} {s : Session ρ} {reason : String} (hs : r.session? seat = some s)
      (hr : s.worker.readiness = .failed reason) :
      Steps r (awaitReady seat)
        (.next r (beginClose seat (WorkerError.initFailed reason).message))
  | closed (seat : Nat) (reason : String) :
      Steps r (beginClose seat reason)
        (.next (r.update seat (·.beginClose.1)) (shutdown seat reason))
  | shutDown (seat : Nat) (reason : String) :
      Steps r (shutdown seat reason)
        (.next (r.update seat fun s => { s with worker := s.worker.shutdown })
          (remove seat reason))
  | vacant {seat : Nat} {reason : String} (hs : r.session? seat = none) :
      Steps r (remove seat reason) (.done r (.error (.initFailed reason)))
  | removed {seat : Nat} {reason : String} {s : Session ρ} (hs : r.session? seat = some s) :
      Steps r (remove seat reason) (.done (r.remove s.id) (.error (.initFailed reason)))

theorem steps_of_step {r : Registry ρ} {stage : Creation}
    {p : Progress (Registry ρ) Creation (Except SessionError SessionInfo)}
    (h : stage.step r = p) : Steps r stage p := by
  subst h
  cases stage with
  | enter metadata =>
    simp only [step]
    split
    · exact .full ‹_›
    · exact .registered (by simpa using ‹¬ r.isFull = true›)
  | awaitReady seat =>
    simp only [step]
    split
    · exact .unseated ‹_›
    · split
      · exact .building ‹_› ‹_›
      · exact .ready ‹_› ‹_›
      · exact .failed ‹_› ‹_›
  | beginClose seat reason => exact .closed seat reason
  | shutdown seat reason => exact .shutDown seat reason
  | remove seat reason =>
    simp only [step]
    split
    · exact .removed ‹_›
    · exact .vacant ‹_›

end Creation

/-! ## 3. Sweeping, and closing all sessions -/

namespace Sweep

/-- What a step of a sweep comes to. -/
inductive Steps (r : Registry ρ) :
    Sweep → Progress (Registry ρ) Sweep (List String) → Prop where
  | scanned : Steps r scan (.next r (judge r.liveSeats []))
  | finished (closed : List String) : Steps r (judge [] closed) (.done r closed)
  | vacant {seat : Nat} {rest : List Nat} {closed : List String} (hs : r.session? seat = none) :
      Steps r (judge (seat :: rest) closed) (.next r (judge rest closed))
  | spared {seat : Nat} {rest : List Nat} {closed : List String} {s : Session ρ}
      (hs : r.session? seat = some s)
      (hd : (!s.isClosed && s.isDue r.settings.idleTimeout r.now) = false) :
      Steps r (judge (seat :: rest) closed) (.next r (judge rest closed))
  | condemned {seat : Nat} {rest : List Nat} {closed : List String} {s : Session ρ}
      (hs : r.session? seat = some s)
      (hd : (!s.isClosed && s.isDue r.settings.idleTimeout r.now) = true) :
      Steps r (judge (seat :: rest) closed)
        (.next (r.put seat s.beginClose.1) (release seat .queue rest closed))
  | vanished {seat : Nat} {rest : List Nat} {closed : List String} (hs : r.session? seat = none) :
      Steps r (weigh seat rest closed) (.next r (judge rest closed))
  | acquitted {seat : Nat} {rest : List Nat} {closed : List String} {s : Session ρ}
      (hs : r.session? seat = some s)
      (hd : (!s.isClosed && !s.worker.busy && s.isStale r.settings.idleTimeout r.now) = false) :
      Steps r (weigh seat rest closed) (.next r (judge rest closed))
  | convicted {seat : Nat} {rest : List Nat} {closed : List String} {s : Session ρ}
      (hs : r.session? seat = some s)
      (hd : (!s.isClosed && !s.worker.busy && s.isStale r.settings.idleTimeout r.now) = true) :
      Steps r (weigh seat rest closed)
        (.next (r.put seat s.beginClose.1) (release seat .queue rest closed))
  | waits {seat : Nat} {stage : Release} {rest : List Nat} {closed : List String}
      (h : stage.step r seat = .wait) : Steps r (release seat stage rest closed) .wait
  | releases {seat : Nat} {stage stage' : Release} {rest : List Nat} {closed : List String}
      {r' : Registry ρ} (h : stage.step r seat = .next r' stage') :
      Steps r (release seat stage rest closed) (.next r' (release seat stage' rest closed))
  | released {seat : Nat} {stage : Release} {rest : List Nat} {closed : List String}
      {r' : Registry ρ} {s : Session ρ} (h : stage.step r seat = .done r' ())
      (hs : r'.session? seat = some s) :
      Steps r (release seat stage rest closed) (.next r' (judge rest (closed ++ [s.id])))
  | lost {seat : Nat} {stage : Release} {rest : List Nat} {closed : List String}
      {r' : Registry ρ} (h : stage.step r seat = .done r' ()) (hs : r'.session? seat = none) :
      Steps r (release seat stage rest closed) (.next r' (judge rest closed))

theorem steps_of_step {r : Registry ρ} {stage : Sweep}
    {p : Progress (Registry ρ) Sweep (List String)} (h : stage.step r = p) :
    Steps r stage p := by
  subst h
  cases stage with
  | scan => exact .scanned
  | judge rest closed =>
    cases rest with
    | nil => exact .finished closed
    | cons seat rest =>
      simp only [step]
      split
      · exact .vacant ‹_›
      · split
        · exact .condemned ‹_› ‹_›
        · exact .spared ‹_› (Bool.not_eq_true _ |>.mp ‹_›)
  | weigh seat rest closed =>
    simp only [step]
    split
    · exact .vanished ‹_›
    · split
      · exact .convicted ‹_› ‹_›
      · exact .acquitted ‹_› (Bool.not_eq_true _ |>.mp ‹_›)
  | release seat stage rest closed =>
    simp only [step]
    cases h : stage.step r seat with
    | wait => exact .waits h
    | next r' stage' => exact .releases h
    | done r' a =>
      simp only [Progress.within]
      split
      · exact .released h ‹_›
      · exact .lost h ‹_›

/-- The detours of a sweep, each with the state in which it is possible. -/
inductive Detours (r : Registry ρ) : Sweep → Detour → Sweep → Prop where
  | ordered {seats : List Nat} (h : List.Perm seats r.liveSeats) :
      Detours r scan (.order seats) (judge seats [])
  | glanced {seat : Nat} {rest : List Nat} {closed : List String} {s : Session ρ}
      (hs : r.session? seat = some s) (ho : s.isClosed = false)
      (hf : s.worker.isFaulted = false)
      (hi : s.isStale r.settings.idleTimeout r.now = true) (hd : s.worker.seemsDrained = true) :
      Detours r (judge (seat :: rest) closed) .glance (weigh seat rest closed)

theorem detours_of_detour? {r : Registry ρ} {stage stage' : Sweep} {way : Detour}
    (h : stage.detour? r way = some stage') : Detours r stage way stage' := by
  unfold detour? at h
  split at h
  · split at h <;> cases h
    exact .ordered (List.isPerm_iff.mp ‹_›)
  · split at h
    · cases h
    · rename_i s hs
      split at h <;> cases h
      rename_i hall
      simp only [Bool.and_eq_true, Bool.not_eq_true'] at hall
      exact .glanced hs hall.1.1.1 hall.1.1.2 hall.1.2 hall.2
  · cases h

end Sweep

namespace Patrol

/-- What a step of the patrol comes to. -/
inductive Steps (r : Registry ρ) : Patrol → Progress (Registry ρ) Patrol Unit → Prop where
  | rests : Steps r resting .wait
  | waits {stage : Sweep} (h : stage.step r = .wait) : Steps r (sweeping stage) .wait
  | sweeps {stage stage' : Sweep} {r' : Registry ρ} (h : stage.step r = .next r' stage') :
      Steps r (sweeping stage) (.next r' (sweeping stage'))
  | swept {stage : Sweep} {r' : Registry ρ} {closed : List String}
      (h : stage.step r = .done r' closed) : Steps r (sweeping stage) (.next r' resting)

theorem steps_of_step {r : Registry ρ} {stage : Patrol}
    {p : Progress (Registry ρ) Patrol Unit} (h : stage.step r = p) : Steps r stage p := by
  subst h
  cases stage with
  | resting => exact .rests
  | sweeping stage =>
    simp only [step]
    cases h : stage.step r with
    | wait => exact .waits h
    | next r' stage' => exact .sweeps h
    | done r' closed => exact .swept h

end Patrol

namespace Shutdown

/-- What a step of closing all sessions comes to. -/
inductive Steps (r : Registry ρ) : Shutdown → Progress (Registry ρ) Shutdown Unit → Prop where
  | collected : Steps r collect (.next r (next (r.listed.map (·.id))))
  | finished : Steps r (next []) (.done r ())
  | begun (id : String) (rest : List String) :
      Steps r (next (id :: rest)) (.next r (close id .lookup rest))
  | waits {id : String} {stage : Closing} {rest : List String} (h : stage.step r id = .wait) :
      Steps r (close id stage rest) .wait
  | closes {id : String} {stage stage' : Closing} {rest : List String} {r' : Registry ρ}
      (h : stage.step r id = .next r' stage') :
      Steps r (close id stage rest) (.next r' (close id stage' rest))
  | closed {id : String} {stage : Closing} {rest : List String} {r' : Registry ρ}
      {a : Except SessionError Unit} (h : stage.step r id = .done r' a) :
      Steps r (close id stage rest) (.next r' (next rest))

theorem steps_of_step {r : Registry ρ} {stage : Shutdown}
    {p : Progress (Registry ρ) Shutdown Unit} (h : stage.step r = p) : Steps r stage p := by
  subst h
  cases stage with
  | collect => exact .collected
  | next rest =>
    cases rest with
    | nil => exact .finished
    | cons id rest => exact .begun id rest
  | close id stage rest =>
    simp only [step]
    cases h : stage.step r id with
    | wait => exact .waits h
    | next r' stage' => exact .closes h
    | done r' a => exact .closed h

end Shutdown

/-! ## 4. Calls -/

namespace CallStage

/-- What a step of a call comes to. -/
inductive Steps (r : Registry ρ) (standard : Duration) (c : Call) :
    CallStage → Progress (Registry ρ) CallStage Result → Prop where
  /-- There is no such tool. -/
  | unknown (hf : Tool.find? c.tool = none) :
      Steps r standard c arrive (.done r (.error (.unknownTool c.tool)))
  | closing {info : ToolInfo} {id : String} (hf : Tool.find? c.tool = some info)
      (hn : info.name = "close_session") (hid : Call.sessionId c.arguments = .ok id) :
      Steps r standard c arrive (.next r (close id .lookup))
  | terminating {info : ToolInfo} {id : String} (hf : Tool.find? c.tool = some info)
      (hn : info.name = "terminate_session") (hid : Call.sessionId c.arguments = .ok id) :
      Steps r standard c arrive (.next r (terminate id .lookup))
  /-- A close or a termination that names no session. -/
  | endsNothing {info : ToolInfo} {e : ToolError} (hf : Tool.find? c.tool = some info)
      (hn : info.name = "close_session" ∨ info.name = "terminate_session")
      (hid : Call.sessionId c.arguments = .error e) : Steps r standard c arrive (.done r (.error e))
  | resolving {info : ToolInfo} (hf : Tool.find? c.tool = some info)
      (hp : info.precondition ≠ .none) : Steps r standard c arrive (.next r (resolve info))
  | creating {info : ToolInfo} {metadata : List (String × Json)}
      (hf : Tool.find? c.tool = some info) (hn : info.name = "create_session")
      (hm : Call.metadata c.arguments = .ok metadata) :
      Steps r standard c arrive (.next r (create (.enter metadata)))
  | unfit {info : ToolInfo} {e : ToolError} (hf : Tool.find? c.tool = some info)
      (hn : info.name = "create_session") (hm : Call.metadata c.arguments = .error e) :
      Steps r standard c arrive (.done r (.error e))
  | listed {info : ToolInfo} (hf : Tool.find? c.tool = some info)
      (hn : info.name = "list_sessions") :
      Steps r standard c arrive
        (.done r (.ok ⟨toString r.listed.length ++ " sessions", r.overview⟩))
  | catalog {info : ToolInfo} (hf : Tool.find? c.tool = some info)
      (hn : info.name = "tool_catalog") :
      Steps r standard c arrive (.done r (Tool.catalog c.arguments))
  | help {info : ToolInfo} (hf : Tool.find? c.tool = some info) (hn : info.name = "tool_help") :
      Steps r standard c arrive (.done r (Tool.help c.arguments))
  /-- A tool of the table that nobody carries out. -/
  | unserved {info : ToolInfo} (hf : Tool.find? c.tool = some info) :
      Steps r standard c arrive (.done r (.error (.unknownTool info.name)))
  | closeWaits {id : String} {stage : Closing} (h : stage.step r id = .wait) :
      Steps r standard c (close id stage) .wait
  | close {id : String} {stage stage' : Closing} {r' : Registry ρ}
      (h : stage.step r id = .next r' stage') :
      Steps r standard c (close id stage) (.next r' (close id stage'))
  | closed {id : String} {stage : Closing} {r' : Registry ρ}
      (h : stage.step r id = .done r' (.ok ())) :
      Steps r standard c (close id stage)
        (.done r' (.ok (Call.endedOutput "Closed" id "closed")))
  | closeFailed {id : String} {stage : Closing} {r' : Registry ρ} {e : SessionError}
      (h : stage.step r id = .done r' (.error e)) :
      Steps r standard c (close id stage) (.done r' (.error e.toToolError))
  | terminateWaits {id : String} {stage : Termination} (h : stage.step r id = .wait) :
      Steps r standard c (terminate id stage) .wait
  | terminate {id : String} {stage stage' : Termination} {r' : Registry ρ}
      (h : stage.step r id = .next r' stage') :
      Steps r standard c (terminate id stage) (.next r' (terminate id stage'))
  | terminated {id : String} {stage : Termination} {r' : Registry ρ}
      (h : stage.step r id = .done r' (.ok ())) :
      Steps r standard c (terminate id stage)
        (.done r' (.ok (Call.endedOutput "Terminated" id "terminated")))
  | terminateFailed {id : String} {stage : Termination} {r' : Registry ρ} {e : SessionError}
      (h : stage.step r id = .done r' (.error e)) :
      Steps r standard c (terminate id stage) (.done r' (.error e.toToolError))
  | createWaits {stage : Creation} (h : stage.step r = .wait) :
      Steps r standard c (create stage) .wait
  | create {stage stage' : Creation} {r' : Registry ρ} (h : stage.step r = .next r' stage') :
      Steps r standard c (create stage) (.next r' (create stage'))
  | created {stage : Creation} {r' : Registry ρ} {info : SessionInfo}
      (h : stage.step r = .done r' (.ok info)) :
      Steps r standard c (create stage) (.done r' (.ok (Call.infoOutput "Created session" info)))
  | createFailed {stage : Creation} {r' : Registry ρ} {e : SessionError}
      (h : stage.step r = .done r' (.error e)) :
      Steps r standard c (create stage) (.done r' (.error e.toToolError))
  /-- A call that needs a session, and names none. -/
  | nameless {info : ToolInfo} {e : ToolError} (hid : Call.sessionId c.arguments = .error e) :
      Steps r standard c (resolve info) (.done r (.error e))
  | notLive {info : ToolInfo} {id : String} (hid : Call.sessionId c.arguments = .ok id)
      (hl : r.live? id = none) :
      Steps r standard c (resolve info) (.done r (.error (.sessionNotFound id)))
  | found {info : ToolInfo} {id : String} {seat : Nat} (hid : Call.sessionId c.arguments = .ok id)
      (hl : r.live? id = some seat) :
      Steps r standard c (resolve info) (.next r (check info id seat))
  | lostBefore {info : ToolInfo} {id : String} {seat : Nat} (hs : r.session? seat = none) :
      Steps r standard c (check info id seat) (.done r (.error (.sessionNotFound id)))
  | unsuited {info : ToolInfo} {id : String} {seat : Nat} {s : Session ρ}
      (hs : r.session? seat = some s) (hp : info.precondition = .sessionAndResource)
      (ha : s.state ≠ .resourceAttached) :
      Steps r standard c (check info id seat) (.done r (.error (.preconditionNotMet
        (info.name ++ " requires an open project, but session " ++ id ++ " has none"))))
  | suits {info : ToolInfo} {id : String} {seat : Nat} {s : Session ρ}
      (hs : r.session? seat = some s)
      (ha : info.precondition = .sessionAndResource → s.state = .resourceAttached) :
      Steps r standard c (check info id seat) (.next r (enter info id seat))
  | lostBehind {info : ToolInfo} {id : String} {seat : Nat} (hs : r.session? seat = none) :
      Steps r standard c (enter info id seat) (.done r (.error (.sessionNotFound id)))
  | told {info : ToolInfo} {id : String} {seat : Nat} {s : Session ρ}
      (hs : r.session? seat = some s) (hn : info.name = "session_info") :
      Steps r standard c (enter info id seat)
        (.done r (.ok (Call.infoOutput "Session" (s.info r.now))))
  | unplanned {info : ToolInfo} {id : String} {seat : Nat} {s : Session ρ}
      (hs : r.session? seat = some s) (hn : info.name ≠ "session_info")
      (hp : Tool.planner? info.name = none) :
      Steps r standard c (enter info id seat) (.done r (.error (.unknownTool info.name)))
  /-- The worker takes the job. -/
  | queued {info : ToolInfo} {id : String} {seat ticket : Nat} {s : Session ρ}
      {w : Worker ρ Job JobAnswer} (hs : r.session? seat = some s)
      (hn : info.name ≠ "session_info") (hp : (Tool.planner? info.name).isSome = true)
      (hw : s.worker.submit true (.tool info c.arguments) = (w, .ok ticket)) :
      Steps r standard c (enter info id seat) (.next (r.put seat { s with worker := w })
        (await id seat ticket (Call.timeout standard c.arguments)))
  /-- The worker has faulted, and takes nothing. -/
  | refused {info : ToolInfo} {id : String} {seat : Nat} {s : Session ρ}
      {w : Worker ρ Job JobAnswer} (hs : r.session? seat = some s)
      (hn : info.name ≠ "session_info") (hp : (Tool.planner? info.name).isSome = true)
      (hw : s.worker.submit true (.tool info c.arguments) = (w, .error .faulted)) :
      Steps r standard c (enter info id seat) (.next r (closeFaulted id .lookup))
  /-- The worker takes nothing for another reason. -/
  | rejected {info : ToolInfo} {id : String} {seat : Nat} {s : Session ρ}
      {w : Worker ρ Job JobAnswer} {e : WorkerError} (hs : r.session? seat = some s)
      (hn : info.name ≠ "session_info") (hp : (Tool.planner? info.name).isSome = true)
      (hw : s.worker.submit true (.tool info c.arguments) = (w, .error e)) (he : e ≠ .faulted) :
      Steps r standard c (enter info id seat) (.done r (.error e.toToolError))
  | lostMeanwhile {id : String} {seat ticket : Nat} {limit : Duration}
      (hs : r.session? seat = none) :
      Steps r standard c (await id seat ticket limit) (.done r (.error (.sessionNotFound id)))
  | unanswered {id : String} {seat ticket : Nat} {limit : Duration} {s : Session ρ}
      (hs : r.session? seat = some s) (ho : s.worker.outcome? ticket = none) :
      Steps r standard c (await id seat ticket limit) .wait
  | answered {id : String} {seat ticket : Nat} {limit : Duration} {s : Session ρ}
      {answer : JobAnswer} (hs : r.session? seat = some s)
      (ho : s.worker.outcome? ticket = some (.ok answer)) :
      Steps r standard c (await id seat ticket limit) (.done r answer)
  /-- The job crashed, or was behind one that did. -/
  | lost {id : String} {seat ticket : Nat} {limit : Duration} {s : Session ρ}
      (hs : r.session? seat = some s)
      (ho : s.worker.outcome? ticket = some (.error .faulted)) :
      Steps r standard c (await id seat ticket limit) (.next r (closeFaulted id .lookup))
  | closeFaultedWaits {id : String} {stage : Closing} (h : stage.step r id = .wait) :
      Steps r standard c (closeFaulted id stage) .wait
  | closeFaulted {id : String} {stage stage' : Closing} {r' : Registry ρ}
      (h : stage.step r id = .next r' stage') :
      Steps r standard c (closeFaulted id stage) (.next r' (closeFaulted id stage'))
  | faulted {id : String} {stage : Closing} {r' : Registry ρ} {a : Except SessionError Unit}
      (h : stage.step r id = .done r' a) :
      Steps r standard c (closeFaulted id stage) (.done r' (.error .workerFaulted))

section Steps

variable {r : Registry ρ} {standard : Duration} {c : Call}

theorem steps_dispatch {info : ToolInfo} (hf : Tool.find? c.tool = some info) :
    Steps r standard c arrive (dispatch r info c.arguments) := by
  unfold dispatch
  split
  · rename_i hn
    rw [beq_iff_eq] at hn
    split
    · exact .endsNothing hf (.inl hn) ‹_›
    · exact .closing hf hn ‹_›
  · split
    · rename_i hn
      rw [beq_iff_eq] at hn
      split
      · exact .endsNothing hf (.inr hn) ‹_›
      · exact .terminating hf hn ‹_›
    · split
      · exact .resolving hf (by simpa using ‹(info.precondition != .none) = true›)
      · split
        · rename_i hn
          rw [beq_iff_eq] at hn
          split
          · exact .unfit hf hn ‹_›
          · exact .creating hf hn ‹_›
        · split
          · exact .listed hf (by simpa using ‹(info.name == "list_sessions") = true›)
          · split
            · exact .catalog hf (by simpa using ‹(info.name == "tool_catalog") = true›)
            · split
              · exact .help hf (by simpa using ‹(info.name == "tool_help") = true›)
              · exact .unserved hf

theorem steps_queueJob {info : ToolInfo} {id : String} {seat : Nat} {s : Session ρ}
    (hs : r.session? seat = some s) :
    Steps r standard c (enter info id seat) (queueJob r standard info c.arguments id seat s) := by
  unfold queueJob
  split
  · exact .told hs (by simpa using ‹(info.name == "session_info") = true›)
  · rename_i hn
    replace hn : info.name ≠ "session_info" := by simpa using hn
    split
    · exact .unplanned hs hn ‹_›
    · rename_i hp
      replace hp : (Tool.planner? info.name).isSome = true := by simp [hp]
      split
      · rename_i w e hw
        cases e with
        | faulted => exact .refused hs hn hp hw
        | _ => exact .rejected hs hn hp hw (by rintro ⟨⟩)
      · exact .queued hs hn hp ‹_›

/-- **A call goes on, ends and waits in no other way.** -/
theorem steps_of_step {stage : CallStage} {p : Progress (Registry ρ) CallStage Result}
    (h : stage.step r standard c = p) : Steps r standard c stage p := by
  subst h
  cases stage with
  | arrive =>
    simp only [step]
    split
    · exact .unknown ‹_›
    · exact steps_dispatch ‹_›
  | close id stage =>
    simp only [step]
    cases h : stage.step r id with
    | wait => exact .closeWaits h
    | next r' stage' => exact .close h
    | done r' a =>
      cases a with
      | ok a => exact .closed h
      | error e => exact .closeFailed h
  | terminate id stage =>
    simp only [step]
    cases h : stage.step r id with
    | wait => exact .terminateWaits h
    | next r' stage' => exact .terminate h
    | done r' a =>
      cases a with
      | ok a => exact .terminated h
      | error e => exact .terminateFailed h
  | create stage =>
    simp only [step]
    cases h : stage.step r with
    | wait => exact .createWaits h
    | next r' stage' => exact .create h
    | done r' a =>
      cases a with
      | ok info => exact .created h
      | error e => exact .createFailed h
  | resolve info =>
    simp only [step]
    split
    · exact .nameless ‹_›
    · split
      · exact .notLive ‹_› ‹_›
      · exact .found ‹_› ‹_›
  | check info id seat =>
    simp only [step]
    split
    · exact .lostBefore ‹_›
    · rename_i s hs
      split
      · rename_i hp
        simp only [Bool.and_eq_true, beq_iff_eq, bne_iff_ne] at hp
        exact .unsuited hs hp.1 hp.2
      · rename_i hp
        simp only [Bool.and_eq_true, beq_iff_eq, bne_iff_ne, not_and, Decidable.not_not] at hp
        exact .suits hs hp
  | enter info id seat =>
    simp only [step]
    split
    · exact .lostBehind ‹_›
    · exact steps_queueJob ‹_›
  | await id seat ticket limit =>
    simp only [step]
    split
    · exact .lostMeanwhile ‹_›
    · rename_i s hs
      split
      · exact .unanswered hs ‹_›
      · exact .answered hs ‹_›
      · rename_i e ho
        obtain ⟨rfl, -⟩ := Worker.outcome?_eq_error.mp ho
        exact .lost hs ho
  | closeFaulted id stage =>
    simp only [step]
    cases h : stage.step r id with
    | wait => exact .closeFaultedWaits h
    | next r' stage' => exact .closeFaulted h
    | done r' a => exact .faulted h

end Steps
end CallStage
end Workbench
