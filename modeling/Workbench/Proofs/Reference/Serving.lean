import Workbench.Proofs.Reference.Mirror

/-!
# A call and what the machine makes of it

The reference machine carries a call out at once.  In the engine the call goes on in steps, and the
worker of its session does its part in between; a release may even go on when the call has been
answered.

* `Due` lists the stages at which nothing has been done yet, `Parting` tells how far the release of
  a closed session has come, and `Ends` at which stages of an ending that may be;
* `Serving` puts them together: at each moment, either what the machine had before the call is
  there still, or what it has after the call, or one session is set aside and the worker has its
  job in hand;
* `Serving.go`, `Serving.work` and `Serving.pass`: this is kept by the steps of the call, by those
  of all workers, and by the clock.
-/

namespace Workbench

open Workspace (SavedAlike)

/-! ## 1. What workers of workspaces bring about -/

theorem Workspace.blameless_of_leads {context : PlanContext} {e : Engine Workspace} {d d' : Disk}
    {k : Nat} {move : Worker.Move Workspace JobAnswer}
    (h : backend.Leads context e d d' (.work k move)) :
    move.isFailure = false ∧ ∀ v, move = .built v → v = .empty := by
  cases move with
  | built v =>
    refine ⟨rfl, ?_⟩
    rintro _ ⟨⟩
    exact (leads_built h).1
  | buildFailed reason => exact absurd h not_leads_buildFailed
  | crash v => exact absurd h not_leads_crash
  | _ => exact ⟨rfl, by rintro _ ⟨⟩⟩

/-- Unless a job ends, a worker leaves the disk alone. -/
theorem Workspace.disk_of_unfinished {context : PlanContext} {e : Engine Workspace} {d d' : Disk}
    {k : Nat} {move : Worker.Move Workspace JobAnswer}
    (h : backend.Leads context e d d' (.work k move)) (hm : ∀ v a, move ≠ .finish v a) :
    d' = d := by
  refine Engine.disk_of_leads h ?_
  rintro _ v a ⟨⟩
  exact hm v a rfl

/-! ## 2. The release of a closed session -/

/-- How far the release of a closed session has come: it is still to be queued, or was handed to the
worker, or has been carried out; then the worker may have been told to leave. -/
inductive Parting where
  | due
  | handed (ticket : Nat)
  | done (told : Bool)

/-- What is so of the worker and the disk then; before the release, the disk is like `before`, and
afterwards like what a release makes of it.  A release that is carried out is answered. -/
inductive Worker.Parts (before : Disk) (v : Workspace) (w : Worker Workspace Job JobAnswer)
    (d : Disk) : Parting → Prop where
  | due (hup : w.IsUp) (hr : w.Rests v) (hd : d.Alike SavedAlike before) : Parts before v w d .due
  | handed {ticket : Nat} (h : w.Holds v ticket .release) (hd : d.Alike SavedAlike before) :
      Parts before v w d (.handed ticket)
  | answered {ticket : Nat} (h : w.Spent) (hreply : w.reply ticket ≠ .waiting)
      (hd : d.Alike SavedAlike (v.release before Reference.moment).disk) :
      Parts before v w d (.handed ticket)
  | done {told : Bool} (h : w.Spent) (hc : told = true → w.connected = false)
      (hd : d.Alike SavedAlike (v.release before Reference.moment).disk) :
      Parts before v w d (.done told)

/-- **The worker brings the release to its end**, and the disk with it. -/
theorem Worker.Parts.step {context : PlanContext} {e : Engine Workspace} {before d d' : Disk}
    {v : Workspace} {s s' : Session Workspace} {k : Nat} {p : Parting}
    {move : Worker.Move Workspace JobAnswer} (h : s.worker.Parts before v d p)
    (hs : e.registry.session? k = some s) (hadv : s.advance? e.registry.now move = some s')
    (hlead : Workspace.backend.Leads context e d d' (.work k move)) :
    s'.worker.Parts before v d' p := by
  obtain ⟨-, -, hworker, -⟩ := Session.advance?_fields hadv
  obtain ⟨hblameless, hbuilt⟩ := Workspace.blameless_of_leads hlead
  cases h with
  | due hup hr hd =>
    obtain ⟨v', rfl, rfl, hrests⟩ := hr.step hup hworker hblameless
    obtain ⟨rfl, rfl⟩ := Workspace.leads_built hlead
    exact .due (hup.step hworker hblameless) hrests hd
  | handed h hd =>
    cases h.step hworker hblameless hbuilt with
    | goesOn hholds hm =>
      rw [Workspace.disk_of_unfinished hlead hm]
      exact .handed hholds hd
    | ends hp hp' hq' hreply =>
      obtain ⟨now, rfl, -, -⟩ := Workspace.leads_finish hlead hs hp
      exact .answered ⟨by rw [hp']; rfl, hq'⟩ (by simp [hreply]) (v.release_alike hd).disk
  | answered h hreply hd =>
    obtain ⟨hspent, -, -, hm⟩ := h.step hworker
    rw [Workspace.disk_of_unfinished hlead hm]
    exact .answered hspent (by rwa [Worker.reply, h.replies hworker]) hd
  | done h hc hd =>
    obtain ⟨hspent, -, -, hm⟩ := h.step hworker
    rw [Workspace.disk_of_unfinished hlead hm]
    exact .done hspent (fun ht => Worker.disconnected_act? (a := .move move) hworker (hc ht)) hd

/-- A session is on its way out: it is closed and set aside, while the machine has it still. -/
structure Leaves (since : Nat) (m : Reference) (r : Registry Workspace) (k : Nat)
    (s : Session Workspace) (id : String) (x : LiveSession) : Prop where
  mirrors : r.Mirrors m since (some k)
  session : r.session? k = some s
  seat : m.seats[k]? = some ⟨id, some x⟩
  named : s.id = id
  closed : s.isClosed = true
  memory : s.listed = false → ∃ moment, (id, moment) ∈ r.remembered ∧ since ≤ moment

namespace Leaves

variable {since : Nat} {m : Reference} {r : Registry Workspace} {k : Nat} {s : Session Workspace}
  {id : String} {x : LiveSession}

/-- Nothing but its worker changes. -/
theorem put (h : Leaves since m r k s id x) {s' : Session Workspace} (hid : s'.id = s.id)
    (hclosed : s'.isClosed = s.isClosed) (hlisted : s'.listed = s.listed) :
    Leaves since m (r.put k s') k s' id x where
  mirrors := h.mirrors.put fun hk => absurd rfl hk
  session := Registry.session?_put_self h.session s'
  seat := h.seat
  named := hid.trans h.named
  closed := hclosed.trans h.closed
  memory hl := h.memory (hlisted ▸ hl)

/-- The session is taken off the list. -/
theorem forget (h : Leaves since m r k s id x) (hl : s.listed = true)
    (hnow : r.now < since + Registry.retention.nanos) :
    Leaves since m (r.forget id) k { s with listed := false } id x := by
  have hnamed := h.named
  subst hnamed
  obtain ⟨hmirrors, hsession, hmemory⟩ := h.mirrors.forget h.session hl h.seat rfl hnow
  exact ⟨hmirrors, hsession, h.seat, rfl, h.closed, fun _ => hmemory⟩

theorem release_eq (h : Leaves since m r k s id x) :
    m.release k = m.put k none (x.workspace.release m.disk Reference.moment).disk := by
  have hlive : m.live? k = some x := by simp [Reference.live?, h.seat]
  simp only [Reference.release, hlive]

/-- **The session is gone**: the machine has forgotten its workspace, and has the same disk. -/
theorem gone (h : Leaves since m r k s id x) (hl : s.listed = false) (hspent : s.worker.Spent)
    {d : Disk} (hd : d.Alike SavedAlike (x.workspace.release m.disk Reference.moment).disk) :
    r.Mirrors (m.release k) since none ∧ d.Alike SavedAlike (m.release k).disk := by
  rw [h.release_eq]
  have hover : s.Mirrors ⟨id, none⟩ := .gone ⟨h.named, hl, h.closed, hspent⟩
  exact ⟨(h.mirrors.change none _).comeBack h.session (Reference.seat_put h.seat _ _) hover
    fun _ => h.memory hl, hd⟩

end Leaves

/-- The stages of a release at which it has been carried out. -/
def Release.isLate : Release → Bool
  | queue => false
  | awaitAnswer _ => false
  | _ => true

/-- The stages at which the worker has been told to leave. -/
def Release.isTold : Release → Bool
  | shutdown => false
  | stage => stage.isLate

/-- The stages of a call that ends a session, from the moment at which it has closed it; whether
the session is listed then, and how far its release has come.  A termination is answered before its
release is carried out. -/
inductive Ends (c : Call) (id : String) (k : Nat) :
    CallStage.Result → Task → Bool → Parting → Prop where
  | queue : Ends c id k (.ok (Call.endedOutput "Closed" id "closed"))
      (.call c (.close id (.release k .queue))) true .due
  | await (ticket : Nat) : Ends c id k (.ok (Call.endedOutput "Closed" id "closed"))
      (.call c (.close id (.release k (.awaitAnswer ticket)))) true (.handed ticket)
  | late {stage : Release} (h : stage.isLate = true) :
      Ends c id k (.ok (Call.endedOutput "Closed" id "closed"))
        (.call c (.close id (.release k stage))) true (.done stage.isTold)
  | forget : Ends c id k (.ok (Call.endedOutput "Terminated" id "terminated"))
      (.call c (.terminate id (.forget k true))) true .due
  | handIn : Ends c id k (.ok (Call.endedOutput "Terminated" id "terminated"))
      (.call c (.terminate id (.queue k))) false .due
  | shutdown (ticket : Nat) : Ends c id k (.ok (Call.endedOutput "Terminated" id "terminated"))
      (.call c (.terminate id (.shutdown k))) false (.handed ticket)
  | answered (ticket : Nat) : Ends c id k (.ok (Call.endedOutput "Terminated" id "terminated"))
      (.finished (.called (.ok (Call.endedOutput "Terminated" id "terminated")))) false
      (.handed ticket)

theorem Ends.task {c : Call} {id : String} {k : Nat} {answer : CallStage.Result} {t : Task}
    {listed : Bool} {p : Parting} (h : Ends c id k answer t listed p) :
    (∃ stage, t = .call c stage) ∨ t = .finished (.called answer) := by
  cases h with
  | answered ticket => exact .inr rfl
  | _ => exact .inl ⟨_, rfl⟩

/-- Only a termination is answered, at a moment when its release was handed to the worker. -/
theorem Ends.of_finished {c : Call} {id : String} {k : Nat} {answer : CallStage.Result} {a : Answer}
    {listed : Bool} {p : Parting} (h : Ends c id k answer (.finished a) listed p) :
    a = .called answer ∧ listed = false ∧ ∃ ticket, p = .handed ticket := by
  cases h with
  | answered ticket => exact ⟨rfl, rfl, ticket, rfl⟩

/-! ## 3. A call under way -/

/-- The session with an identifier is live on the machine, and it is at a seat. -/
structure Reference.Finds (m : Reference) (id : String) (k : Nat) (x : LiveSession) : Prop where
  seat : m.seat? id = some k
  live : m.live? k = some x

/-- The stages of a call at which nothing has been done yet, with what is left to be done. -/
inductive Due (m : Reference) (c : Call) : CallStage → Prop where
  | arrive : Due m c .arrive
  | closeLookup {id : String} (h : m.serve c = m.finish "Closed" "closed" id) :
      Due m c (.close id .lookup)
  | closeLookBack {id : String} (h : m.serve c = m.finish "Closed" "closed" id)
      (hgone : ∀ k x, ¬ m.Finds id k x) : Due m c (.close id .lookBack)
  | closeBegin {id : String} {k : Nat} {x : LiveSession}
      (h : m.serve c = m.finish "Closed" "closed" id) (hk : m.Finds id k x) :
      Due m c (.close id (.begin k))
  | terminateLookup {id : String} (h : m.serve c = m.finish "Terminated" "terminated" id) :
      Due m c (.terminate id .lookup)
  | terminateLookBack {id : String} (h : m.serve c = m.finish "Terminated" "terminated" id)
      (hgone : ∀ k x, ¬ m.Finds id k x) : Due m c (.terminate id .lookBack)
  | terminateBegin {id : String} {k : Nat} {x : LiveSession}
      (h : m.serve c = m.finish "Terminated" "terminated" id) (hk : m.Finds id k x) :
      Due m c (.terminate id (.begin k))
  | create {metadata : List (String × Json)} (h : m.serve c = m.create metadata) :
      Due m c (.create (.enter metadata))
  | resolve {info : ToolInfo} (hi : info ∈ Tool.all)
      (h : m.serve c = m.named c.arguments (m.callOn info c.arguments)) : Due m c (.resolve info)
  | check {info : ToolInfo} {id : String} {k : Nat} {x : LiveSession} (hi : info ∈ Tool.all)
      (h : m.serve c = m.attend info c.arguments id k x) (hk : m.Finds id k x) :
      Due m c (.check info id k)
  | enter {info : ToolInfo} {id : String} {k : Nat} {x : LiveSession} (hi : info ∈ Tool.all)
      (h : m.serve c = m.use info c.arguments id k x) (hk : m.Finds id k x) :
      Due m c (.enter info id k)

/-- **A call is under way**, as the machine serves it. -/
inductive Serving (since : Nat) (m : Reference) (c : Call) (r : Registry Workspace) (d : Disk) :
    Task → Prop where
  | due {stage : CallStage} (hr : r.Mirrors m since none) (hd : d.Alike SavedAlike m.disk)
      (h : Due m c stage) : Serving since m c r d (.call c stage)
  /-- The session is registered, and its workspace is being built. -/
  | starting {id : String} {k : Nat} {x : LiveSession} (hr : r.Mirrors (m.serve c).1 since none)
      (hd : d.Alike SavedAlike (m.serve c).1.disk)
      (hk : (m.serve c).1.seats[k]? = some ⟨id, some x⟩)
      (ha : (m.serve c).2 = .ok (Call.infoOutput "Created session" (x.info id))) :
      Serving since m c r d (.call c (.create (.awaitReady k)))
  /-- The worker has the job in hand. -/
  | working {info : ToolInfo} {id : String} {k ticket : Nat} {x : LiveSession}
      {s : Session Workspace} {limit : Duration} (hi : info ∈ Tool.all)
      (hr : r.Mirrors m since (some k)) (hd : d.Alike SavedAlike m.disk)
      (hs : r.session? k = some s) (hy : m.seats[k]? = some ⟨id, some x⟩) (hshows : s.Shows id x)
      (hholds : s.worker.Holds x.workspace ticket (.tool info c.arguments))
      (h : m.serve c = m.perform info c.arguments k x) :
      Serving since m c r d (.call c (.await id k ticket limit))
  /-- The job has ended, and its answer is there. -/
  | worked {id : String} {k ticket : Nat} {v : Workspace} {s : Session Workspace}
      {limit : Duration} (hr : r.Mirrors (m.serve c).1 since none)
      (hd : d.Alike SavedAlike (m.serve c).1.disk) (hs : r.session? k = some s)
      (hup : s.worker.IsUp) (hrests : s.worker.Rests v) (hp : s.worker.phase = .resting v)
      (hout : s.worker.outcome? ticket = some (.ok (m.serve c).2)) :
      Serving since m c r d (.call c (.await id k ticket limit))
  | ending {id : String} {k : Nat} {x : LiveSession} {s : Session Workspace} {t : Task}
      {p : Parting} (hl : Leaves since m r k s id x)
      (hp : s.worker.Parts m.disk x.workspace d p)
      (ht : Ends c id k (m.serve c).2 t s.listed p) (h : (m.serve c).1 = m.release k) :
      Serving since m c r d t
  | answered {answer : CallStage.Result} (hr : r.Mirrors (m.serve c).1 since none)
      (hd : d.Alike SavedAlike (m.serve c).1.disk) (ha : SameButTimes answer (m.serve c).2) :
      Serving since m c r d (.finished (.called answer))

/-- A call under way has a stage, or it is over. -/
theorem Serving.task {since : Nat} {m : Reference} {c : Call} {r : Registry Workspace} {d : Disk}
    {t : Task} (h : Serving since m c r d t) :
    (∃ stage, t = .call c stage) ∨ ∃ answer, t = .finished (.called answer) := by
  cases h with
  | ending hl hp ht h => exact ht.task.imp_right fun hdone => ⟨_, hdone⟩
  | answered hr hd ha => exact .inr ⟨_, rfl⟩
  | _ => exact .inl ⟨_, rfl⟩

end Workbench
