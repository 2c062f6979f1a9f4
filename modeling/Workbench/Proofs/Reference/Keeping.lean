import Workbench.Proofs.Reference.Serving

/-!
# Every step keeps to the machine

A call that is under way is served as the machine serves it, whatever happens next.

* `Keeps` says so of the next step of a call, with one lemma for each stage; `Serving.go` is all of
  them together;
* `Serving.work` says so of a step of any worker, and `Serving.pass` of the clock.
-/

namespace Workbench

open Workspace (SavedAlike)

/-- A step of a call keeps to the machine. -/
def Keeps (since : Nat) (m : Reference) (c : Call) (d : Disk) :
    Progress (Registry Workspace) CallStage CallStage.Result → Prop
  | .wait => True
  | .next r stage => Serving since m c r d (.call c stage)
  | .done r answer => Serving since m c r d (.finished (.called answer))

/-! ## 1. What a call finds -/

section Finding

variable {since : Nat} {m : Reference} {r : Registry Workspace} {id : String}

/-- A call finds what the machine finds. -/
theorem finds_cases (hr : r.Mirrors m since none) (id : String) :
    (∃ k x, m.Finds id k x ∧ r.seat? id = some k ∧ r.live? id = some k) ∨
      (∀ k x, ¬ m.Finds id k x) ∧ r.seat? id = none ∧ r.live? id = none := by
  cases hk : m.seat? id with
  | none =>
    have hseat := (hr.gone hk).1
    refine .inr ⟨fun k x hfinds => ?_, hseat, Registry.Mirrors.live?_eq_none hseat⟩
    rw [hfinds.seat] at hk
    cases hk
  | some k =>
    cases hx : m.live? k with
    | none =>
      have hseat := (hr.missing hk hx).1
      refine .inr ⟨fun k' x hfinds => ?_, hseat, Registry.Mirrors.live?_eq_none hseat⟩
      rw [hfinds.seat] at hk
      cases hk
      rw [hfinds.live] at hx
      cases hx
    | some x =>
      obtain ⟨hseat, hlive, -⟩ := hr.found hk hx
      exact .inl ⟨k, x, ⟨hk, hx⟩, hseat, hlive⟩

/-- What is told of a session that has ended, or is not known. -/
def Call.ended (verb member id : String) : Except SessionError Unit → CallStage.Result
  | .ok () => .ok (Call.endedOutput verb id member)
  | .error e => .error e.toToolError

/-- Who ends a session that is not live is told by the machine what the registry remembers. -/
theorem finish_of_gone (hr : r.Mirrors m since none) (hgone : ∀ k x, ¬ m.Finds id k x)
    (verb member : String) :
    m.finish verb member id = (m, Call.ended verb member id (Closing.late r id)) := by
  cases hk : m.seat? id with
  | none => simp [Reference.finish, hk, Closing.late, (hr.gone hk).2, Call.ended,
      SessionError.toToolError]
  | some k =>
    have hx : m.live? k = none := Option.eq_none_iff_forall_ne_some.mpr fun x hx =>
      hgone k x ⟨hk, hx⟩
    simp [Reference.finish, hk, Reference.release, hx, Closing.late, (hr.missing hk hx).2,
      Call.ended]

theorem Reference.Finds.finish {k : Nat} {x : LiveSession} (h : m.Finds id k x)
    (verb member : String) :
    m.finish verb member id = (m.release k, .ok (Call.endedOutput verb id member)) := by
  simp only [Reference.finish, h.seat]

theorem Reference.Finds.callOn {k : Nat} {x : LiveSession} (h : m.Finds id k x) (info : ToolInfo)
    (arguments : Json) : m.callOn info arguments id = m.attend info arguments id k x := by
  simp only [Reference.callOn, h.seat, h.live]

theorem callOn_of_gone (hgone : ∀ k x, ¬ m.Finds id k x) (info : ToolInfo) (arguments : Json) :
    m.callOn info arguments id = (m, .error (.sessionNotFound id)) := by
  unfold Reference.callOn
  split
  · rfl
  · split
    · rfl
    · exact absurd ⟨‹_›, ‹_›⟩ (hgone _ _)

theorem Reference.Finds.seats {k : Nat} {x : LiveSession} (h : m.Finds id k x) :
    m.seats[k]? = some ⟨id, some x⟩ := by
  obtain ⟨live, hy⟩ := Registry.Mirrors.seat_of_seat? h.seat
  obtain ⟨id', hy'⟩ := seat_of_live? h.live
  rw [hy] at hy'
  cases hy'
  exact hy

/-- A session that is found is closed and set aside. -/
theorem leaves_of_finds (hr : r.Mirrors m since none) {d : Disk} (hd : d.Alike SavedAlike m.disk)
    {k : Nat} {x : LiveSession} (hk : m.Finds id k x) :
    ∃ s s', r.session? k = some s ∧ s.beginClose = (s', true) ∧
      Leaves since m (r.put k s') k s' id x ∧ s'.listed = true ∧
      s'.worker.Parts m.disk x.workspace d .due := by
  obtain ⟨-, -, s, hs, hshows, hrests⟩ := hr.found hk.seat hk.live
  have hbegin : s.beginClose = ({ s with state := .closed }, true) := by
    simp [Session.beginClose, hshows.isOpen]
  refine ⟨s, _, hs, hbegin, ?_, hshows.listed, .due hshows.up hrests hd⟩
  exact {
    mirrors := (hr.setAside k).put fun hne => absurd rfl hne
    session := Registry.session?_put_self hs _
    seat := hk.seats
    named := hshows.id
    closed := rfl
    memory := fun hl => by
      rw [hshows.listed] at hl
      cases hl }

end Finding

/-! ## 2. Stages at which nothing has been done yet -/

section Due

variable {since : Nat} {m : Reference} {c : Call} {r : Registry Workspace} {d : Disk}
  (hr : r.Mirrors m since none) (hd : d.Alike SavedAlike m.disk)
include hr hd

/-- A call is answered, and the machine does nothing else. -/
theorem keeps_done {answer : CallStage.Result} (h : m.serve c = (m, answer)) :
    Keeps since m c d (.done r answer) := by
  refine .answered ?_ ?_ ?_ <;> rw [h]
  · exact hr
  · exact hd
  · exact .same answer

variable (standard : Duration)

/-- The tool of a call is known. -/
theorem keeps_dispatch {info : ToolInfo} (hi : info ∈ Tool.all)
    (h : m.serve c = m.serveTool info c.arguments) :
    Keeps since m c d (CallStage.dispatch r info c.arguments) := by
  unfold Reference.serveTool at h
  unfold CallStage.dispatch
  by_cases hclose : (info.name == "close_session") = true
  · rw [if_pos hclose] at h ⊢
    cases hid : Call.sessionId c.arguments with
    | error e => exact keeps_done hr hd (by rw [h, Reference.named, hid])
    | ok id => exact .due hr hd (.closeLookup (by rw [h, Reference.named, hid]))
  rw [if_neg hclose] at h ⊢
  by_cases hterminate : (info.name == "terminate_session") = true
  · rw [if_pos hterminate] at h ⊢
    cases hid : Call.sessionId c.arguments with
    | error e => exact keeps_done hr hd (by rw [h, Reference.named, hid])
    | ok id => exact .due hr hd (.terminateLookup (by rw [h, Reference.named, hid]))
  rw [if_neg hterminate] at h ⊢
  by_cases hneeds : (info.precondition != .none) = true
  · rw [if_pos hneeds] at h ⊢
    exact .due hr hd (.resolve hi h)
  rw [if_neg hneeds] at h ⊢
  by_cases hcreate : (info.name == "create_session") = true
  · rw [if_pos hcreate] at h ⊢
    cases hm : Call.metadata c.arguments with
    | error e => exact keeps_done hr hd (by rw [h, hm])
    | ok metadata => exact .due hr hd (.create (by rw [h, hm]))
  rw [if_neg hcreate] at h ⊢
  by_cases hlist : (info.name == "list_sessions") = true
  · rw [if_pos hlist] at h ⊢
    refine .answered ?_ ?_ ?_ <;> rw [h]
    · exact hr
    · exact hd
    · exact hr.listing
  rw [if_neg hlist] at h ⊢
  -- what is left asks nothing of the sessions
  by_cases hcatalog : (info.name == "tool_catalog") = true
  · rw [if_pos hcatalog] at h ⊢
    exact keeps_done hr hd h
  rw [if_neg hcatalog] at h ⊢
  by_cases hhelp : (info.name == "tool_help") = true
  · rw [if_pos hhelp] at h ⊢
    exact keeps_done hr hd h
  rw [if_neg hhelp] at h ⊢
  exact keeps_done hr hd h

theorem keeps_arrive : Keeps since m c d (CallStage.step r standard c .arrive) := by
  cases hf : Tool.find? c.tool with
  | none =>
    simp only [CallStage.step, hf]
    exact keeps_done hr hd (by simp only [Reference.serve, hf])
  | some info =>
    simp only [CallStage.step, hf]
    exact keeps_dispatch hr hd (List.mem_of_find?_eq_some hf) (by simp only [Reference.serve, hf])

/-! ### Ending a session -/

theorem keeps_closeLookup {id : String} (h : m.serve c = m.finish "Closed" "closed" id) :
    Keeps since m c d (CallStage.step r standard c (.close id .lookup)) := by
  rcases finds_cases hr id with ⟨k, x, hk, hseat, -⟩ | ⟨hgone, hseat, -⟩
  · simp only [CallStage.step, Closing.step, hseat, Progress.lastly, Progress.within]
    exact .due hr hd (.closeBegin h hk)
  · simp only [CallStage.step, Closing.step, hseat, Progress.lastly, Progress.within]
    exact .due hr hd (.closeLookBack h hgone)

theorem keeps_closeLookBack {id : String} (h : m.serve c = m.finish "Closed" "closed" id)
    (hgone : ∀ k x, ¬ m.Finds id k x) :
    Keeps since m c d (CallStage.step r standard c (.close id .lookBack)) := by
  have hserve : m.serve c = (m, Call.ended "Closed" "closed" id (Closing.late r id)) :=
    h.trans (finish_of_gone hr hgone _ _)
  simp only [CallStage.step, Closing.step, Progress.lastly, Progress.within]
  cases hlate : Closing.late r id <;> exact keeps_done hr hd (by rw [hserve, hlate]; rfl)

theorem keeps_closeBegin {id : String} {k : Nat} {x : LiveSession}
    (h : m.serve c = m.finish "Closed" "closed" id) (hk : m.Finds id k x) :
    Keeps since m c d (CallStage.step r standard c (.close id (.begin k))) := by
  have hserve := h.trans (hk.finish "Closed" "closed")
  obtain ⟨s, s', hs, hbegin, hleaves, hlisted, hparts⟩ := leaves_of_finds hr hd hk
  simp only [CallStage.step, Closing.step, hs, hbegin, Progress.lastly, Progress.within]
  refine .ending hleaves hparts ?_ (by rw [hserve])
  rw [hserve, hlisted]
  exact .queue

theorem keeps_terminateLookup {id : String}
    (h : m.serve c = m.finish "Terminated" "terminated" id) :
    Keeps since m c d (CallStage.step r standard c (.terminate id .lookup)) := by
  rcases finds_cases hr id with ⟨k, x, hk, hseat, -⟩ | ⟨hgone, hseat, -⟩
  · simp only [CallStage.step, Termination.step, hseat, Progress.lastly, Progress.within]
    exact .due hr hd (.terminateBegin h hk)
  · simp only [CallStage.step, Termination.step, hseat, Progress.lastly, Progress.within]
    exact .due hr hd (.terminateLookBack h hgone)

theorem keeps_terminateLookBack {id : String}
    (h : m.serve c = m.finish "Terminated" "terminated" id) (hgone : ∀ k x, ¬ m.Finds id k x) :
    Keeps since m c d (CallStage.step r standard c (.terminate id .lookBack)) := by
  have hserve : m.serve c = (m, Call.ended "Terminated" "terminated" id (Closing.late r id)) :=
    h.trans (finish_of_gone hr hgone _ _)
  simp only [CallStage.step, Termination.step, Progress.lastly, Progress.within]
  cases hlate : Closing.late r id <;> exact keeps_done hr hd (by rw [hserve, hlate]; rfl)

theorem keeps_terminateBegin {id : String} {k : Nat} {x : LiveSession}
    (h : m.serve c = m.finish "Terminated" "terminated" id) (hk : m.Finds id k x) :
    Keeps since m c d (CallStage.step r standard c (.terminate id (.begin k))) := by
  have hserve := h.trans (hk.finish "Terminated" "terminated")
  obtain ⟨s, s', hs, hbegin, hleaves, hlisted, hparts⟩ := leaves_of_finds hr hd hk
  simp only [CallStage.step, Termination.step, hs, hbegin, Progress.lastly, Progress.within]
  refine .ending hleaves hparts ?_ (by rw [hserve])
  rw [hserve, hlisted]
  exact .forget

/-! ### Starting a session -/

theorem keeps_create {metadata : List (String × Json)} (h : m.serve c = m.create metadata) :
    Keeps since m c d (CallStage.step r standard c (.create (.enter metadata))) := by
  have hfull := hr.isFull
  unfold Reference.create at h
  by_cases hroom : m.settings.maxConcurrent ≤ m.infos.length
  · rw [decide_eq_true hroom] at hfull
    rw [if_pos hroom] at h
    simp only [CallStage.step, Creation.step, hfull, if_true, Progress.lastly, Progress.within,
      Call.created, SessionError.toToolError, hr.settings]
    exact keeps_done hr hd h
  · rw [decide_eq_false hroom] at hfull
    rw [if_neg hroom] at h
    simp only [CallStage.step, Creation.step, hfull, Bool.false_eq_true, if_false,
      Progress.lastly, Progress.within]
    have hk : (m.serve c).1.seats[r.nextSeat]? =
        some ⟨m.ids m.seats.length, some ⟨metadata, .empty⟩⟩ := by
      rw [h, Registry.nextSeat, hr.length]
      exact List.getElem?_concat_length
    refine .starting ?_ ?_ hk ?_ <;> rw [h]
    · exact hr.register metadata
    · exact hd

/-! ### Working on a session -/

theorem keeps_resolve {info : ToolInfo} (hi : info ∈ Tool.all)
    (h : m.serve c = m.named c.arguments (m.callOn info c.arguments)) :
    Keeps since m c d (CallStage.step r standard c (.resolve info)) := by
  unfold Reference.named at h
  simp only [CallStage.step]
  cases hid : Call.sessionId c.arguments with
  | error e =>
    rw [hid] at h
    exact keeps_done hr hd h
  | ok id =>
    rw [hid] at h
    rcases finds_cases hr id with ⟨k, x, hk, -, hlive⟩ | ⟨hgone, -, hlive⟩
    · simp only [hlive]
      exact .due hr hd (.check hi (h.trans (hk.callOn info _)) hk)
    · simp only [hlive]
      exact keeps_done hr hd (h.trans (callOn_of_gone hgone info _))

theorem keeps_check {info : ToolInfo} {id : String} {k : Nat} {x : LiveSession}
    (hi : info ∈ Tool.all) (h : m.serve c = m.attend info c.arguments id k x)
    (hk : m.Finds id k x) : Keeps since m c d (CallStage.step r standard c (.check info id k)) := by
  obtain ⟨-, -, s, hs, hshows, -⟩ := hr.found hk.seat hk.live
  have hstate : (s.state != .resourceAttached) = x.workspace.project.isNone := by
    rw [hshows.reflects.1, Workspace.label?, Option.isSome_map]
    cases x.workspace.project <;> rfl
  unfold Reference.attend at h
  simp only [CallStage.step, hs, hstate]
  split
  · rename_i hmissing
    rw [if_pos hmissing] at h
    exact keeps_done hr hd h
  · rename_i hready
    rw [if_neg hready] at h
    exact .due hr hd (.enter hi h hk)

theorem keeps_enter {info : ToolInfo} {id : String} {k : Nat} {x : LiveSession}
    (hi : info ∈ Tool.all) (h : m.serve c = m.use info c.arguments id k x)
    (hk : m.Finds id k x) : Keeps since m c d (CallStage.step r standard c (.enter info id k)) := by
  obtain ⟨-, -, s, hs, hshows, hrests⟩ := hr.found hk.seat hk.live
  unfold Reference.use at h
  simp only [CallStage.step, hs, CallStage.queueJob]
  split
  · rename_i hn
    rw [if_pos hn] at h
    refine .answered ?_ ?_ ?_ <;> rw [h]
    · exact hr
    · exact hd
    · exact .info "Session" (hshows.info hrests r.now)
  · rename_i hn
    rw [if_neg hn] at h
    cases hp : Tool.planner? info.name with
    | none =>
      have hnothing : m.perform info c.arguments k x = (m, .error (.unknownTool info.name)) := by
        simp only [Reference.perform, Workspace.carryOut, hp, Workspace.still,
          Reference.put_self hk.seats]
      exact keeps_done hr hd (h.trans hnothing)
    | some planner =>
      have hsubmit : s.worker.submit true (.tool info c.arguments) =
          (s.worker.accept (.tool info c.arguments), .ok s.worker.replies.length) := by
        simp only [Worker.submit_eq, hshows.up.refusal? hrests.waiting]
      simp only [hsubmit]
      exact .working hi ((hr.setAside k).put fun hne => absurd rfl hne) hd
        (Registry.session?_put_self hs _) hk.seats
        (hshows.worker (hshows.up.accept _)) (hrests.accept hshows.up _) h

end Due

/-! ## 3. Stages at which something is being done -/

section Going

variable {since : Nat} {m : Reference} {c : Call} {r : Registry Workspace} {d : Disk}
  {id : String} {k : Nat} {x : LiveSession} {s : Session Workspace} (standard : Duration)

theorem keeps_starting (hr : r.Mirrors (m.serve c).1 since none)
    (hd : d.Alike SavedAlike (m.serve c).1.disk)
    (hk : (m.serve c).1.seats[k]? = some ⟨id, some x⟩)
    (ha : (m.serve c).2 = .ok (Call.infoOutput "Created session" (x.info id))) :
    Keeps since m c d (CallStage.step r standard c (.create (.awaitReady k))) := by
  obtain ⟨s, hs⟩ := hr.session_of_seat hk
  cases hr.seated hs hk with
  | live hshows hrests =>
    simp only [CallStage.step, Creation.step, hs]
    cases hready : s.worker.readiness with
    | building => trivial
    | ready =>
      refine .answered hr hd ?_
      rw [ha]
      exact .info "Created session" (hshows.info hrests r.now)
    | failed reason => exact absurd hready (hshows.up.readiness reason)

/-- As long as its job is in hand, a call waits. -/
theorem keeps_working {info : ToolInfo} {ticket : Nat} {limit : Duration}
    (hs : r.session? k = some s)
    (hholds : s.worker.Holds x.workspace ticket (.tool info c.arguments)) :
    Keeps since m c d (CallStage.step r standard c (.await id k ticket limit)) := by
  simp only [CallStage.step, hs, hholds.outcome?]
  trivial

theorem keeps_worked {ticket : Nat} {limit : Duration} (hr : r.Mirrors (m.serve c).1 since none)
    (hd : d.Alike SavedAlike (m.serve c).1.disk) (hs : r.session? k = some s)
    (hout : s.worker.outcome? ticket = some (.ok (m.serve c).2)) :
    Keeps since m c d (CallStage.step r standard c (.await id k ticket limit)) := by
  simp only [CallStage.step, hs, hout]
  exact .answered hr hd (.same _)

/-- A release that has been carried out is followed by the end of the worker. -/
theorem keeps_late {stage : Release} (hstage : stage.isLate = true)
    (hl : Leaves since m r k s id x) (hlisted : s.listed = true) (hspent : s.worker.Spent)
    (hc : stage.isTold = true → s.worker.connected = false)
    (hd : d.Alike SavedAlike (x.workspace.release m.disk Reference.moment).disk)
    (h : (m.serve c).1 = m.release k)
    (ha : (m.serve c).2 = .ok (Call.endedOutput "Closed" id "closed"))
    (hnow : r.now < since + Registry.retention.nanos) :
    Keeps since m c d (CallStage.step r standard c (.close id (.release k stage))) := by
  -- where the session is still listed, the next stage is of the same kind
  have hnext {r : Registry Workspace} {s : Session Workspace} {stage : Release}
      (hstage : stage.isLate = true) (hl : Leaves since m r k s id x) (hlisted : s.listed = true)
      (hspent : s.worker.Spent) (hc : s.worker.connected = false) :
      Serving since m c r d (.call c (.close id (.release k stage))) := by
    refine .ending (p := .done stage.isTold) hl (.done hspent (fun _ => hc) hd) ?_ h
    rw [ha, hlisted]
    exact .late hstage
  simp only [CallStage.step, Closing.step, Release.step, hl.session]
  cases stage with
  | queue => cases hstage
  | awaitAnswer ticket => cases hstage
  | shutdown =>
    exact hnext rfl (hl.put rfl rfl rfl) hlisted hspent.shutdown (Worker.connected_shutdown _)
  | beginAwaitEnd =>
    dsimp only
    split
    · exact hnext rfl hl hlisted hspent (hc rfl)
    · exact hnext rfl (hl.put rfl rfl rfl) hlisted ⟨hspent.phase, hspent.waiting⟩ (hc rfl)
  | awaitEnd =>
    dsimp only
    split
    · exact hnext rfl hl hlisted hspent (hc rfl)
    · trivial
  | forget =>
    dsimp only
    rw [hl.named]
    obtain ⟨hmirrors, halike⟩ := (hl.forget hlisted hnow).gone rfl hspent hd
    exact .answered (h ▸ hmirrors) (h ▸ halike) (ha ▸ .same _)

/-- **A call that ends a session keeps to the machine.** -/
theorem keeps_ending {stage : CallStage} {p : Parting} (hl : Leaves since m r k s id x)
    (hp : s.worker.Parts m.disk x.workspace d p)
    (ht : Ends c id k (m.serve c).2 (.call c stage) s.listed p)
    (h : (m.serve c).1 = m.release k) (hnow : r.now < since + Registry.retention.nanos) :
    Keeps since m c d (CallStage.step r standard c stage) := by
  generalize ha : (m.serve c).2 = answer at ht
  generalize hlisted : s.listed = listed at ht
  cases ht with
  | queue =>
    cases hp with
    | due hup hrests hd =>
      have hsubmit : s.worker.submit false .release =
          (s.worker.accept .release, .ok s.worker.replies.length) := by
        simp only [Worker.submit_eq, hup.refusal? hrests.waiting]
      simp only [CallStage.step, Closing.step, Release.step, hl.session, hsubmit]
      refine .ending (hl.put rfl rfl rfl) (.handed (hrests.accept hup _) hd) ?_ h
      rw [ha, hlisted]
      exact .await _
  | await ticket =>
    simp only [CallStage.step, Closing.step, Release.step, hl.session]
    cases hp with
    | handed hholds hd =>
      rw [hholds.outcome?]
      trivial
    | answered hspent hreply hd =>
      cases s.worker.outcome? ticket with
      | none => trivial
      | some a =>
        refine .ending (p := .done false) hl (.done hspent (by simp) hd) ?_ h
        rw [ha, hlisted]
        exact .late rfl
  | late hstage =>
    cases hp with
    | done hspent hc hd => exact keeps_late standard hstage hl hlisted hspent hc hd h ha hnow
  | forget =>
    cases hp with
    | due hup hrests hd =>
      simp only [CallStage.step, Termination.step, if_true, Progress.lastly, Progress.within]
      refine .ending (hl.forget hlisted hnow) (.due hup hrests hd) ?_ h
      rw [ha]
      exact .handIn
  | handIn =>
    cases hp with
    | due hup hrests hd =>
      have hsubmit : (s.worker.submit false .release).1 = s.worker.accept .release := by
        simp only [Worker.submit_eq, hup.refusal? hrests.waiting]
      simp only [CallStage.step, Termination.step, Progress.lastly, Progress.within,
        Registry.update_of_some _ hl.session, hsubmit]
      refine .ending (hl.put rfl rfl rfl) (.handed (hrests.accept hup _) hd) ?_ h
      rw [ha, hlisted]
      exact .shutdown _
  | shutdown ticket =>
    have hparts : s.worker.shutdown.Parts m.disk x.workspace d (.handed ticket) := by
      cases hp with
      | handed hholds hd => exact .handed hholds.shutdown hd
      | answered hspent hreply hd =>
        exact .answered hspent.shutdown (by rwa [Worker.reply, Worker.replies_shutdown]) hd
    simp only [CallStage.step, Termination.step, Progress.lastly, Progress.within,
      Registry.update_of_some _ hl.session]
    refine .ending (hl.put rfl rfl rfl) hparts ?_ h
    rw [ha, hlisted]
    exact .answered ticket

end Going

/-- **Every step of a call keeps to the machine.** -/
theorem Serving.go {since : Nat} {m : Reference} {c : Call} {r : Registry Workspace} {d : Disk}
    {stage : CallStage} (h : Serving since m c r d (.call c stage))
    (hnow : r.now < since + Registry.retention.nanos) (standard : Duration) :
    Keeps since m c d (CallStage.step r standard c stage) := by
  cases h with
  | due hr hd h =>
    cases h with
    | arrive => exact keeps_arrive hr hd standard
    | closeLookup h => exact keeps_closeLookup hr hd standard h
    | closeLookBack h hgone => exact keeps_closeLookBack hr hd standard h hgone
    | closeBegin h hk => exact keeps_closeBegin hr hd standard h hk
    | terminateLookup h => exact keeps_terminateLookup hr hd standard h
    | terminateLookBack h hgone => exact keeps_terminateLookBack hr hd standard h hgone
    | terminateBegin h hk => exact keeps_terminateBegin hr hd standard h hk
    | create h => exact keeps_create hr hd standard h
    | resolve hi h => exact keeps_resolve hr hd standard hi h
    | check hi h hk => exact keeps_check hr hd standard hi h hk
    | enter hi h hk => exact keeps_enter hr hd standard hi h hk
  | starting hr hd hk ha => exact keeps_starting standard hr hd hk ha
  | working hi hr hd hs hy hshows hholds h => exact keeps_working standard hs hholds
  | worked hr hd hs hup hrests hp hout => exact keeps_worked standard hr hd hs hout
  | ending hl hp ht h => exact keeps_ending standard hl hp ht h hnow

/-! ## 4. Workers and the clock -/

section Working

variable {since : Nat} {m : Reference} {c : Call} {e : Engine Workspace} {d d' : Disk} {t : Task}
  {j : Nat} {s s' : Session Workspace} {move : Worker.Move Workspace JobAnswer}

/-- A worker that has no job in hand changes nothing that the machine knows of. -/
theorem mirrors_work {aside : Option Nat} {context : PlanContext}
    (hr : e.registry.Mirrors m since aside) (hj : aside ≠ some j)
    (hs : e.registry.session? j = some s) (hadv : s.advance? e.registry.now move = some s')
    (hlead : Workspace.backend.Leads context e d d' (.work j move)) :
    (e.registry.put j s').Mirrors m since aside ∧ d' = d := by
  obtain ⟨hblameless, hbuilt⟩ := Workspace.blameless_of_leads hlead
  obtain ⟨y, hy⟩ := hr.seat_of_session hs
  obtain ⟨hmirrors, hunfinished⟩ := (hr.sessions j s y hj hs hy).step hadv hblameless hbuilt
  refine ⟨hr.put fun _ z hz => ?_, Workspace.disk_of_unfinished hlead hunfinished⟩
  rw [hy] at hz
  cases hz
  exact hmirrors

/-- **The end of a job is what the machine makes of the call.** -/
theorem worked_of_ends {info : ToolInfo} {id : String} {ticket : Nat} {x : LiveSession}
    {limit : Duration} {v : Workspace} {a : JobAnswer} (hi : info ∈ Tool.all)
    (hr : e.registry.Mirrors m since (some j)) (hd : d.Alike SavedAlike m.disk)
    (hs : e.registry.session? j = some s) (hy : m.seats[j]? = some ⟨id, some x⟩)
    (hshows : s.Shows id x) (h : m.serve c = m.perform info c.arguments j x)
    (hadv : s.advance? e.registry.now (.finish v a) = some s')
    (hlead : Workspace.backend.Leads m.context e d d' (.work j (.finish v a)))
    (hp : s.worker.phase = .running x.workspace ticket (.tool info c.arguments))
    (hp' : s'.worker.phase = .resting v) (hq' : s'.worker.waiting = [])
    (hreply : s'.worker.reply ticket = .value a) :
    Serving since m c (e.registry.put j s') d' (.call c (.await id j ticket limit)) := by
  obtain ⟨-, -, hworker, -⟩ := Session.advance?_fields hadv
  obtain ⟨now, rfl, rfl, rfl⟩ := Workspace.leads_finish hlead hs hp
  have halike := Workspace.carryOut_alike
    (.tool info fun _ _ => rfl : Job.Agrees m.context (.tool info c.arguments) _)
    x.workspace hd now Reference.moment
  have hrun := Workspace.run_eq m.context j (.tool info c.arguments) x.workspace d now
  have hserve : m.serve c = (m.put j
      (some { x with workspace := (x.workspace.carryOut m.context d now
        (.tool info c.arguments)).workspace })
      (x.workspace.carryOut m.context m.disk Reference.moment (.tool info c.arguments)).disk,
      (x.workspace.carryOut m.context d now (.tool info c.arguments)).result) := by
    rw [h, Reference.perform, ← halike.workspace, ← halike.result]
  have hup : s'.worker.IsUp := hshows.up.step hworker rfl
  have hrests : s'.worker.Rests (x.workspace.carryOut m.context d now
      (.tool info c.arguments)).workspace :=
    ⟨by rw [hp']; rfl, by rw [Worker.underway, hp'], hq'⟩
  have hshows' : s'.Shows id { x with workspace := (x.workspace.carryOut m.context d now
      (.tool info c.arguments)).workspace } := by
    rcases Session.advance?_cases hadv with
      ⟨_, _, _, job, _, hmove, hphase, -, hs'⟩ | ⟨hunfinished, -⟩
    · rw [hp] at hphase
      cases hphase
      cases hmove
      rw [hs']
      exact (hshows.worker hup).record (Workspace.toldBy_of_run hi hrun) _ _
    · exact absurd rfl (hunfinished _ _)
  refine .worked ?_ ?_ (Registry.session?_put_self hs s') hup hrests hp' ?_
  · rw [hserve]
    exact ((hr.put fun hne => absurd rfl hne).change _ _).comeBack
      (Registry.session?_put_self hs s') (Reference.seat_put hy _ _) (.live hshows' hrests)
      (by simp)
  · rw [hserve]
    exact halike.disk
  · rw [hserve, Worker.outcome?_eq_ok, hreply]

/-- **Every step of a worker keeps to the machine.** -/
theorem Serving.work (h : Serving since m c e.registry d t)
    (hs : e.registry.session? j = some s) (hadv : s.advance? e.registry.now move = some s')
    (hlead : Workspace.backend.Leads m.context e d d' (.work j move)) :
    Serving since m c (e.registry.put j s') d' t := by
  obtain ⟨hid, hlisted, hworker, hclosed⟩ := Session.advance?_fields hadv
  obtain ⟨hblameless, hbuilt⟩ := Workspace.blameless_of_leads hlead
  cases h with
  | due hr hd h =>
    obtain ⟨hr, rfl⟩ := mirrors_work hr nofun hs hadv hlead
    exact .due hr hd h
  | starting hr hd hk ha =>
    obtain ⟨hr, rfl⟩ := mirrors_work hr nofun hs hadv hlead
    exact .starting hr hd hk ha
  | answered hr hd ha =>
    obtain ⟨hr, rfl⟩ := mirrors_work hr nofun hs hadv hlead
    exact .answered hr hd ha
  | @working info id k ticket x s₀ limit hi hr hd hs₀ hy hshows hholds h =>
    by_cases hkj : k = j
    · subst hkj
      rw [hs] at hs₀
      cases hs₀
      cases hholds.step hworker hblameless hbuilt with
      | ends hp hp' hq' hreply =>
        exact worked_of_ends hi hr hd hs hy hshows h hadv hlead hp hp' hq' hreply
      | goesOn hholds' hunfinished =>
        obtain rfl := Workspace.disk_of_unfinished hlead hunfinished
        rcases Session.advance?_cases hadv with ⟨_, _, _, _, _, hmove, -⟩ | ⟨-, hs'⟩
        · exact absurd hmove (hunfinished _ _)
        · refine .working hi (hr.put fun hne => absurd rfl hne) hd
            (Registry.session?_put_self hs s') hy ?_ hholds' h
          rw [hs']
          exact hshows.worker (hshows.up.step hworker hblameless)
    · obtain ⟨hr, rfl⟩ := mirrors_work hr (by simpa using hkj) hs hadv hlead
      refine .working hi hr hd ?_ hy hshows hholds h
      rw [Registry.session?_put_of_ne s' (Ne.symm hkj)]
      exact hs₀
  | @worked id k ticket v s₀ limit hr hd hs₀ hup hrests hp hout =>
    have hkj : j ≠ k := by
      rintro rfl
      rw [hs] at hs₀
      cases hs₀
      obtain ⟨v', rfl, -, -⟩ := hrests.step hup hworker hblameless
      simp [Worker.advance?, hp] at hworker
    obtain ⟨hr, rfl⟩ := mirrors_work hr nofun hs hadv hlead
    refine .worked hr hd ?_ hup hrests hp hout
    rw [Registry.session?_put_of_ne s' hkj]
    exact hs₀
  | @ending id k x s₀ t p hl hp ht h =>
    by_cases hkj : k = j
    · subst hkj
      have hs₀ := hl.session
      rw [hs] at hs₀
      cases hs₀
      refine .ending (hl.put hid hclosed hlisted) (hp.step hs hadv hlead) ?_ h
      rw [hlisted]
      exact ht
    · obtain ⟨hr, rfl⟩ := mirrors_work hl.mirrors (by simpa using hkj) hs hadv hlead
      refine .ending { hl with mirrors := hr, session := ?_ } hp ht h
      rw [Registry.session?_put_of_ne s' (Ne.symm hkj)]
      exact hl.session

/-- Time may pass. -/
theorem Serving.pass {r : Registry Workspace} (h : Serving since m c r d t) (time : Nat) :
    Serving since m c { r with now := r.now + time } d t := by
  cases h with
  | due hr hd h => exact .due (hr.pass time) hd h
  | starting hr hd hk ha => exact .starting (hr.pass time) hd hk ha
  | working hi hr hd hs hy hshows hholds h =>
    exact .working hi (hr.pass time) hd hs hy hshows hholds h
  | worked hr hd hs hup hrests hp hout => exact .worked (hr.pass time) hd hs hup hrests hp hout
  | ending hl hp ht h => exact .ending { hl with mirrors := hl.mirrors.pass time } hp ht h
  | answered hr hd ha => exact .answered (hr.pass time) hd ha

end Working
end Workbench
