import Workbench.Proofs.Session.Stopping
import Workbench.Proofs.Session.Turns
import Workbench.Proofs.Worker.Refusing

/-!
# What calls know

A call finds its session, brings a job to the worker there, and waits for what becomes of it.  It
goes on in steps, and whatever else happens between two of them, it keeps to the session that it has
found and to the job that it has brought.

* `CallStage.Goes` lists how a call goes on, of all that `CallStage.Steps` lists, and
  `CallStage.cases_of_done` tells apart how it can end;
* `CallStage.Knows` is what a call knows of its session and of its job, at each stage;
* `Engine.Attends` ties the task at a place to the call that came in there, also when it has
  finished; it is kept by every event (`Attends.step`);
* `Engine.Faults` is the reason for an answer that tells of a fault: the session is closed, or the
  job that the call has waited for gave that answer itself.
-/

namespace Workbench

variable {ρ : Type}

/-! ## 1. How a call goes on -/

namespace CallStage

/-- How a call goes on from one stage to the next. -/
inductive Goes (r : Registry ρ) (standard : Duration) (c : Call) :
    CallStage → Registry ρ → CallStage → Prop where
  | closing {info : ToolInfo} {id : String} (hf : Tool.find? c.tool = some info)
      (hn : info.name = "close_session") (hid : Call.sessionId c.arguments = .ok id) :
      Goes r standard c arrive r (close id .lookup)
  | terminating {info : ToolInfo} {id : String} (hf : Tool.find? c.tool = some info)
      (hn : info.name = "terminate_session") (hid : Call.sessionId c.arguments = .ok id) :
      Goes r standard c arrive r (terminate id .lookup)
  | resolving {info : ToolInfo} (hf : Tool.find? c.tool = some info)
      (hn : info.precondition ≠ .none) : Goes r standard c arrive r (resolve info)
  | creating {info : ToolInfo} {metadata : List (String × Json)}
      (hf : Tool.find? c.tool = some info) (hn : info.name = "create_session")
      (hm : Call.metadata c.arguments = .ok metadata) :
      Goes r standard c arrive r (create (.enter metadata))
  | close {id : String} {stage stage' : Closing} {r' : Registry ρ}
      (h : stage.step r id = .next r' stage') :
      Goes r standard c (close id stage) r' (close id stage')
  | terminate {id : String} {stage stage' : Termination} {r' : Registry ρ}
      (h : stage.step r id = .next r' stage') :
      Goes r standard c (terminate id stage) r' (terminate id stage')
  | create {stage stage' : Creation} {r' : Registry ρ} (h : stage.step r = .next r' stage') :
      Goes r standard c (create stage) r' (create stage')
  | found {info : ToolInfo} {id : String} {seat : Nat} (hid : Call.sessionId c.arguments = .ok id)
      (hl : r.live? id = some seat) : Goes r standard c (resolve info) r (check info id seat)
  | suits {info : ToolInfo} {id : String} {seat : Nat} {s : Session ρ}
      (hs : r.session? seat = some s) :
      Goes r standard c (check info id seat) r (enter info id seat)
  /-- The worker takes the job. -/
  | queued {info : ToolInfo} {id : String} {seat ticket : Nat} {s : Session ρ}
      {w : Worker ρ Job JobAnswer} (hs : r.session? seat = some s)
      (hn : info.name ≠ "session_info") (hp : (Tool.planner? info.name).isSome = true)
      (hw : s.worker.submit true (.tool info c.arguments) = (w, .ok ticket)) :
      Goes r standard c (enter info id seat) (r.put seat { s with worker := w })
        (await id seat ticket (Call.timeout standard c.arguments))
  /-- The worker has faulted, and takes nothing. -/
  | refused {info : ToolInfo} {id : String} {seat : Nat} {s : Session ρ}
      {w : Worker ρ Job JobAnswer} (hs : r.session? seat = some s)
      (hw : s.worker.submit true (.tool info c.arguments) = (w, .error .faulted)) :
      Goes r standard c (enter info id seat) r (closeFaulted id .lookup)
  /-- The job crashed, or was behind one that did. -/
  | lost {id : String} {seat ticket : Nat} {limit : Duration} {s : Session ρ}
      (hs : r.session? seat = some s)
      (ho : s.worker.outcome? ticket = some (.error .faulted)) :
      Goes r standard c (await id seat ticket limit) r (closeFaulted id .lookup)
  | closeFaulted {id : String} {stage stage' : Closing} {r' : Registry ρ}
      (h : stage.step r id = .next r' stage') :
      Goes r standard c (closeFaulted id stage) r' (closeFaulted id stage')

section Steps

variable {r r' : Registry ρ} {standard : Duration} {c : Call}

/-- **A call goes on in no other way.** -/
theorem goes_of_step {stage stage' : CallStage} (h : stage.step r standard c = .next r' stage') :
    Goes r standard c stage r' stage' := by
  cases steps_of_step h with
  | closing hf hn hid => exact .closing hf hn hid
  | terminating hf hn hid => exact .terminating hf hn hid
  | resolving hf hp => exact .resolving hf hp
  | creating hf hn hm => exact .creating hf hn hm
  | close hs => exact .close hs
  | terminate hs => exact .terminate hs
  | create hs => exact .create hs
  | found hid hl => exact .found hid hl
  | suits hs _ => exact .suits hs
  | queued hs hn hp hw => exact .queued hs hn hp hw
  | refused hs _ _ hw => exact .refused hs hw
  | lost hs ho => exact .lost hs ho
  | closeFaulted hs => exact .closeFaulted hs

/-! ## 2. How a call ends -/

end Steps
end CallStage

/-- The error neither tells of a fault nor of a time that is up. -/
def ToolError.isPlain : ToolError → Bool
  | workerFaulted => false
  | timeout _ => false
  | _ => true

/-- The result is no such error either. -/
def CallStage.Result.Plain (a : CallStage.Result) : Prop :=
  ∀ err, a = .error err → err.isPlain = true

namespace CallStage

section Ends

variable {r r' : Registry ρ} {standard : Duration} {c : Call}

theorem plain_of_ok (out : ToolOutput) : Result.Plain (.ok out) := by
  rintro err ⟨⟩

theorem plain_of_error {err : ToolError} (h : err.isPlain = true) :
    Result.Plain (.error err) := by
  rintro err' ⟨⟩
  exact h

theorem plain_of_sessionId {arguments : Json} {err : ToolError}
    (h : Call.sessionId arguments = .error err) : err.isPlain = true := by
  unfold Call.sessionId at h
  split at h <;> cases h
  rfl

theorem plain_of_parseArguments {α : Type} [Shaped α] {arguments : Json} {err : ToolError}
    (h : Tool.parseArguments α arguments = .error err) : err.isPlain = true := by
  unfold Tool.parseArguments at h
  split at h <;> cases h
  rfl

theorem plain_of_metadata {arguments : Json} {err : ToolError}
    (h : Call.metadata arguments = .error err) : err.isPlain = true := by
  unfold Call.metadata at h
  split at h
  · cases h
    exact plain_of_parseArguments ‹_›
  · split at h <;> cases h
    rfl

theorem plain_of_catalog (arguments : Json) : Result.Plain (Tool.catalog arguments) := by
  intro err h
  unfold Tool.catalog at h
  split at h
  · cases h
    exact plain_of_parseArguments ‹_›
  · simp only at h
    split at h
    · cases h
    · split at h <;> cases h

theorem plain_of_help (arguments : Json) : Result.Plain (Tool.help arguments) := by
  intro err h
  unfold Tool.help at h
  split at h
  · cases h
    exact plain_of_parseArguments ‹_›
  · split at h <;> cases h

/-- What a worker refuses, it refuses without a time that is up. -/
theorem plain_of_refused {w w' : Worker ρ Job JobAnswer} {bounded : Bool} {j : Job}
    {e : WorkerError} (hw : w.submit bounded j = (w', .error e)) (he : e ≠ .faulted) :
    e.toToolError.isPlain = true := by
  have hrefused : w.refusal? bounded = some e := Worker.submit_eq_error.mp (by rw [hw])
  rcases Worker.refusal?_cases hrefused with rfl | rfl | ⟨n, rfl⟩
  · exact absurd rfl he
  · rfl
  · rfl

end Ends
end CallStage

section Ends

variable {r r' : Registry ρ} {standard : Duration} {c : Call}

/-- A close fails only for want of its session. -/
theorem Closing.error_of_done {id : String} {stage : Closing} {err : SessionError}
    (h : stage.step r id = .done r' (.error err)) : err = .notFound id := by
  cases steps_of_step h with
  | unknown _ => rfl

theorem Termination.error_of_done {id : String} {stage : Termination} {err : SessionError}
    (h : stage.step r id = .done r' (.error err)) : err = .notFound id := by
  cases steps_of_step h with
  | unknown _ => rfl

/-- A start that was given a worker fails for want of a slot, or of a resource. -/
theorem Creation.error_of_done {stage : Creation} {err : SessionError}
    (h : stage.step r = .done r' (.error err)) :
    (∃ limit, err = .capacityExceeded limit) ∨ ∃ reason, err = .initFailed reason := by
  cases steps_of_step h with
  | full _ => exact Or.inl ⟨_, rfl⟩
  | vacant _ | removed _ => exact Or.inr ⟨_, rfl⟩

namespace CallStage

/-- **How a call can end**: it has found its worker faulted, or has the answer of its job, or tells
neither of a fault nor of a time that is up. -/
theorem cases_of_done {stage : CallStage} {a : Result}
    (h : stage.step r standard c = .done r' a) :
    (∃ id s x, stage = closeFaulted id s ∧ s.step r id = .done r' x ∧
        a = .error .workerFaulted) ∨
      (∃ id seat ticket limit s, stage = await id seat ticket limit ∧
        r.session? seat = some s ∧ s.worker.outcome? ticket = some (.ok a)) ∨
      a.Plain := by
  cases steps_of_step h with
  | faulted hs => exact Or.inl ⟨_, _, _, rfl, hs, rfl⟩
  | answered hs ho => exact Or.inr (Or.inl ⟨_, _, _, _, _, rfl, hs, ho⟩)
  | endsNothing _ _ hid | nameless hid =>
    exact Or.inr (Or.inr (plain_of_error (plain_of_sessionId hid)))
  | unfit _ _ hm => exact Or.inr (Or.inr (plain_of_error (plain_of_metadata hm)))
  | catalog _ _ => exact Or.inr (Or.inr (plain_of_catalog _))
  | help _ _ => exact Or.inr (Or.inr (plain_of_help _))
  | closeFailed hs =>
    obtain rfl := Closing.error_of_done hs
    exact Or.inr (Or.inr (plain_of_error rfl))
  | terminateFailed hs =>
    obtain rfl := Termination.error_of_done hs
    exact Or.inr (Or.inr (plain_of_error rfl))
  | createFailed hs =>
    rcases Creation.error_of_done hs with ⟨limit, rfl⟩ | ⟨reason, rfl⟩
    · exact Or.inr (Or.inr (plain_of_error rfl))
    · exact Or.inr (Or.inr (plain_of_error rfl))
  | rejected _ _ _ hw he => exact Or.inr (Or.inr (plain_of_error (plain_of_refused hw he)))
  | listed _ _ | closed _ | terminated _ | created _ | told _ _ =>
    exact Or.inr (Or.inr (plain_of_ok _))
  | unknown _ | unserved _ | notLive _ _ | lostBefore _ | unsuited _ _ _ | lostBehind _
  | unplanned _ _ _ | lostMeanwhile _ => exact Or.inr (Or.inr (plain_of_error rfl))

end CallStage
end Ends

/-! ## 3. What a call knows -/

/-- The call asks for an identifier, and the session with it is at the seat. -/
def Registry.Meets (r : Registry ρ) (c : Call) (id : String) (seat : Nat) : Prop :=
  Call.sessionId c.arguments = .ok id ∧ ∃ s, r.session? seat = some s ∧ s.id = id

/-- What the close of a faulted session knows of it. -/
def Closing.Pursues (r : Registry ρ) (id : String) : Closing → Prop
  | lookup => True
  | lookBack => r.HasClosed id
  | begin seat => ∃ s, r.session? seat = some s ∧ s.id = id
  | release seat _ => ∃ s, r.session? seat = some s ∧ s.id = id ∧ s.isClosed = true

/-- What a call knows of its session, and of the job that it has brought. -/
def CallStage.Knows (past : List (Engine ρ × Event ρ)) (r : Registry ρ) (c : Call) :
    CallStage → Prop
  | resolve info => Tool.find? c.tool = some info
  | check info id seat => Tool.find? c.tool = some info ∧ r.Meets c id seat
  | enter info id seat => Tool.find? c.tool = some info ∧ r.Meets c id seat
  | await id seat ticket _ => r.Meets c id seat ∧ ∃ info, Tool.find? c.tool = some info ∧
      (ticket, .tool info c.arguments) ∈ Worker.History.accepted (Engine.notes seat past)
  | closeFaulted id stage => (∃ seat, r.Meets c id seat) ∧ stage.Pursues r id
  | _ => True

section Knowing

variable {r r' : Registry ρ} {ch : Change ρ} {c : Call} {id : String} {seat : Nat}

theorem Registry.Meets.mono (h : r.Meets c id seat) (hr : r.Follows r' ch) :
    r'.Meets c id seat := by
  obtain ⟨hid, s, hs, rfl⟩ := h
  obtain ⟨s', hs', ha⟩ := hr seat s hs
  exact ⟨hid, s', hs', ha.id⟩

theorem Registry.HasClosed.mono (h : r.HasClosed id) (hr : r.Follows r' ch) : r'.HasClosed id := by
  obtain ⟨k, s, hs, rfl, hc⟩ := h
  obtain ⟨s', hs', ha⟩ := hr k s hs
  exact ⟨k, s', hs', ha.id, ha.later.closed hc⟩

/-- At all stages of the release, the same is known. -/
theorem Closing.Pursues.released {stage stage' : Release} (h : (release seat stage).Pursues r id)
    (hr : r.Follows r' ch) : (release seat stage').Pursues r' id := by
  obtain ⟨s, hs, rfl, hc⟩ := h
  obtain ⟨s', hs', ha⟩ := hr seat s hs
  exact ⟨s', hs', ha.id, ha.later.closed hc⟩

theorem Closing.Pursues.mono {stage : Closing} (h : stage.Pursues r id) (hr : r.Follows r' ch) :
    stage.Pursues r' id := by
  cases stage with
  | lookup => trivial
  | lookBack => exact Registry.HasClosed.mono h hr
  | begin seat =>
    obtain ⟨s, hs, rfl⟩ := h
    obtain ⟨s', hs', ha⟩ := hr seat s hs
    exact ⟨s', hs', ha.id⟩
  | release seat stage => exact Closing.Pursues.released h hr

/-- What is known is not forgotten. -/
theorem CallStage.Knows.mono {past more : List (Engine ρ × Event ρ)} {stage : CallStage}
    (h : stage.Knows past r c) (hr : r.Follows r' ch) : stage.Knows (past ++ more) r' c := by
  cases stage with
  | resolve info => exact h
  | check info id seat => exact ⟨h.1, h.2.mono hr⟩
  | enter info id seat => exact ⟨h.1, h.2.mono hr⟩
  | await id seat ticket limit =>
    obtain ⟨hm, info, hf, ha⟩ := h
    refine ⟨hm.mono hr, info, hf, ?_⟩
    simp only [Engine.notes, List.filterMap_append, Worker.History.accepted_append] at ha ⊢
    exact List.mem_append_left _ ha
  | closeFaulted id stage =>
    obtain ⟨⟨seat, hm⟩, hp⟩ := h
    exact ⟨⟨seat, hm.mono hr⟩, hp.mono hr⟩
  | _ => trivial

/-- Nobody leaves the list who is not closed. -/
theorem Registry.hasClosed_of_unlisted {s : Session ρ}
    (hret : ∀ k s, r.session? k = some s → s.listed = false → s.isClosed = true)
    (hs : r.session? seat = some s) (hn : r.seat? s.id = none) : r.HasClosed s.id := by
  have hl : s.listed = false := by
    simpa [holds] using seat?_eq_none.mp hn seat s hs
  exact ⟨seat, s, hs, rfl, hret seat s hs hl⟩

/-- **The close of a faulted session finds it closed, or closes it.** -/
theorem Closing.Pursues.next {stage stage' : Closing} {r₁ : Registry ρ}
    (h : stage.Pursues r id) (hk : ∃ s, r.session? seat = some s ∧ s.id = id)
    (hret : ∀ k s, r.session? k = some s → s.listed = false → s.isClosed = true)
    (hs : stage.step r id = .next r₁ stage') (hr : r.Follows r' (stage.change r)) :
    stage'.Pursues r' id := by
  cases steps_of_step hs with
  | found hfound =>
    obtain ⟨s, hseat, -, rfl⟩ := Registry.of_seat? hfound
    obtain ⟨s', hs', ha⟩ := hr _ s hseat
    exact ⟨s', hs', ha.id⟩
  | missed hmissed =>
    obtain ⟨s, hseat, rfl⟩ := hk
    exact (Registry.hasClosed_of_unlisted hret hseat hmissed).mono hr
  | won _ _ =>
    obtain ⟨s, hseat, rfl⟩ := h
    obtain ⟨s', hs', ha⟩ := hr _ s hseat
    exact ⟨s', hs', ha.id, ha.closed_of_closing hseat⟩
  | releases _ => exact Closing.Pursues.released h hr

theorem Closing.Pursues.done {stage : Closing} {r₁ : Registry ρ} {x : Except SessionError Unit}
    (h : stage.Pursues r id) (hs : stage.step r id = .done r₁ x)
    (hr : r.Follows r' (stage.change r)) : r'.HasClosed id := by
  cases steps_of_step hs with
  | remembered _ | unknown _ => exact Registry.HasClosed.mono h hr
  | vacant _ | second _ _ =>
    obtain ⟨s, hk, rfl⟩ := h
    obtain ⟨s', hs', ha⟩ := hr _ s hk
    exact ⟨_, s', hs', ha.id, ha.closed_of_closing hk⟩
  | released _ =>
    obtain ⟨s, hk, rfl, hc⟩ := h
    exact Registry.HasClosed.mono ⟨_, s, hk, rfl, hc⟩ hr

theorem Closing.Pursues.expire {stage stage' : Closing} (h : stage.Pursues r id)
    (hs : stage.expire? = some stage') (hr : r.Follows r' ch) : stage'.Pursues r' id := by
  cases stage with
  | release k stage =>
    obtain ⟨stage₁, -, rfl⟩ := Option.map_eq_some_iff.mp hs
    exact Closing.Pursues.released h hr
  | _ => cases hs

end Knowing

/-! ## 4. The call at a place -/

namespace Engine

open Worker.History

/-- The call at a place has waited for the job of a ticket. -/
def HasAwaited (past : List (Engine ρ × Event ρ)) (q : Nat) (c : Call) (seat n : Nat) : Prop :=
  ∃ x ∈ past, ∃ id limit, x.1.tasks[q]? = some (.call c (.await id seat n limit))

/-- The reason for an answer that tells of a fault: the session is closed, or the job of the call
gave that answer itself. -/
def Faults (past : List (Engine ρ × Event ρ)) (e : Engine ρ) (q : Nat) (c : Call) : Prop :=
  ∃ id seat, e.registry.Meets c id seat ∧
    (e.registry.HasClosed id ∨ ∃ info n, Tool.find? c.tool = some info ∧
      HasAwaited past q c seat n ∧
      ((n, .tool info c.arguments), some (.error .workerFaulted)) ∈ ended (notes seat past))

/-- The call has come in at the place, and is under way there or has finished. -/
def Attends (past : List (Engine ρ × Event ρ)) (e : Engine ρ) (q : Nat) (c : Call) : Prop :=
  (∃ stage, e.tasks[q]? = some (.call c stage) ∧ stage.Knows past e.registry c) ∨
    ∃ a, e.tasks[q]? = some (.finished (.called a)) ∧
      (a = .error .workerFaulted → Faults past e q c)

section Attending

variable {past : List (Engine ρ × Event ρ)} {e e' : Engine ρ} {event : Event ρ} {q : Nat}
  {c : Call}

theorem Faults.step (hf : Faults past e q c) (h : e.step? event = some e') :
    Faults (past ++ [(e, event)]) e' q c := by
  obtain ⟨id, seat, hm, hor⟩ := hf
  have hfollows := follows_of_step? h
  refine ⟨id, seat, hm.mono hfollows, ?_⟩
  rcases hor with hc | ⟨info, n, hfind, ⟨x, hx, hawaits⟩, hended⟩
  · exact Or.inl (hc.mono hfollows)
  · refine Or.inr ⟨info, n, hfind, ⟨x, List.mem_append_left _ hx, hawaits⟩, ?_⟩
    rw [notes_concat, ended_append]
    exact List.mem_append_left _ hended

/-- A call that brings a job to a worker waits for that job from then on. -/
theorem accepted_of_enter {info : ToolInfo} {id : String} {k n : Nat} {s : Session ρ}
    {w : Worker ρ Job JobAnswer} (ht : e.tasks[q]? = some (.call c (.enter info id k)))
    (hs : e.registry.session? k = some s) (hn : info.name ≠ "session_info")
    (hp : (Tool.planner? info.name).isSome = true)
    (hw : s.worker.submit true (.tool info c.arguments) = (w, .ok n)) :
    accepted (notes k (past ++ [(e, .go q)])) =
      accepted (notes k past) ++ [(n, .tool info c.arguments)] := by
  have hplanner : (Tool.planner? info.name).isNone = false := by
    rw [Option.isNone_eq_false_iff]
    exact hp
  have hpart : e.partAt q = .enter info c.arguments k := by
    simp [partAt, ht, Task.part, CallStage.part, hn, hplanner]
  have hchange : e.change (.go q) = .submit k true (.tool info c.arguments) := by
    rw [change_of_go, hpart]
    rfl
  rw [Worker.submit_eq] at hw
  split at hw
  · cases hw
  · rename_i hrefusal
    cases hw
    rw [notes_concat, accepted_append, accepted_note? hs, hchange]
    simp [Change.actionAt?, Change.seat?, Change.action?, hrefusal]

/-- **A call that goes on knows what it has to.** -/
theorem knows_of_goes {stage stage' : CallStage} {r : Registry ρ}
    (hk : stage.Knows past e.registry c) (ho : Orderly e)
    (ht : e.tasks[q]? = some (.call c stage)) (h : e.step? (.go q) = some e')
    (hg : stage.Goes e.registry e.callTimeout c r stage') :
    stage'.Knows (past ++ [(e, .go q)]) e'.registry c := by
  have hfollows := follows_of_step? h
  cases hg with
  | resolving hf => exact hf
  | found hid hl =>
    obtain ⟨s, hs, -, hsid⟩ := Registry.of_seat? (Option.filter_eq_some_iff.mp hl).1
    exact ⟨hk, Registry.Meets.mono ⟨hid, s, hs, hsid⟩ hfollows⟩
  | suits hs => exact ⟨hk.1, hk.2.mono hfollows⟩
  | queued hs hn hp hw =>
    refine ⟨hk.2.mono hfollows, _, hk.1, ?_⟩
    rw [accepted_of_enter ht hs hn hp hw]
    exact List.mem_append_right _ (List.mem_singleton.mpr rfl)
  | refused hs hw => exact ⟨⟨_, hk.2.mono hfollows⟩, trivial⟩
  | lost hs hout => exact ⟨⟨_, hk.1.mono hfollows⟩, trivial⟩
  | @closeFaulted id closing closing' r hs =>
    obtain ⟨⟨seat, hm⟩, hp⟩ := hk
    have hchange : e.change (.go q) = closing.change e.registry := by
      simp only [change, ht]
      rfl
    rw [hchange] at hfollows
    exact ⟨⟨seat, hm.mono hfollows⟩, hp.next hm.2 ho.retired hs hfollows⟩
  | _ => trivial

/-- A call that tells of a fault has a reason. -/
theorem faults_of_done {stage : CallStage} {r : Registry ρ}
    (hk : stage.Knows past e.registry c) (ht : ∀ k, ToldAt k past e)
    (htask : e.tasks[q]? = some (.call c stage)) (h : e.step? (.go q) = some e')
    (hd : stage.step e.registry e.callTimeout c = .done r (.error .workerFaulted)) :
    Faults (past ++ [(e, .go q)]) e' q c := by
  have hfollows := follows_of_step? h
  rcases CallStage.cases_of_done hd with ⟨id, closing, x, rfl, hs, -⟩ |
    ⟨id, seat, n, limit, s, rfl, hs, hout⟩ | hplain
  · obtain ⟨⟨seat, hm⟩, hp⟩ := hk
    have hchange : e.change (.go q) = closing.change e.registry := by
      simp only [change, htask]
      rfl
    rw [hchange] at hfollows
    exact ⟨id, seat, hm.mono hfollows, Or.inl (hp.done hs hfollows)⟩
  · obtain ⟨hm, info, hfind, ha⟩ := hk
    have htold := (ht seat).of_some hs
    have hended := htold.answers.ended_of_value htold.order ha (Worker.outcome?_eq_ok.mp hout)
    refine ⟨id, seat, hm.mono hfollows, Or.inr ⟨info, n, hfind, ?_, ?_⟩⟩
    · exact ⟨_, List.mem_append_right _ (List.mem_singleton.mpr rfl), id, limit, htask⟩
    · rw [notes_concat, ended_append]
      exact List.mem_append_left _ hended
  · cases hplain _ rfl

/-- **Every event keeps that**: a call that has come in is under way, or has finished and has a
reason for what it tells. -/
theorem Attends.step (ha : Attends past e q c) (ht : ∀ k, ToldAt k past e) (ho : Orderly e)
    (h : e.step? event = some e') : Attends (past ++ [(e, event)]) e' q c := by
  have hfollows := follows_of_step? h
  rcases ha with ⟨stage, htask, hk⟩ | ⟨a, htask, hf⟩
  · obtain ⟨t', ht', ⟨hplace, -⟩ | ⟨-, rfl | ⟨_, _, hcall, -⟩⟩⟩ := task_of_step? h htask
    · cases takes_of_step? h hplace htask with
      | @go _ t' r hg =>
        have hq := tasks_proceed htask r t'
        rcases Progress.cases_of_goes hg with ⟨stage', hs, rfl⟩ | ⟨a, hs, rfl⟩
        · exact Or.inl ⟨stage', hq, knows_of_goes hk ho htask h (CallStage.goes_of_step hs)⟩
        · refine Or.inr ⟨a, hq, ?_⟩
          rintro rfl
          exact faults_of_done hk ht htask h hs
      | @expire _ t' r hg =>
        have hq := tasks_proceed htask r t'
        cases Task.lapses_of_expire? hg with
        | await hs => exact Or.inr ⟨_, hq, by rintro ⟨⟩⟩
        | callClose hs => exact Or.inl ⟨_, hq, trivial⟩
        | closeFaulted hs =>
          obtain ⟨⟨seat, hm⟩, hp⟩ := hk
          exact Or.inl ⟨_, hq, ⟨seat, hm.mono hfollows⟩, hp.expire hs hfollows⟩
      | @refuse _ t' r reason hg =>
        have hq := tasks_proceed htask r t'
        obtain ⟨-, -, metadata, ⟨hcreate, -⟩ | ⟨c', hcreate, rfl⟩⟩ := Task.of_refuse? hg
        · cases hcreate
        · exact Or.inr ⟨_, hq, by rintro ⟨⟩⟩
      | detour hg => cases hg
    · exact Or.inl ⟨stage, ht', hk.mono hfollows⟩
    · cases hcall
  · obtain ⟨t', ht', ⟨-, hturn⟩ | ⟨-, rfl | ⟨_, _, hfinished, -⟩⟩⟩ := task_of_step? h htask
    · exact absurd hturn not_turn_of_finished
    · exact Or.inr ⟨a, ht', fun he => (hf he).step h⟩
    · cases hfinished

/-- A call that comes in is attended to. -/
theorem attends_of_fresh (h : e.step? event = some e') (hq : e.tasks[q]? = none)
    {stage : CallStage} (ht : e'.tasks[q]? = some (.call c stage)) :
    Attends (past ++ [(e, event)]) e' q c := by
  rcases fresh_of_step? h hq ht with ⟨request, hr⟩ | hr | hr
  · cases request with
    | call c' =>
      cases hr
      exact Or.inl ⟨.arrive, ht, trivial⟩
    | _ => cases hr
  · cases hr
  · cases hr

end Attending

/-- The calls that are under way, and those that ever were, are attended to. -/
structure Attentive (past : List (Engine ρ × Event ρ)) (e : Engine ρ) : Prop where
  now : ∀ q c stage, e.tasks[q]? = some (.call c stage) → Attends past e q c
  ever : ∀ x ∈ past, ∀ q c stage, x.1.tasks[q]? = some (.call c stage) → Attends past e q c

/-- A task that is a call now has come in as this call. -/
theorem call_of_step? {e e' : Engine ρ} {event : Event ρ} {q : Nat} {c : Call} {stage : CallStage}
    {t : Task} (h : e.step? event = some e') (ht : e.tasks[q]? = some t)
    (ht' : e'.tasks[q]? = some (.call c stage)) : ∃ stage₀, t = .call c stage₀ := by
  obtain ⟨t₁, ht₁, hor⟩ := task_of_step? h ht
  rw [ht'] at ht₁
  cases ht₁
  rcases hor with ⟨-, hturn⟩ | ⟨-, rfl | ⟨_, _, -, hpatrol⟩⟩
  · generalize e.change event = ch at hturn
    cases hturn with
    | go hg =>
      obtain ⟨stage₀, rfl, -⟩ := call_of_go? hg
      exact ⟨stage₀, rfl⟩
    | expire hg =>
      cases Task.lapses_of_expire? hg with
      | callClose hs => exact ⟨_, rfl⟩
      | closeFaulted hs => exact ⟨_, rfl⟩
    | refuse hg =>
      obtain ⟨-, -, metadata, ⟨-, hr⟩ | ⟨c', -, hr⟩⟩ := Task.of_refuse? hg <;> cases hr
    | detour hg =>
      obtain ⟨_, _, -, ⟨-, hr⟩ | ⟨_, -, hr⟩⟩ := Task.of_detour? hg <;> cases hr
  · exact ⟨stage, rfl⟩
  · cases hpatrol

theorem Attentive.step {past : List (Engine ρ × Event ρ)} {e e' : Engine ρ} {event : Event ρ}
    (ha : Attentive past e) (ht : ∀ k, ToldAt k past e) (ho : Orderly e)
    (h : e.step? event = some e') : Attentive (past ++ [(e, event)]) e' where
  now q c stage htask := by
    cases hq : e.tasks[q]? with
    | none => exact attends_of_fresh h hq htask
    | some t =>
      obtain ⟨stage₀, rfl⟩ := call_of_step? h hq htask
      exact (ha.now q c stage₀ hq).step ht ho h
  ever x hx q c stage htask := by
    rcases List.mem_append.mp hx with hx | hx
    · exact (ha.ever x hx q c stage htask).step ht ho h
    · rw [List.mem_singleton] at hx
      subst hx
      exact (ha.now q c stage htask).step ht ho h

/-- **Along every run**, calls are attended to. -/
theorem attentive_of_run? {settings : SessionSettings} {standard : Duration} {ids : Nat → String}
    {now : Nat} {e : Engine ρ} {events : List (Event ρ)} (hids : Function.Injective ids)
    (h : (start settings standard ids now).run? events = some e) :
    Attentive ((start settings standard ids now).trace events) e := by
  have h₀ : (∀ k, ToldAt k [] (start settings standard ids now : Engine ρ)) ∧
      Orderly (start settings standard ids now : Engine ρ) ∧
      Attentive [] (start settings standard ids now : Engine ρ) := by
    refine ⟨fun k => ?_, Orderly.start settings standard now hids, fun q c stage ht => ?_,
      fun x hx => ?_⟩
    · simp [ToldAt, start, Registry.start, Registry.session?, notes]
    · simp [start] at ht
    · cases hx
  exact (run?_induction (P := fun past e => (∀ k, ToldAt k past e) ∧ Orderly e ∧ Attentive past e)
    (fun past e event e' hP h => ⟨fun k => (hP.1 k).step h, hP.2.1.step h,
      hP.2.2.step hP.1 hP.2.1 h⟩) h h₀).2.2

end Engine
end Workbench
