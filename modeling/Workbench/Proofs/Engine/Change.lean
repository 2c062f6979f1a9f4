import Workbench.Proofs.Engine.Stages

/-!
# What an event changes

Many tasks work on one registry, but they do only a few things to it.  Each of these is a `Change`,
and every event of an engine makes one.

* `Change` lists what can happen to a registry, `Registry.after` carries it out;
* `Change.alter` is what a change does to the session at a seat, as `session?_after_of_some` says;
  a session that was not there before has just been registered (`session?_after_of_none`);
* `Part` is the work that a task is at, whatever kind of task it is, and `Part.change` the change
  that its next step makes; `Part.change_cases` says who makes which change;
* the lemmas `state?_step` say that a step makes this change and no other.

A statement about all sessions has one case for each change then, and not one for each stage of each
task.
-/

namespace Workbench

/-! ## 1. Changes -/

/-- What an event does to the registry. -/
inductive Change (ρ : Type) where
  | nothing
  | register (metadata : List (String × Json))
  /-- An open session is closed. -/
  | close (seat : Nat)
  | submit (seat : Nat) (bounded : Bool) (job : Job)
  | shutdown (seat : Nat)
  | awaitEnd (seat : Nat)
  | suspect (seat : Nat)
  | remove (id : String)
  | forget (id : String)
  | work (seat : Nat) (move : Worker.Move ρ JobAnswer)
  | pass (time : Duration)

namespace Change

variable {ρ : Type}

/-- The seat of the only session that a change is about. -/
def seat? : Change ρ → Option Nat
  | close seat => some seat
  | submit seat _ _ => some seat
  | shutdown seat => some seat
  | awaitEnd seat => some seat
  | suspect seat => some seat
  | work seat _ => some seat
  | _ => none

/-- The identifier that a change takes off the list. -/
def unlisted? : Change ρ → Option String
  | remove id => some id
  | forget id => some id
  | _ => none

/-- What the worker of the session at the seat of the change is told or does. -/
def action? : Change ρ → Option (Worker.Action ρ Job JobAnswer)
  | submit _ bounded job => some (.submit bounded job)
  | shutdown _ => some .shutdown
  | awaitEnd _ => some .awaitEnd
  | work _ move => some (.move move)
  | _ => none

/-- What a change does to the session that it is about. -/
def on (now : Nat) (c : Change ρ) (s : Session ρ) : Session ρ :=
  match c with
  | close _ => s.beginClose.1
  | submit _ bounded job => { s with worker := (s.worker.submit bounded job).1 }
  | shutdown _ => { s with worker := s.worker.shutdown }
  | awaitEnd _ => { s with worker := s.worker.awaitEnd }
  | suspect _ => s.markSuspect
  | work _ move => (s.advance? now move).getD s
  | _ => s

/-- What a change does to the session at a seat. -/
def alter (k now : Nat) (c : Change ρ) (s : Session ρ) : Session ρ :=
  match c.unlisted? with
  | some id => if Registry.holds s id then { s with listed := false } else s
  | none => if c.seat? = some k then c.on now s else s

end Change

namespace Registry

variable {ρ : Type}

/-- The registry after a change. -/
def after (r : Registry ρ) (c : Change ρ) : Registry ρ :=
  match c with
  | .register metadata => r.register metadata
  | .remove id => r.remove id
  | .forget id => r.forget id
  | .pass time => { r with now := r.now + time.nanos }
  | c =>
    match c.seat? with
    | some seat => r.update seat (c.on r.now)
    | none => r

theorem put_self {r : Registry ρ} {seat : Nat} {s : Session ρ} (h : r.session? seat = some s) :
    r.put seat s = r := by
  obtain ⟨hlt, he⟩ := List.getElem?_eq_some_iff.mp h
  simp only [put, ← he, List.set_getElem_self]

theorem update_of_some {r : Registry ρ} {seat : Nat} {s : Session ρ} (f : Session ρ → Session ρ)
    (h : r.session? seat = some s) : r.update seat f = r.put seat (f s) := by
  simp [update, h]

theorem session?_update (r : Registry ρ) (seat k : Nat) (f : Session ρ → Session ρ) :
    (r.update seat f).session? k = if seat = k then (r.session? k).map f else r.session? k := by
  cases h : r.session? seat with
  | none =>
    rw [show r.update seat f = r by simp [update, h]]
    split
    · rename_i hk
      rw [← hk, h]
      rfl
    · rfl
  | some s =>
    have hlt : seat < r.sessions.length := (List.getElem?_eq_some_iff.mp h).1
    rw [update_of_some f h]
    simp only [session?, put, List.getElem?_set] at h ⊢
    split
    · rename_i hk
      rw [← hk, h]
      rfl
    · rfl

@[simp] theorem length_sessions_update (r : Registry ρ) (seat : Nat) (f : Session ρ → Session ρ) :
    (r.update seat f).sessions.length = r.sessions.length := by
  unfold update
  split
  · simp [put]
  · rfl

/-- The cases of a change: one for all those that are about a seat. -/
theorem after_cases {r : Registry ρ} {P : Change ρ → Registry ρ → Prop} (c : Change ρ)
    (nothing : P .nothing r) (register : ∀ metadata, P (.register metadata) (r.register metadata))
    (remove : ∀ id, P (.remove id) (r.remove id)) (forget : ∀ id, P (.forget id) (r.forget id))
    (pass : ∀ time, P (.pass time) { r with now := r.now + time.nanos })
    (seat : ∀ c k, c.seat? = some k → P c (r.update k (c.on r.now))) : P c (r.after c) := by
  cases c with
  | nothing => exact nothing
  | register metadata => exact register metadata
  | remove id => exact remove id
  | forget id => exact forget id
  | pass time => exact pass time
  | close k => exact seat _ k rfl
  | submit k bounded job => exact seat _ k rfl
  | shutdown k => exact seat _ k rfl
  | awaitEnd k => exact seat _ k rfl
  | suspect k => exact seat _ k rfl
  | work k move => exact seat _ k rfl

/-- **What a change does to a session** depends on the seat and the clock only. -/
theorem session?_after_of_some {r : Registry ρ} {k : Nat} {s : Session ρ} (c : Change ρ)
    (h : r.session? k = some s) : (r.after c).session? k = some (c.alter k r.now s) := by
  have hremove : ∀ id, (r.remove id).session? k =
      some (if holds s id then { s with listed := false } else s) := by
    intro id
    simp only [remove, session?, List.getElem?_map] at h ⊢
    rw [h]
    rfl
  refine after_cases (P := fun c r' => r'.session? k = some (c.alter k r.now s)) c h
    (fun metadata => ?_) hremove hremove (fun _ => h) fun c seat hc => ?_
  · have hlt : k < r.sessions.length := (List.getElem?_eq_some_iff.mp h).1
    simp only [register, session?] at h ⊢
    rw [List.getElem?_append_left hlt, h]
    rfl
  · have hu : c.unlisted? = none := by
      cases c <;> first | rfl | cases hc
    rw [session?_update, h]
    simp only [Change.alter, hu, hc, Option.some.injEq]
    split <;> rfl

theorem seat?_eq_none {r : Registry ρ} {id : String} :
    r.seat? id = none ↔ ∀ k s, r.session? k = some s → holds s id = false := by
  unfold seat?
  rw [List.findIdx?_eq_none_iff]
  refine ⟨fun h k s hs => h s (List.mem_of_getElem? hs), fun h s hs => ?_⟩
  obtain ⟨k, hk⟩ := List.getElem?_of_mem hs
  exact h k s hk

/-- The session that is found on the list has the identifier. -/
theorem of_seat? {r : Registry ρ} {id : String} {k : Nat} (h : r.seat? id = some k) :
    ∃ s, r.session? k = some s ∧ s.listed = true ∧ s.id = id := by
  obtain ⟨hlt, hk, -⟩ := List.findIdx?_eq_some_iff_getElem.mp h
  simp only [holds, Bool.and_eq_true, beq_iff_eq] at hk
  exact ⟨_, List.getElem?_eq_getElem hlt, hk.1, hk.2⟩

/-- Only a registration adds a session. -/
theorem length_sessions_after (r : Registry ρ) (c : Change ρ) :
    (r.after c).sessions.length = r.sessions.length ∨
      ∃ metadata, c = .register metadata ∧
        (r.after c).sessions.length = r.sessions.length + 1 := by
  refine after_cases (P := fun c r' => r'.sessions.length = r.sessions.length ∨
    ∃ metadata, c = .register metadata ∧ r'.sessions.length = r.sessions.length + 1) c (Or.inl rfl)
    (fun metadata => Or.inr ⟨metadata, rfl, by simp [register]⟩)
    (fun _ => Or.inl (by simp [remove])) (fun _ => Or.inl (by simp [forget, remove]))
    (fun _ => Or.inl rfl) fun c k _ => Or.inl (length_sessions_update r k _)

/-- **A session that was not there has just been registered**, at the next seat. -/
theorem session?_after_of_none {r : Registry ρ} {k : Nat} {s : Session ρ} {c : Change ρ}
    (h : r.session? k = none) (hs : (r.after c).session? k = some s) :
    ∃ metadata, c = .register metadata ∧ k = r.nextSeat ∧
      s = .create (r.ids r.nextSeat) metadata r.settings.maxQueueDepth r.now := by
  have hge : r.sessions.length ≤ k := List.getElem?_eq_none_iff.mp h
  have hlt : k < (r.after c).sessions.length := (List.getElem?_eq_some_iff.mp hs).1
  rcases length_sessions_after r c with hl | ⟨metadata, rfl, hl⟩
  · omega
  · obtain rfl : k = r.nextSeat := by
      unfold nextSeat
      omega
    refine ⟨metadata, rfl, rfl, ?_⟩
    simp only [after, register, session?, nextSeat, List.getElem?_concat_length,
      Option.some.injEq] at hs
    exact hs.symm

theorem settings_update (r : Registry ρ) (seat : Nat) (f : Session ρ → Session ρ) :
    (r.update seat f).settings = r.settings ∧ (r.update seat f).ids = r.ids ∧
      (r.update seat f).remembered = r.remembered ∧ (r.update seat f).now = r.now := by
  unfold update
  split <;> exact ⟨rfl, rfl, rfl, rfl⟩

/-- The limits and the identifiers stay as they are. -/
theorem settings_after (r : Registry ρ) (c : Change ρ) :
    (r.after c).settings = r.settings ∧ (r.after c).ids = r.ids := by
  refine after_cases (P := fun _ r' => r'.settings = r.settings ∧ r'.ids = r.ids) c ⟨rfl, rfl⟩
    (fun _ => ⟨rfl, rfl⟩) (fun _ => ⟨rfl, rfl⟩) (fun _ => ⟨rfl, rfl⟩) (fun _ => ⟨rfl, rfl⟩)
    fun c k _ => ?_
  obtain ⟨h₁, h₂, -⟩ := r.settings_update k (c.on r.now)
  exact ⟨h₁, h₂⟩

/-- The clock never goes back. -/
theorem now_le_after (r : Registry ρ) (c : Change ρ) : r.now ≤ (r.after c).now := by
  refine after_cases (P := fun _ r' => r.now ≤ r'.now) c (Nat.le_refl _) (fun _ => Nat.le_refl _)
    (fun _ => Nat.le_refl _) (fun _ => Nat.le_refl _) (fun _ => Nat.le_add_right _ _)
    fun c k _ => Nat.le_of_eq (r.settings_update k (c.on r.now)).2.2.2.symm

/-- Nothing but the passing of time moves the clock. -/
theorem now_after {r : Registry ρ} {c : Change ρ} (hc : ∀ time, c ≠ .pass time) :
    (r.after c).now = r.now :=
  after_cases (P := fun c r' => (∀ time, c ≠ .pass time) → r'.now = r.now) c (fun _ => rfl)
    (fun _ _ => rfl) (fun _ _ => rfl) (fun _ _ => rfl) (fun time h => absurd rfl (h time))
    (fun c k _ _ => (r.settings_update k (c.on r.now)).2.2.2) hc

end Registry

/-! ## 2. The changes of tasks -/

/-- What all tasks share after a step, if there was one. -/
def Progress.state? {S T A : Type} : Progress S T A → Option S
  | wait => none
  | next s _ => some s
  | done s _ => some s

variable {ρ : Type}

/-- The session at a seat is closed, if it is there and open. -/
def Change.closing (r : Registry ρ) (seat : Nat) : Change ρ :=
  match r.session? seat with
  | some s => if s.isClosed then .nothing else .close seat
  | none => .nothing

/-- What the next step of a release changes. -/
def Release.change (r : Registry ρ) (seat : Nat) : Release → Change ρ
  | queue => .submit seat false .release
  | shutdown => .shutdown seat
  | beginAwaitEnd => .awaitEnd seat
  | forget =>
    match r.session? seat with
    | some s => .forget s.id
    | none => .nothing
  | _ => .nothing

/-- What the next step of a close changes. -/
def Closing.change (r : Registry ρ) : Closing → Change ρ
  | begin seat => .closing r seat
  | release seat stage => stage.change r seat
  | _ => .nothing

/-- What the next step of a termination changes. -/
def Termination.change (r : Registry ρ) (id : String) : Termination → Change ρ
  | begin seat => .closing r seat
  | forget _ _ => .forget id
  | queue seat => .submit seat false .release
  | shutdown seat => .shutdown seat
  | _ => .nothing

/-- What the next step of a start changes. -/
def Creation.change (r : Registry ρ) : Creation → Change ρ
  | enter metadata => if r.isFull then .nothing else .register metadata
  | awaitReady _ => .nothing
  | beginClose seat _ => .closing r seat
  | shutdown seat _ => .shutdown seat
  | remove seat _ =>
    match r.session? seat with
    | some s => .remove s.id
    | none => .nothing

/-- The sweep closes the session at a seat when it comes to it. -/
def Registry.condemns (r : Registry ρ) (seat : Nat) : Bool :=
  match r.session? seat with
  | some s => !s.isClosed && s.isDue r.settings.idleTimeout r.now
  | none => false

/-- The sweep closes the session at a seat after its second look at the worker there, the first one
having found that nothing waits. -/
def Registry.convicts (r : Registry ρ) (seat : Nat) : Bool :=
  match r.session? seat with
  | some s => !s.isClosed && !s.worker.busy && s.isStale r.settings.idleTimeout r.now
  | none => false

/-- What the next step of a sweep changes. -/
def Sweep.change (r : Registry ρ) : Sweep → Change ρ
  | judge (seat :: _) _ => if r.condemns seat then .close seat else .nothing
  | weigh seat _ _ => if r.convicts seat then .close seat else .nothing
  | release seat stage _ _ => stage.change r seat
  | _ => .nothing

/-- The part of the work that a task is at.  The same parts occur in tasks of many kinds. -/
inductive Part where
  | create (stage : Creation)
  | close (stage : Closing)
  | terminate (id : String) (stage : Termination)
  | sweep (stage : Sweep)
  /-- A job is queued for the worker at a seat. -/
  | enter (info : ToolInfo) (arguments : Json) (seat : Nat)
  /-- Nothing that touches a session. -/
  | idle

/-- What the next step of a part changes. -/
def Part.change (r : Registry ρ) : Part → Change ρ
  | create stage => stage.change r
  | close stage => stage.change r
  | terminate id stage => stage.change r id
  | sweep stage => stage.change r
  | enter info arguments seat => .submit seat true (.tool info arguments)
  | idle => .nothing

/-- The part that a call is at. -/
def CallStage.part (c : Call) : CallStage → Part
  | close _ stage => .close stage
  | terminate id stage => .terminate id stage
  | create stage => .create stage
  | enter info _ seat =>
    if info.name == "session_info" || (Tool.planner? info.name).isNone then .idle
    else .enter info c.arguments seat
  | closeFaulted _ stage => .close stage
  | _ => .idle

/-- A call that brings a job is at a part of its own. -/
theorem CallStage.part_enter {c : Call} {info : ToolInfo} {id : String} {seat : Nat}
    (hn : info.name ≠ "session_info") (hp : (Tool.planner? info.name).isSome = true) :
    (enter info id seat).part c = .enter info c.arguments seat := by
  rw [part, if_neg]
  simp [hn, Option.isSome_iff_ne_none.mp hp]

/-- The part that a task is at. -/
def Task.part : Task → Part
  | create stage => .create stage
  | close _ stage => .close stage
  | terminate id stage => .terminate id stage
  | sweep stage => .sweep stage
  | shutdown (.close _ stage _) => .close stage
  | call c stage => stage.part c
  | patrol (.sweeping stage) _ => .sweep stage
  | _ => .idle

/-- What the next step of a task changes. -/
def Task.change (r : Registry ρ) (t : Task) : Change ρ := t.part.change r

/-- What the end of a limited wait changes: a call that gives up suspects its session. -/
def Task.lapse : Task → Change ρ
  | call _ (.await _ seat _ _) => .suspect seat
  | _ => .nothing

/-! ## 3. Who makes which change -/

/-- A change that a task makes: not a step of a worker, nor the passing of time. -/
def Change.isAsked : Change ρ → Bool
  | work _ _ => false
  | pass _ => false
  | _ => true

/-- A change with which a session is brought to its end. -/
def Change.isClosing : Change ρ → Bool
  | nothing => true
  | close _ => true
  | submit _ false .release => true
  | shutdown _ => true
  | awaitEnd _ => true
  | forget _ => true
  | _ => false

section Makers

variable (r : Registry ρ)

theorem Change.isClosing_closing (seat : Nat) : (Change.closing r seat).isClosing = true := by
  unfold closing
  split
  · split <;> rfl
  · rfl

theorem Release.isClosing_change (seat : Nat) (stage : Release) :
    (stage.change r seat).isClosing = true := by
  unfold change
  split
  · rfl
  · rfl
  · rfl
  · split <;> rfl
  · rfl

theorem Closing.isClosing_change (stage : Closing) : (stage.change r).isClosing = true := by
  unfold change
  split
  · exact Change.isClosing_closing r _
  · exact Release.isClosing_change r _ _
  · rfl

theorem Termination.isClosing_change (id : String) (stage : Termination) :
    (stage.change r id).isClosing = true := by
  unfold change
  split
  · exact Change.isClosing_closing r _
  · rfl
  · rfl
  · rfl
  · rfl

theorem Sweep.isClosing_change (stage : Sweep) : (stage.change r).isClosing = true := by
  unfold change
  split
  · split <;> rfl
  · split <;> rfl
  · exact Release.isClosing_change r _ _
  · rfl

/-- **Who makes which change**: a start registers its session and takes it off the list, a call
queues its job, and all else is done to bring sessions to their end. -/
theorem Part.change_cases (p : Part) :
    (p.change r).isClosing = true ∨
      (∃ metadata, p = .create (.enter metadata) ∧ r.isFull = false ∧
        p.change r = .register metadata) ∨
      (∃ seat reason s, p = .create (.remove seat reason) ∧ r.session? seat = some s ∧
        p.change r = .remove s.id) ∨
      ∃ info arguments seat, p = .enter info arguments seat ∧
        p.change r = .submit seat true (.tool info arguments) := by
  cases p with
  | create stage =>
    cases stage with
    | enter metadata =>
      rcases Bool.eq_false_or_eq_true r.isFull with hf | hf
      · exact Or.inl (by simp [change, Creation.change, hf, Change.isClosing])
      · exact Or.inr (Or.inl ⟨metadata, rfl, hf, by simp [change, Creation.change, hf]⟩)
    | awaitReady seat => exact Or.inl rfl
    | beginClose seat reason => exact Or.inl (Change.isClosing_closing r seat)
    | shutdown seat reason => exact Or.inl rfl
    | remove seat reason =>
      cases hs : r.session? seat with
      | none => exact Or.inl (by simp [change, Creation.change, hs, Change.isClosing])
      | some s =>
        exact Or.inr (Or.inr (Or.inl
          ⟨seat, reason, s, rfl, hs, by simp [change, Creation.change, hs]⟩))
  | close stage => exact Or.inl (stage.isClosing_change r)
  | terminate id stage => exact Or.inl (stage.isClosing_change r id)
  | sweep stage => exact Or.inl (stage.isClosing_change r)
  | enter info arguments seat => exact Or.inr (Or.inr (Or.inr ⟨info, arguments, seat, rfl, rfl⟩))
  | idle => exact Or.inl rfl

theorem Part.isAsked_change (p : Part) : (p.change r).isAsked = true := by
  rcases p.change_cases r with h | ⟨metadata, -, -, h⟩ | ⟨seat, reason, s, -, -, h⟩ |
    ⟨info, arguments, seat, -, h⟩
  · generalize p.change r = c at h ⊢
    cases c <;> first | rfl | cases h
  · rw [h]
    rfl
  · rw [h]
    rfl
  · rw [h]
    rfl

end Makers

theorem Task.isAsked_lapse (t : Task) : (t.lapse : Change ρ).isAsked = true := by
  unfold lapse
  split <;> rfl

/-! ## 4. The steps of tasks -/

namespace Registry

theorem after_of_seat? {r : Registry ρ} {seat : Nat} {c : Change ρ} (hc : c.seat? = some seat) :
    r.after c = r.update seat (c.on r.now) := by
  cases c <;> cases hc <;> rfl

/-- A change that is about no session is none. -/
theorem after_of_vacant {r : Registry ρ} {seat : Nat} {c : Change ρ} (hc : c.seat? = some seat)
    (h : r.session? seat = none) : r.after c = r := by
  rw [after_of_seat? hc]
  simp [update, h]

/-- A change to a session that is there. -/
theorem after_of_session {r : Registry ρ} {seat : Nat} {s : Session ρ} {c : Change ρ}
    (hc : c.seat? = some seat) (h : r.session? seat = some s) :
    r.after c = r.put seat (c.on r.now s) := by
  rw [after_of_seat? hc, update_of_some _ h]

end Registry

/-- Closing a session that is closed changes nothing. -/
theorem after_closing {r : Registry ρ} {seat : Nat} {s : Session ρ}
    (h : r.session? seat = some s) : r.after (.closing r seat) = r.put seat s.beginClose.1 := by
  unfold Change.closing
  rw [h]
  simp only
  split
  · rename_i hc
    rw [show s.beginClose.1 = s by simp [Session.beginClose, hc]]
    exact (Registry.put_self h).symm
  · exact Registry.after_of_session rfl h

/-- An operation that is refused changes nothing. -/
theorem after_submit_of_error {r : Registry ρ} {seat : Nat} {s : Session ρ} {bounded : Bool}
    {job : Job} {w : Worker ρ Job JobAnswer} {e : WorkerError} (h : r.session? seat = some s)
    (he : s.worker.submit bounded job = (w, .error e)) :
    r.after (.submit seat bounded job) = r := by
  have hw : w = s.worker := by
    rw [Worker.submit_eq] at he
    split at he <;> cases he
    rfl
  rw [Registry.after_of_session rfl h]
  simp only [Change.on, he, hw]
  exact Registry.put_self h

theorem Release.state?_step {r r' : Registry ρ} {seat : Nat} {stage : Release}
    (h : (stage.step r seat).state? = some r') : r' = r.after (stage.change r seat) := by
  have hsteps := Release.steps_of_step (rfl : stage.step r seat = _)
  generalize stage.step r seat = p at h hsteps
  cases hsteps with
  | vacant hs =>
    cases h
    cases stage with
    | queue => exact (Registry.after_of_vacant rfl hs).symm
    | awaitAnswer ticket => rfl
    | shutdown => exact (Registry.after_of_vacant rfl hs).symm
    | beginAwaitEnd => exact (Registry.after_of_vacant rfl hs).symm
    | awaitEnd => rfl
    | forget => simp [change, hs, Registry.after, Change.seat?]
  | refused hs hw =>
    cases h
    exact (after_submit_of_error hs hw).symm
  | queued hs hw =>
    cases h
    rw [change, Registry.after_of_session rfl hs]
    simp only [Change.on, hw]
  | unanswered _ _ | lives _ _ => cases h
  | answered _ _ | ended _ _ =>
    cases h
    rfl
  | shutDown hs =>
    cases h
    rw [change, Registry.after_of_session rfl hs]
    rfl
  | @awaited s hs ha =>
    cases h
    have hsame : Change.on r.now (.awaitEnd seat) s = s := by
      simp [Change.on, Worker.awaitEnd, ← ha]
    rw [change, Registry.after_of_session rfl hs, hsame, Registry.put_self hs]
  | awaits hs ha =>
    cases h
    rw [change, Registry.after_of_session rfl hs]
    rfl
  | forgotten hs =>
    cases h
    simp only [change, hs]
    rfl

theorem Closing.state?_step {r r' : Registry ρ} {id : String} {stage : Closing}
    (h : (stage.step r id).state? = some r') : r' = r.after (stage.change r) := by
  have hsteps := Closing.steps_of_step (rfl : stage.step r id = _)
  generalize stage.step r id = p at h hsteps
  cases hsteps with
  | vacant hs =>
    cases h
    simp [change, Change.closing, hs, Registry.after, Change.seat?]
  | @second seat s hs hc =>
    cases h
    rw [change, after_closing hs, show s.beginClose.1 = s by simp [Session.beginClose, hc]]
    exact (Registry.put_self hs).symm
  | won hs hc =>
    cases h
    exact (after_closing hs).symm
  | waits hr => cases h
  | releases hr | released hr =>
    cases h
    exact Release.state?_step (by rw [hr]; rfl)
  | _ =>
    cases h
    rfl

theorem Termination.state?_step {r r' : Registry ρ} {id : String} {stage : Termination}
    (h : (stage.step r id).state? = some r') : r' = r.after (stage.change r id) := by
  have hsteps := Termination.steps_of_step (rfl : stage.step r id = _)
  generalize stage.step r id = p at h hsteps
  cases hsteps with
  | vacant hs =>
    cases h
    simp [change, Change.closing, hs, Registry.after, Change.seat?]
  | closed hs =>
    cases h
    exact (after_closing hs).symm
  | _ =>
    cases h
    rfl

theorem Creation.state?_step {r r' : Registry ρ} {stage : Creation}
    (h : (stage.step r).state? = some r') : r' = r.after (stage.change r) := by
  have hsteps := Creation.steps_of_step (rfl : stage.step r = _)
  generalize stage.step r = p at h hsteps
  cases hsteps with
  | full hf =>
    cases h
    simp [change, hf, Registry.after, Change.seat?]
  | registered hf =>
    cases h
    simp [change, hf, Registry.after]
  | unseated _ | building _ _ => cases h
  | closed seat reason =>
    cases h
    cases hs : r.session? seat with
    | none => simp [change, Change.closing, hs, Registry.after, Change.seat?, Registry.update]
    | some s => rw [change, after_closing hs, Registry.update_of_some _ hs]
  | vacant hs | removed hs =>
    cases h
    simp only [change, hs]
    rfl
  | _ =>
    cases h
    rfl

theorem Sweep.state?_step {r r' : Registry ρ} {stage : Sweep}
    (h : (stage.step r).state? = some r') : r' = r.after (stage.change r) := by
  have hsteps := Sweep.steps_of_step (rfl : stage.step r = _)
  generalize stage.step r = p at h hsteps
  cases hsteps with
  | scanned | finished _ =>
    cases h
    rfl
  | vacant hs =>
    cases h
    simp [change, Registry.condemns, hs, Registry.after, Change.seat?]
  | spared hs hd =>
    cases h
    simp [change, Registry.condemns, hs, hd, Registry.after, Change.seat?]
  | condemned hs hd =>
    cases h
    simp only [change, Registry.condemns, hs, hd, if_true]
    rw [Registry.after_of_session rfl hs]
    rfl
  | vanished hs =>
    cases h
    simp [change, Registry.convicts, hs, Registry.after, Change.seat?]
  | acquitted hs hd =>
    cases h
    simp [change, Registry.convicts, hs, hd, Registry.after, Change.seat?]
  | convicted hs hd =>
    cases h
    simp only [change, Registry.convicts, hs, hd, if_true]
    rw [Registry.after_of_session rfl hs]
    rfl
  | waits hr => cases h
  | releases hr | released hr _ | lost hr _ =>
    cases h
    exact Release.state?_step (by rw [hr]; rfl)

theorem CallStage.state?_step {r r' : Registry ρ} {standard : Duration} {c : Call}
    {stage : CallStage} (h : (stage.step r standard c).state? = some r') :
    r' = r.after ((stage.part c).change r) := by
  have hsteps := CallStage.steps_of_step (rfl : stage.step r standard c = _)
  generalize stage.step r standard c = p at h hsteps
  cases hsteps with
  | closeWaits _ | terminateWaits _ | createWaits _ | closeFaultedWaits _ | unanswered _ _ =>
    cases h
  | close hc | closed hc | closeFailed hc | closeFaulted hc | faulted hc =>
    cases h
    exact Closing.state?_step (by rw [hc]; rfl)
  | terminate ht | terminated ht | terminateFailed ht =>
    cases h
    exact Termination.state?_step (by rw [ht]; rfl)
  | create hc | created hc | createFailed hc =>
    cases h
    exact Creation.state?_step (by rw [hc]; rfl)
  | lostBehind hs =>
    cases h
    simp only [part]
    split
    · rfl
    · exact (Registry.after_of_vacant rfl hs).symm
  | told hs hn =>
    cases h
    simp [part, hn, Part.change, Registry.after, Change.seat?]
  | unplanned hs hn hp =>
    cases h
    simp [part, hp, Part.change, Registry.after, Change.seat?]
  | queued hs hn hp hw =>
    cases h
    rw [part_enter hn hp, Part.change, Registry.after_of_session rfl hs]
    simp only [Change.on, hw]
  | refused hs hn hp hw | rejected hs hn hp hw _ =>
    cases h
    rw [part_enter hn hp]
    exact (after_submit_of_error hs hw).symm
  | _ =>
    cases h
    rfl

theorem Task.state?_patrol {r r' : Registry ρ} {stage : Patrol} {calledOff : Bool}
    (h : (stage.step r).state? = some r') :
    r' = r.after ((Task.patrol stage calledOff).change r) := by
  have hsteps := Patrol.steps_of_step (rfl : stage.step r = _)
  generalize stage.step r = p at h hsteps
  cases hsteps with
  | rests | waits _ => cases h
  | sweeps hs | swept hs =>
    cases h
    exact Sweep.state?_step (by rw [hs]; rfl)

theorem Task.state?_shutdown {r r' : Registry ρ} {stage : Shutdown}
    (h : (stage.step r).state? = some r') : r' = r.after ((Task.shutdown stage).change r) := by
  have hsteps := Shutdown.steps_of_step (rfl : stage.step r = _)
  generalize stage.step r = p at h hsteps
  cases hsteps with
  | waits hc => cases h
  | closes hc | closed hc =>
    cases h
    exact Closing.state?_step (by rw [hc]; rfl)
  | _ =>
    cases h
    rfl

end Workbench
