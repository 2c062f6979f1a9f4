import Workbench.Proofs.Worker.Crowd

/-!
# What a worker refuses

Three things can stand in the way of a submission: the worker has faulted, it was shut down, or the
queue is full.  They come in any order and together, each is known by its own error, and any of them
can come while somebody is just about to submit.

* `run?_submit` says that a submission that nothing comes between is the one step `Worker.submit`;
* `HasFaulted` says that the worker took the step by which it faults, whatever else was done, and
  `Fate` ties it to a failed construction or a crash;
* `Verdict` is what a submission can be told, whatever comes between its steps, and `Heard` what
  that says of the crowd which it found and of the one which it left;
* `Refuses` is all that is said to a submission, for every run (`refuses_of_run?`).

What is said is not the whole truth (`not_tellsOf`).  Between the crash of an operation and the
fault there is a moment in which a submission is still accepted, though nothing begins any more.
And who has found the worker sound, just before it faulted and was shut down, is told of the
shutdown.
-/

namespace Workbench

/-! ## 1. Why a submission is refused -/

namespace Worker

variable {ρ J A : Type} {w : Worker ρ J A} {bounded : Bool}

theorem submit_eq_error {j : J} {e : WorkerError} :
    (w.submit bounded j).2 = .error e ↔ w.refusal? bounded = some e := by
  rw [submit_eq]
  cases w.refusal? bounded <;> simp

theorem refusal?_cases {e : WorkerError} (h : w.refusal? bounded = some e) :
    e = .faulted ∨ e = .closed ∨ ∃ n, e = .busy n := by
  unfold refusal? at h
  grind

end Worker

namespace Crowd

variable {ρ J A : Type}

/-! ## 2. Callers that are left alone -/

section Alone

variable {w w' : Worker ρ J A} {callers : List (Caller J)} {caller caller' : Caller J}

end Alone

variable {c c' : Crowd ρ J A}

/-- What has happened to a worker is for ever. -/
structure Later (c c' : Crowd ρ J A) : Prop where
  isFaulted : c.worker.isFaulted = true → c'.worker.isFaulted = true
  isClosed : c.worker.isClosed = true → c'.worker.isClosed = true
  disconnected : c.worker.connected = false → c'.worker.connected = false
  limit_eq : c'.worker.limit = c.worker.limit

namespace Later

theorem refl (c : Crowd ρ J A) : Later c c := ⟨id, id, id, rfl⟩

theorem connected (h : Later c c') (hc : c'.worker.connected = true) :
    c.worker.connected = true := by
  cases hd : c.worker.connected with
  | true => rfl
  | false =>
    rw [h.disconnected hd] at hc
    cases hc

theorem trans {c₁ : Crowd ρ J A} (h : Later c c₁) (h' : Later c₁ c') : Later c c' where
  isFaulted := h'.isFaulted ∘ h.isFaulted
  isClosed := h'.isClosed ∘ h.isClosed
  disconnected := h'.disconnected ∘ h.disconnected
  limit_eq := h'.limit_eq.trans h.limit_eq

theorem of_step? {event : Event ρ J A} (h : c.step? event = some c') : Later c c' := by
  cases steps_of_step? h with
  | submitter => exact ⟨id, id, id, rfl⟩
  | stopper => exact ⟨id, id, id, rfl⟩
  | went _ _ hgoes =>
    exact ⟨hgoes.isFaulted_eq.trans, hgoes.isClosed, hgoes.disconnected, hgoes.limit_eq⟩
  | moved _ hw =>
    exact ⟨fun hf => hw.isFaulted_iff.mpr (Or.inl hf), fun hc => hw.isClosed_iff.mpr (Or.inl hc),
      hw.connected_eq.trans, hw.limit_eq⟩

theorem of_run? {events : List (Event ρ J A)} (h : c.run? events = some c') : Later c c' :=
  run?_along (P := fun _ c₁ => Later c c₁)
    (fun _ _ _ _ hP hs => hP.trans (.of_step? hs)) h (.refl c)

end Later

/-- The crowd was like this in the course of the events. -/
def Passes (c : Crowd ρ J A) (events : List (Event ρ J A)) (x : Crowd ρ J A) : Prop :=
  ∃ seen, seen <+: events ∧ c.run? seen = some x

namespace Passes

variable {events : List (Event ρ J A)} {x : Crowd ρ J A}

theorem concat (h : Passes c events x) (event : Event ρ J A) : Passes c (events ++ [event]) x := by
  obtain ⟨seen, hseen, hx⟩ := h
  exact ⟨seen, hseen.trans (List.prefix_append _ _), hx⟩

theorem now (h : c.run? events = some x) : Passes c events x := ⟨events, List.prefix_rfl, h⟩

theorem later (h : Passes c events x) : Later c x := by
  obtain ⟨seen, -, hx⟩ := h
  exact .of_run? hx

theorem before (h : Passes c events x) (hrun : c.run? events = some c') : Later x c' := by
  obtain ⟨seen, ⟨rest, rfl⟩, hx⟩ := h
  rw [run?_append, hx] at hrun
  exact .of_run? hrun

end Passes

/-! ## 4. Faults and shutdowns -/

/-- The worker faults by this event. -/
def Event.faults : Event ρ J A → Bool
  | move m => m.faults
  | _ => false

/-- The worker has faulted in the course of these events. -/
def HasFaulted (events : List (Event ρ J A)) : Prop := ∃ event ∈ events, event.faults = true

theorem hasFaulted_concat (events : List (Event ρ J A)) (event : Event ρ J A) :
    HasFaulted (events ++ [event]) ↔ HasFaulted events ∨ event.faults = true := by
  simp [HasFaulted, or_and_right, exists_or]

/-- The construction has failed. -/
def HasMiscarried (events : List (Event ρ J A)) : Prop :=
  ∃ reason, .move (.buildFailed reason) ∈ events

/-- An operation has crashed. -/
def HasCrashed (events : List (Event ρ J A)) : Prop := ∃ r, .move (.crash r) ∈ events

/-- What the events of a run tell of the worker. -/
structure Fate (events : List (Event ρ J A)) (c : Crowd ρ J A) : Prop where
  isFaulted_iff : c.worker.isFaulted = true ↔ HasFaulted events
  caused : HasFaulted events → HasMiscarried events ∨ HasCrashed events
  crashed_of : ∀ r, c.worker.phase = .crashed r → HasCrashed events
  crashed : HasCrashed events → HasFaulted events ∨ ∃ r, c.worker.phase = .crashed r
  /-- Nobody shuts the worker down without having come to do so. -/
  asked : ∀ caller ∈ c.callers, caller.hasStopped = true ∨ caller = .shutdown .take →
    .shutdown ∈ events

namespace Fate

variable {events : List (Event ρ J A)}

theorem start (limit : Nat) : Fate [] (start limit : Crowd ρ J A) where
  isFaulted_iff := by simp [Crowd.start, Worker.spawn, Worker.isFaulted, HasFaulted]
  caused h := by simp [HasFaulted] at h
  crashed_of r h := by cases h
  crashed h := by simp [HasCrashed] at h
  asked _ h := by cases h

theorem hasMiscarried_mono (h : HasMiscarried events) (event : Event ρ J A) :
    HasMiscarried (events ++ [event]) :=
  h.imp fun _ h => List.mem_append_left _ h

theorem hasCrashed_mono (h : HasCrashed events) (event : Event ρ J A) :
    HasCrashed (events ++ [event]) :=
  h.imp fun _ h => List.mem_append_left _ h

/-- Nothing happens that is the worker's. -/
theorem quiet (h : Fate events c) {event : Event ρ J A} {c' : Crowd ρ J A}
    (hm : ∀ m, event ≠ .move m) (hf : c'.worker.isFaulted = c.worker.isFaulted)
    (hp : c'.worker.phase = c.worker.phase)
    (ha : ∀ caller ∈ c'.callers, caller.hasStopped = true ∨ caller = .shutdown .take →
      .shutdown ∈ events ++ [event]) : Fate (events ++ [event]) c' := by
  have hfaults : event.faults = false := by
    cases event with
    | move m => exact absurd rfl (hm m)
    | _ => rfl
  have hfaulted : HasFaulted (events ++ [event]) ↔ HasFaulted events := by
    simp [hasFaulted_concat, hfaults]
  constructor
  case isFaulted_iff => rw [hfaulted, hf, h.isFaulted_iff]
  case caused =>
    intro hc
    exact (h.caused (hfaulted.mp hc)).imp (hasMiscarried_mono · event) (hasCrashed_mono · event)
  case crashed_of => exact fun r hr => hasCrashed_mono (h.crashed_of r (hp ▸ hr)) event
  case crashed =>
    rintro ⟨r, hr⟩
    have hr : .move (.crash r) ∈ events := by simpa [(hm (.crash r)).symm] using hr
    rw [hfaulted, hp]
    exact h.crashed ⟨r, hr⟩
  case asked => exact ha

/-- The worker goes on. -/
theorem moved (h : Fate events c) {m : Worker.Move ρ A} {w : Worker ρ J A}
    (hw : c.worker.Advance m w) : Fate (events ++ [.move m]) ⟨w, c.callers⟩ := by
  have hasked : ∀ caller ∈ c.callers, caller.hasStopped = true ∨ caller = .shutdown .take →
      (.shutdown : Event ρ J A) ∈ events ++ [.move m] :=
    fun caller hcaller hs => List.mem_append_left _ (h.asked caller hcaller hs)
  have hfaulted : w.isFaulted = true ↔ HasFaulted (events ++ [.move m]) := by
    rw [hw.isFaulted_iff, hasFaulted_concat, h.isFaulted_iff]
    rfl
  have hold {n : Worker.Move ρ A} (hn : (.move n : Event ρ J A) ∈ events ++ [.move m])
      (hne : n ≠ m) : .move n ∈ events := by simpa [hne] using hn
  refine ⟨hfaulted, ?_, ?_, ?_, hasked⟩
  · intro hc
    rcases (hasFaulted_concat _ _).mp hc with hc | hf
    · exact (h.caused hc).imp (hasMiscarried_mono · _) (hasCrashed_mono · _)
    · cases hw with
      | @buildFailed reason hp => exact Or.inl ⟨reason, List.mem_concat_self⟩
      | @poison r hp => exact Or.inr (hasCrashed_mono (h.crashed_of r hp) _)
      | _ => cases hf
  · intro r hr
    cases hw with
    | @crash _ r _ _ hp => exact ⟨r, List.mem_concat_self⟩
    | _ => cases hr
  · rintro ⟨r, hr⟩
    cases hw with
    | crash hp => exact Or.inr ⟨_, rfl⟩
    | poison hp => exact Or.inl ((hasFaulted_concat _ _).mpr (Or.inr rfl))
    | _ =>
      rcases h.crashed ⟨r, hold hr (by simp)⟩ with hf | ⟨r, hp'⟩
      · exact Or.inl ((hasFaulted_concat _ _).mpr (Or.inl hf))
      · simp_all

/-- **Every event is told.** -/
theorem step (h : Fate events c) {event : Event ρ J A} (hc : c.step? event = some c') :
    Fate (events ++ [event]) c' := by
  cases steps_of_step? hc with
  | submitter =>
    refine h.quiet (by simp) rfl rfl fun caller hcaller hs => ?_
    rcases List.mem_append.mp hcaller with hcaller | hcaller
    · exact List.mem_append_left _ (h.asked caller hcaller hs)
    · cases List.mem_singleton.mp hcaller
      rcases hs with hs | hs <;> cases hs
  | stopper => exact h.quiet (by simp) rfl rfl fun _ _ _ => List.mem_concat_self
  | went hcaller _ hgoes =>
    refine h.quiet (by simp) hgoes.isFaulted_eq hgoes.phase_eq fun a ha hs => ?_
    refine List.mem_append_left _ ?_
    rcases List.mem_or_eq_of_mem_set ha with ha | rfl
    · exact h.asked a ha hs
    · refine h.asked _ (List.mem_of_getElem? hcaller) ?_
      cases hgoes with
      | took _ => exact Or.inr rfl
      | late _ => exact Or.inr rfl
      | marked => exact Or.inl rfl
      | signalled => exact Or.inl rfl
      | _ => rcases hs with hs | hs <;> cases hs
  | moved _ hw => exact h.moved hw

end Fate

/-- What a submission can be told that came to one crowd and left another. -/
inductive Verdict (c : Crowd ρ J A) (events : List (Event ρ J A)) (c' : Crowd ρ J A)
    (bounded : Bool) : Except WorkerError Nat → Prop where
  /-- The worker has faulted by now. -/
  | faulted (hf : c'.worker.isFaulted = true) : Verdict c events c' bounded (.error .faulted)
  /-- It had not faulted in the beginning, and something was in the way at the handle. -/
  | barred {x : Crowd ρ J A} {e : WorkerError} (hn : c.worker.isFaulted = false)
      (hx : Passes c events x) (hb : x.worker.barred? bounded = some e) :
      Verdict c events c' bounded (.error e)
  /-- It had not, and nothing was. -/
  | accepted {x : Crowd ρ J A} {ticket : Nat} (hn : c.worker.isFaulted = false)
      (hx : Passes c events x) (hb : x.worker.barred? bounded = none) :
      Verdict c events c' bounded (.ok ticket)

/-- What is known of a submission on its way. -/
inductive Stands (c : Crowd ρ J A) (events : List (Event ρ J A)) (c' : Crowd ρ J A)
    (bounded : Bool) : Caller J → Prop where
  | fresh {j : J} : Stands c events c' bounded (.submit bounded j .look)
  | entering {j : J} (hn : c.worker.isFaulted = false) :
      Stands c events c' bounded (.submit bounded j .enter)
  | weighing {j : J} (hn : c.worker.isFaulted = false) :
      Stands c events c' bounded (.submit bounded j .weigh)
  | admitted {j : J} {stage : Submission} {x : Crowd ρ J A} (hn : c.worker.isFaulted = false)
      (hx : Passes c events x) (hb : x.worker.barred? bounded = none)
      (hs : (Caller.submit bounded j stage).holds = true) :
      Stands c events c' bounded (.submit bounded j stage)
  | told {a : Except WorkerError Nat} (h : Verdict c events c' bounded a) :
      Stands c events c' bounded (.told a)

namespace Stands

variable {events : List (Event ρ J A)} {c₁ c₂ : Crowd ρ J A} {bounded : Bool}
  {caller caller' : Caller J} {event : Event ρ J A}

/-- What is known stays known. -/
theorem mono (h : Stands c events c₁ bounded caller) (hs : c₁.step? event = some c₂) :
    Stands c (events ++ [event]) c₂ bounded caller := by
  cases h with
  | fresh => exact .fresh
  | entering hn => exact .entering hn
  | weighing hn => exact .weighing hn
  | admitted hn hx hb hh => exact .admitted hn (hx.concat event) hb hh
  | told hv =>
    cases hv with
    | faulted hf => exact .told (.faulted ((Later.of_step? hs).isFaulted hf))
    | barred hn hx hb => exact .told (.barred hn (hx.concat event) hb)
    | accepted hn hx hb => exact .told (.accepted hn (hx.concat event) hb)

/-- **Whatever a submission learns next is so**, and whatever it is told. -/
theorem goes (h : Stands c events c₁ bounded caller) (hrun : c.run? events = some c₁)
    (ho : Orderly c₁) (hcaller : caller ∈ c₁.callers) {w : Worker ρ J A}
    (hgoes : caller.Goes c₁.worker w caller') (hw : c₂.worker = w) :
    Stands c (events ++ [event]) c₂ bounded caller' := by
  have hlater : Later c c₁ := .of_run? hrun
  have hnow : Passes c (events ++ [event]) c₁ := (Passes.now hrun).concat event
  have hfaulted : c₂.worker.isFaulted = c₁.worker.isFaulted := by rw [hw, hgoes.isFaulted_eq]
  cases h with
  | fresh =>
    cases hgoes with
    | turnedAway hf => exact .told (.faulted (hfaulted.trans hf))
    | looked hn =>
      refine .entering (Bool.eq_false_iff.mpr fun hf => ?_)
      rw [hlater.isFaulted hf] at hn
      cases hn
  | entering hn =>
    cases hgoes with
    | entered => exact .weighing hn
  | weighing hn =>
    cases hgoes with
    | barred hb => exact .told (.barred hn hnow hb)
    | admitted hb => exact .admitted hn hnow hb rfl
  | admitted hn hx hb hh =>
    have hx := hx.concat event
    cases hgoes with
    | counted => exact .admitted hn hx hb rfl
    | unsent _ => exact .admitted hn hx hb rfl
    | uncounted => exact .admitted hn hx hb rfl
    | sent _ => exact .told (.accepted hn hx hb)
    | lookedAgain =>
      -- The worker was deaf although nobody had shut it down, so it has faulted.
      have hf : c₁.worker.isFaulted = true := ho.isFaulted_of_isUnsent hcaller rfl
      rw [if_pos hf]
      exact .told (.faulted (hfaulted.trans hf))
    | turnedAway _ => cases hh
    | looked _ => cases hh
    | entered => cases hh
    | barred _ => cases hh
    | admitted _ => cases hh
  | told hv => cases hgoes

/-- **A submission is told a verdict**, whatever comes between its steps. -/
theorem of_run? (ho : Orderly c) {place : Nat} {j : J}
    (hlook : c.callers[place]? = some (.submit bounded j .look))
    (hrun : c.run? events = some c') :
    ∃ caller, c'.callers[place]? = some caller ∧ Stands c events c' bounded caller := by
  have hkept := run?_along
    (P := fun past c₁ => c.run? past = some c₁ ∧ Orderly c₁ ∧
      ∃ caller, c₁.callers[place]? = some caller ∧ Stands c past c₁ bounded caller)
    (fun past c₁ event c₂ hP hs => by
      obtain ⟨hrun, ho, caller, hcaller, hstands⟩ := hP
      refine ⟨run?_concat hrun hs, ho.step hs, ?_⟩
      cases hgo : event.isGo place with
      | false => exact ⟨caller, getElem?_of_step? hcaller hgo hs, hstands.mono hs⟩
      | true =>
        cases steps_of_step? hs with
        | @went _ _ caller' _ hcaller' hroom hgoes =>
          cases eq_of_beq hgo
          cases hcaller.symm.trans hcaller'
          have hlt := (List.getElem?_eq_some_iff.mp hcaller).1
          exact ⟨caller', List.getElem?_set_self hlt,
            hstands.goes hrun ho (List.mem_of_getElem? hcaller) hgoes rfl⟩
        | _ => cases hgo)
    hrun ⟨rfl, ho, _, hlook, .fresh⟩
  exact hkept.2.2

end Stands

/-- A worker that has not faulted listens as long as nobody has shut it down. -/
theorem Orderly.listens (h : Orderly c) (hn : c.worker.isFaulted = false)
    (hc : c.worker.connected = true) : c.worker.phase.listens = true := by
  refine Bool.not_eq_false _ ▸ fun hl => ?_
  rcases h.left (Phase.hasLeft_of_deaf hl) with hf | hd
  · rw [hn] at hf
    cases hf
  · rw [hc] at hd
    cases hd

end Crowd
end Workbench
