import Workbench.Proofs.Engine.Trace

/-!
# Who has to do with the end of a session

Closes, terminations, sweeps, failed starts and calls that found a fault all want to close the same
session.  Whoever moves it to its closed state owes its release; the debt is paid with the attempt
to queue the release, and what else there is to do comes after that.

* `Hold` is what a task has to do with the end of the session at a seat;
* `Dealing` lists what a turn of a task can do to it, and `Dealing.of_goes` says that every turn of
  every task is one of these, with one lemma for each kind of work.
-/

namespace Workbench

variable {ρ : Type}

/-! ## 1. What a task has to do with it -/

/-- What a task has to do with the end of a session. -/
inductive Hold where
  | free
  /-- The task has closed the session, and not tried to queue its release yet. -/
  | owing
  /-- The task has tried to queue the release, and is winding up. -/
  | paid
  /-- The session has no resource, and its start is winding up. -/
  | failing
  deriving DecidableEq

/-- What the release of a session has still to do with it. -/
def Release.hold : Release → Hold
  | queue => .owing
  | _ => .paid

/-- What a part has to do with the end of the session at a seat. -/
def Part.hold (k : Nat) : Part → Hold
  | create stage =>
    match stage with
    | .beginClose seat _ => if seat = k then .failing else .free
    | .shutdown seat _ => if seat = k then .failing else .free
    | .remove seat _ => if seat = k then .failing else .free
    | _ => .free
  | close (.release seat stage) => if seat = k then stage.hold else .free
  | sweep (.release seat stage _ _) => if seat = k then stage.hold else .free
  | terminate _ stage =>
    match stage with
    | .forget seat true => if seat = k then .owing else .free
    | .queue seat => if seat = k then .owing else .free
    | .shutdown seat => if seat = k then .paid else .free
    | _ => .free
  | _ => .free

/-- The change does not touch the end of the session at a seat. -/
structure Change.Quiet (k : Nat) (c : Change ρ) : Prop where
  close : c ≠ .close k
  submit : ∀ job, c ≠ .submit k false job
  shutdown : c ≠ .shutdown k

/-- What a turn of a task can do to the end of the session at a seat: `h` and `h'` are what the task
has to do with it before and after, and `o` is the session, if it is there. -/
inductive Dealing (k : Nat) (o : Option (Session ρ)) : Hold → Change ρ → Hold → Prop where
  /-- The session is left alone.  The task stays as it was, or is through with it, or finds out that
  its start has failed. -/
  | quiet {h h' : Hold} {c : Change ρ} (hc : c.Quiet k)
      (hh : h' = h ∨ (h ≠ .owing ∧ h' = .free) ∨ (h = .free ∧ h' = .failing ∧
        ∃ s reason, o = some s ∧ s.worker.readiness = .failed reason)) : Dealing k o h c h'
  /-- The task closes the session. -/
  | wins {s : Session ρ} (hs : o = some s) (ho : s.isClosed = false) :
      Dealing k o .free (.close k) .owing
  /-- A failed start closes the session. -/
  | fails {s : Session ρ} (hs : o = some s) (ho : s.isClosed = false) :
      Dealing k o .failing (.close k) .failing
  /-- The task tries to queue the release. -/
  | pays : Dealing k o .owing (.submit k false .release) .paid
  /-- The task asks the worker to stop. -/
  | stops {h h' : Hold} (hh : h = .paid ∨ h = .failing) (hh' : h' = h ∨ h' = .free) :
      Dealing k o h (.shutdown k) h'

/-! ## 2. Closing, and releasing -/

/-- A release that finds its session comes to its end when the session is forgotten. -/
theorem Release.forget_of_done {r r₁ : Registry ρ} {k : Nat} {s : Session ρ} {stage : Release}
    {a : Unit} (hs : r.session? k = some s) (h : stage.step r k = .done r₁ a) :
    stage = .forget := by
  cases steps_of_step h with
  | vacant hnone =>
    rw [hs] at hnone
    cases hnone
  | forgotten _ => rfl

namespace Dealing

variable {r r' : Registry ρ} {k : Nat} {o : Option (Session ρ)}

theorem quiet_nothing : (Change.nothing : Change ρ).Quiet k where
  close := by rintro ⟨⟩
  submit := by rintro job ⟨⟩
  shutdown := by rintro ⟨⟩

theorem quiet_forget (id : String) : (Change.forget id : Change ρ).Quiet k where
  close := by rintro ⟨⟩
  submit := by rintro job ⟨⟩
  shutdown := by rintro ⟨⟩

/-- A change that is about another session. -/
theorem quiet_of_seat {c : Change ρ} {seat : Nat} (hs : c.seat? = some seat) (hne : seat ≠ k) :
    c.Quiet k := by
  refine ⟨?_, fun job => ?_, ?_⟩ <;> (rintro rfl; cases hs; exact hne rfl)

/-- Who finds the session open closes it. -/
theorem of_closing (r : Registry ρ) (k seat : Nat) :
    (Change.closing r seat).Quiet k ∧
        (seat = k → ∀ s, r.session? k = some s → s.isClosed = true) ∨
      seat = k ∧ Change.closing r seat = .close k ∧
        ∃ s, r.session? k = some s ∧ s.isClosed = false := by
  unfold Change.closing
  by_cases hsame : seat = k
  · subst hsame
    cases hs : r.session? seat with
    | none => exact Or.inl ⟨quiet_nothing, fun _ s hs' => by cases hs'⟩
    | some s =>
      rcases Bool.eq_false_or_eq_true s.isClosed with hc | hc
      · refine Or.inl ⟨by simpa [hc] using quiet_nothing, fun _ s' hs' => ?_⟩
        cases hs'
        exact hc
      · exact Or.inr ⟨rfl, by simp [hc], s, rfl, hc⟩
  · refine Or.inl ⟨?_, fun he => absurd he hsame⟩
    split
    · split
      · exact quiet_nothing
      · exact quiet_of_seat rfl hsame
    · exact quiet_nothing

/-- A release of another session is none of our business. -/
theorem quiet_release (r : Registry ρ) {seat : Nat} (hne : seat ≠ k) (stage : Release) :
    (stage.change r seat).Quiet k := by
  cases stage with
  | queue => exact quiet_of_seat rfl hne
  | awaitAnswer ticket => exact quiet_nothing
  | shutdown => exact quiet_of_seat rfl hne
  | beginAwaitEnd => exact quiet_of_seat rfl hne
  | awaitEnd => exact quiet_nothing
  | forget =>
    simp only [Release.change]
    split
    · exact quiet_forget _
    · exact quiet_nothing

/-- **The release of the session pays first**, and stops the worker after that. -/
theorem of_release {s : Session ρ} (hs : r.session? k = some s) {stage : Release} :
    (∀ {stage'}, stage.step r k = .next r' stage' →
      Dealing k o stage.hold (stage.change r k) stage'.hold) ∧
    (∀ {a}, stage.step r k = .done r' a → Dealing k o stage.hold (stage.change r k) .free) := by
  have hstay : ∀ {c : Change ρ}, c.Quiet k → Dealing k o .paid c .paid :=
    fun hc => .quiet hc (Or.inl rfl)
  have hleave : ∀ {c : Change ρ}, c.Quiet k → Dealing k o .paid c .free :=
    fun hc => .quiet hc (Or.inr (Or.inl ⟨by simp, rfl⟩))
  refine ⟨fun {stage'} h => ?_, fun {a} h => ?_⟩
  · cases Release.steps_of_step h with
    | refused _ _ | queued _ _ => exact .pays
    | answered _ _ | ended _ _ => exact hstay quiet_nothing
    | shutDown _ => exact .stops (Or.inl rfl) (Or.inl rfl)
    | awaited _ _ | awaits _ _ => exact hstay ⟨by rintro ⟨⟩, by rintro job ⟨⟩, by rintro ⟨⟩⟩
  · obtain rfl := Release.forget_of_done hs h
    simp only [Release.change, hs]
    exact hleave (quiet_forget _)

/-- A task that has nothing to do with the end of the session, before and after. -/
theorem of_free {c : Change ρ} (hc : c.Quiet k) : Dealing k o .free c .free :=
  .quiet hc (Or.inl rfl)

/-- What the release at some seat has to do with the session at another, or the same. -/
def holdAt (k seat : Nat) (stage : Release) : Hold := if seat = k then stage.hold else .free

/-- **A release at some seat**: it finds its session there, so what was said of it holds. -/
theorem of_releasing {seat : Nat} {stage : Release}
    (hv : r.session? k = none → holdAt k seat stage = .free) :
    (∀ {stage'}, stage.step r seat = .next r' stage' →
      Dealing k (r.session? k) (holdAt k seat stage) (stage.change r seat) (holdAt k seat stage')) ∧
    (∀ {a}, stage.step r seat = .done r' a →
      Dealing k (r.session? k) (holdAt k seat stage) (stage.change r seat) .free) := by
  by_cases hsame : seat = k
  · subst hsame
    have hne : holdAt seat seat stage ≠ .free := by
      cases stage <;> simp [holdAt, Release.hold]
    obtain ⟨s, hs⟩ := Option.ne_none_iff_exists'.mp fun hn => hne (hv hn)
    simpa [holdAt] using of_release hs
  · have hq := quiet_release r hsame stage
    exact ⟨fun _ => by simpa [holdAt, hsame] using of_free hq,
      fun _ => by simpa [holdAt, hsame] using of_free hq⟩

theorem hold_initial {p : Part} (h : p.Initial) : p.hold k = .free := by
  cases h <;> rfl

/-- Stopping the worker of one session or another. -/
theorem of_shutdown {seat : Nat} {h h' : Hold} (hh : seat = k → h = .paid ∨ h = .failing)
    (hh' : seat = k → h' = h ∨ h' = .free) (hne : seat ≠ k → h = .free ∧ h' = .free) :
    Dealing k o h (.shutdown seat) h' := by
  by_cases hsame : seat = k
  · subst hsame
    exact .stops (hh rfl) (hh' rfl)
  · obtain ⟨rfl, rfl⟩ := hne hsame
    exact of_free (quiet_of_seat rfl hsame)

/-! ## 3. Each kind of work

A step that goes on has a lemma, and a step that comes to an end has another.  A start deals with
the session only when it has failed; a close, a termination and a sweep begin to owe the release
when they find the session open. -/

theorem of_create {stage stage' : Creation} (h : stage.step r = .next r' stage') :
    Dealing k (r.session? k) ((Part.create stage).hold k) (stage.change r)
      ((Part.create stage').hold k) := by
  cases Creation.steps_of_step h with
  | registered hf =>
    rw [Creation.change, if_neg (by simp [hf])]
    exact of_free ⟨by rintro ⟨⟩, by rintro job ⟨⟩, by rintro ⟨⟩⟩
  | @failed seat s reason hs hr =>
    by_cases hsame : seat = k
    · subst hsame
      exact .quiet quiet_nothing (Or.inr (Or.inr ⟨rfl, by simp [Part.hold], s, reason, hs, hr⟩))
    · simpa [Part.hold, hsame, Creation.change] using of_free quiet_nothing
  | closed seat reason =>
    rcases of_closing r k seat with ⟨hq, -⟩ | ⟨rfl, hc, s, hs, ho⟩
    · exact .quiet hq (Or.inl rfl)
    · rw [Creation.change, hc]
      simpa [Part.hold] using .fails hs ho
  | shutDown seat reason => refine of_shutdown ?_ ?_ ?_ <;> (intro he; simp [Part.hold, he])

theorem of_created {stage : Creation}
    {a : Except SessionError SessionInfo} (h : stage.step r = .done r' a) :
    Dealing k o ((Part.create stage).hold k) (stage.change r) .free := by
  have hleave : ∀ {seat : Nat} {c : Change ρ}, c.Quiet k →
      Dealing k o (if seat = k then .failing else .free) c .free := fun hq =>
    .quiet hq (Or.inr (Or.inl ⟨by split <;> simp, rfl⟩))
  cases Creation.steps_of_step h with
  | full hf =>
    rw [Creation.change, if_pos hf]
    exact of_free quiet_nothing
  | ready _ _ => exact of_free quiet_nothing
  | vacant hs =>
    simp only [Creation.change, hs]
    exact hleave quiet_nothing
  | removed hs =>
    simp only [Creation.change, hs]
    exact hleave ⟨by rintro ⟨⟩, by rintro job ⟨⟩, by rintro ⟨⟩⟩

theorem of_close {id : String} {stage stage' : Closing}
    (hv : r.session? k = none → (Part.close stage).hold k = .free)
    (h : stage.step r id = .next r' stage') :
    Dealing k (r.session? k) ((Part.close stage).hold k) (stage.change r)
      ((Part.close stage').hold k) := by
  cases Closing.steps_of_step h with
  | found _ | missed _ => exact of_free quiet_nothing
  | @won seat s hs hopen =>
    rcases of_closing r k seat with ⟨hq, hcl⟩ | ⟨rfl, hc, -⟩
    · have hne : seat ≠ k := by
        rintro rfl
        rw [hcl rfl s hs] at hopen
        cases hopen
      simpa [Part.hold, hne, Closing.change] using of_free hq
    · rw [Closing.change, hc]
      simpa [Part.hold, Release.hold] using .wins hs hopen
  | releases hr => exact (of_releasing hv).1 hr

theorem of_closed {id : String} {stage : Closing} {a : Except SessionError Unit}
    (hv : r.session? k = none → (Part.close stage).hold k = .free)
    (h : stage.step r id = .done r' a) :
    Dealing k (r.session? k) ((Part.close stage).hold k) (stage.change r) .free := by
  cases Closing.steps_of_step h with
  | remembered _ | unknown _ => exact of_free quiet_nothing
  | @vacant seat hs =>
    rcases of_closing r k seat with ⟨hq, -⟩ | ⟨rfl, -, s, hs', -⟩
    · exact of_free hq
    · rw [hs] at hs'
      cases hs'
  | @second seat s hs hc =>
    rcases of_closing r k seat with ⟨hq, -⟩ | ⟨rfl, -, s', hs', hopen⟩
    · exact of_free hq
    · rw [hs] at hs'
      cases hs'
      rw [hc] at hopen
      cases hopen
  | released hr => exact (of_releasing hv).2 hr

theorem of_terminate {id : String} {stage stage' : Termination}
    (h : stage.step r id = .next r' stage') :
    Dealing k (r.session? k) ((Part.terminate id stage).hold k) (stage.change r id)
      ((Part.terminate id stage').hold k) := by
  cases Termination.steps_of_step h with
  | found _ | missed _ => exact of_free quiet_nothing
  | @closed seat s hs =>
    rcases of_closing r k seat with ⟨hq, hcl⟩ | ⟨rfl, hc, s', hs', ho⟩
    · have hf : (Part.terminate id (.forget seat s.beginClose.2)).hold k = .free := by
        by_cases hsame : seat = k
        · subst hsame
          simp [Part.hold, Session.beginClose, hcl rfl s hs]
        · cases s.beginClose.2 <;> simp [Part.hold, hsame]
      rw [hf]
      exact of_free hq
    · rw [hs] at hs'
      cases hs'
      rw [Termination.change, hc]
      simpa [Part.hold, Session.beginClose, ho] using .wins hs ho
  | won seat => exact .quiet (quiet_forget id) (Or.inl rfl)
  | queued seat =>
    by_cases hsame : seat = k
    · subst hsame
      simpa [Part.hold, Termination.change] using .pays
    · simpa [Part.hold, hsame, Termination.change] using of_free (quiet_of_seat rfl hsame)

theorem of_terminated {id : String} {stage : Termination} {a : Except SessionError Unit}
    (h : stage.step r id = .done r' a) :
    Dealing k o ((Part.terminate id stage).hold k) (stage.change r id) .free := by
  cases Termination.steps_of_step h with
  | remembered _ | unknown _ => exact of_free quiet_nothing
  | @vacant seat hs =>
    rcases of_closing r k seat with ⟨hq, -⟩ | ⟨rfl, -, s, hs', -⟩
    · exact of_free hq
    · rw [hs] at hs'
      cases hs'
  | second seat => exact of_free (quiet_forget id)
  | shutDown seat => refine of_shutdown ?_ ?_ ?_ <;> (intro he; simp [Part.hold, he])

/-- **A verdict**: whoever is condemned is open. -/
theorem of_verdict {seat : Nat} {rest : List Nat} {closed : List String} {s : Session ρ}
    (hs : r.session? seat = some s) (ho : s.isClosed = false) :
    Dealing k (r.session? k) .free (.close seat)
      ((Part.sweep (.release seat .queue rest closed)).hold k) := by
  by_cases hsame : seat = k
  · subst hsame
    simpa [Part.hold, Release.hold] using .wins hs ho
  · simpa [Part.hold, hsame] using of_free (quiet_of_seat rfl hsame)

theorem of_sweep {stage stage' : Sweep}
    (hv : r.session? k = none → (Part.sweep stage).hold k = .free)
    (h : stage.step r = .next r' stage') :
    Dealing k (r.session? k) ((Part.sweep stage).hold k) (stage.change r)
      ((Part.sweep stage').hold k) := by
  cases Sweep.steps_of_step h with
  | scanned => exact of_free quiet_nothing
  | vacant hs | spared hs hd =>
    refine of_free ?_
    simpa [Sweep.change, Registry.condemns, *] using quiet_nothing
  | vanished hs | acquitted hs hd =>
    refine of_free ?_
    simpa [Sweep.change, Registry.convicts, *] using quiet_nothing
  | condemned hs hd =>
    rw [Sweep.change, if_pos (by simpa [Registry.condemns, hs] using hd)]
    simp only [Bool.and_eq_true, Bool.not_eq_true'] at hd
    exact of_verdict hs hd.1
  | convicted hs hd =>
    rw [Sweep.change, if_pos (by simpa [Registry.convicts, hs] using hd)]
    simp only [Bool.and_eq_true, Bool.not_eq_true'] at hd
    exact of_verdict hs hd.1.1
  | releases hr => exact (of_releasing hv).1 hr
  | released hr _ | lost hr _ => exact (of_releasing hv).2 hr

theorem of_swept {stage : Sweep} {a : List String} (h : stage.step r = .done r' a) :
    Dealing k o ((Part.sweep stage).hold k) (stage.change r) .free := by
  cases Sweep.steps_of_step h with
  | finished _ => exact of_free quiet_nothing

/-! ## 4. All of them -/

/-- Whoever gives up waiting, or is cut off, has paid. -/
theorem hold_of_isPoint {stage : Release} (h : stage.isPoint = true) : stage.hold = .paid := by
  cases stage <;> first | rfl | cases h

theorem hold_of_expire? {stage stage' : Release} (h : stage.expire? = some stage') :
    stage.hold = .paid ∧ stage'.hold = .paid := by
  cases stage <;> cases h <;> exact ⟨rfl, rfl⟩

/-- **Every turn of a task deals with the end of the session in one of these ways.** -/
theorem of_goes {p p' : Part} {c : Change ρ} (hv : r.session? k = none → p.hold k = .free)
    (h : p.Goes r p' c) : Dealing k (r.session? k) (p.hold k) c (p'.hold k) := by
  cases h with
  | begin hp =>
    rw [hold_initial hp]
    exact of_free quiet_nothing
  | entered hp =>
    rw [hold_initial hp]
    exact of_free ⟨by rintro ⟨⟩, by rintro job ⟨⟩, by rintro ⟨⟩⟩
  | create h => exact of_create h
  | created h => exact of_created h
  | refused metadata => exact of_free quiet_nothing
  | close h => exact of_close hv h
  | closed h => exact of_closed hv h
  | @closeExpired stage stage' h =>
    cases stage with
    | release seat stage =>
      obtain ⟨stage₁, h₁, rfl⟩ := Option.map_eq_some_iff.mp h
      obtain ⟨h₂, h₃⟩ := hold_of_expire? h₁
      exact .quiet quiet_nothing (Or.inl (by simp [Part.hold, h₂, h₃]))
    | _ => cases h
  | terminate h => exact of_terminate h
  | terminated h => exact of_terminated h
  | sweep h => exact of_sweep hv h
  | swept h => exact of_swept h
  | @sweepExpired stage stage' h =>
    cases stage with
    | release seat stage rest closed =>
      obtain ⟨stage₁, h₁, rfl⟩ := Option.map_eq_some_iff.mp h
      obtain ⟨h₂, h₃⟩ := hold_of_expire? h₁
      exact .quiet quiet_nothing (Or.inl (by simp [Part.hold, h₂, h₃]))
    | _ => cases h
  | @cutOff stage h =>
    cases stage with
    | scan => exact of_free quiet_nothing
    | judge rest closed => cases h
    | weigh seat rest closed => cases h
    | release seat stage rest closed =>
      refine .quiet quiet_nothing (Or.inr (Or.inl ⟨?_, rfl⟩))
      simp only [Part.hold, hold_of_isPoint h]
      split <;> simp
  | strayed h => cases Sweep.detours_of_detour? h <;> exact of_free quiet_nothing
  | suspect seat => exact of_free ⟨by rintro ⟨⟩, by rintro job ⟨⟩, by rintro ⟨⟩⟩

end Dealing

end Workbench
