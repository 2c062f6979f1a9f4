import Workbench.Proofs.Session.LastRelease

/-!
# What tasks know

A task that brings a session to its end does so in several steps, and everything else may happen
between two of them.  It counts on what it has done before.

* `Session.Later` is what holds of a session for good, whatever happens;
* `Part.Knows` is what a task knows of the session that it brings to its end, at each stage, and
  `Part.Knows.goes` says that its steps bear that out;
* `Part.Knows.dismissed` says that who lets go of a session has taken it off the list and asked its
  worker to stop, unless it is cut off;
* `Engine.Retired` says that nobody is taken off the list who is not closed.
-/

namespace Workbench

variable {ρ : Type}

/-! ## 1. What lasts -/

/-- What holds of a session for good: its identifier, and its end as far as it has come. -/
structure Session.Later (s s' : Session ρ) : Prop where
  id : s'.id = s.id
  closed : s.isClosed = true → s'.isClosed = true
  unlisted : s.listed = false → s'.listed = false
  disconnected : s.worker.connected = false → s'.worker.connected = false

theorem Change.Altered.later {k : Nat} {c : Change ρ} {s s' : Session ρ} (h : c.Altered k s s') :
    s.Later s' where
  id := h.id
  closed hc := h.closed_iff.mpr (Or.inl hc)
  unlisted hl := by simp [h.listed, hl]
  disconnected hc := by
    cases hact : c.actionAt? k with
    | none => rw [h.rests hact, hc]
    | some a => exact Worker.disconnected_act? (h.acts a hact) hc

/-- Who comes to close a session finds it closed afterwards. -/
theorem Change.Altered.closed_of_closing {r : Registry ρ} {k : Nat} {s s' : Session ρ}
    (hs : r.session? k = some s) (h : (Change.closing r k).Altered k s s') :
    s'.isClosed = true := by
  rw [h.closed_iff]
  unfold Change.closing
  rw [hs]
  cases hc : s.isClosed <;> simp [hc]

/-- A worker that is asked to stop takes no more. -/
theorem Change.Altered.disconnected_of_shutdown {k : Nat} {s s' : Session ρ}
    (h : (Change.shutdown k : Change ρ).Altered k s s') : s'.worker.connected = false := by
  have hw := h.acts .shutdown (by simp [Change.actionAt?, Change.seat?, Change.action?])
  rw [Worker.act?, Option.some.injEq] at hw
  rw [← hw, Worker.shutdown]
  split
  · rfl
  · rename_i hc
    simpa using hc

/-! ## 2. What a task knows -/

/-- The worker has been asked to stop at this stage of a release. -/
def Release.hasStopped : Release → Bool
  | beginAwaitEnd => true
  | awaitEnd => true
  | forget => true
  | _ => false

/-- What a task knows of the session that it releases. -/
def Release.Knows (r : Registry ρ) (seat : Nat) (stage : Release) : Prop :=
  ∃ s, r.session? seat = some s ∧ s.isClosed = true ∧
    (stage.hasStopped = true → s.worker.connected = false)

/-- What a task knows of the session that it terminates under an identifier. -/
def Termination.Knows (r : Registry ρ) (id : String) : Termination → Prop
  | begin seat => ∃ s, r.session? seat = some s ∧ s.id = id
  | forget seat _ => ∃ s, r.session? seat = some s ∧ s.id = id ∧ s.isClosed = true
  | queue seat => ∃ s, r.session? seat = some s ∧ s.isClosed = true ∧ s.listed = false
  | shutdown seat => ∃ s, r.session? seat = some s ∧ s.isClosed = true ∧ s.listed = false
  | _ => True

/-- What a task knows of the session whose start has failed. -/
def Creation.Knows (r : Registry ρ) : Creation → Prop
  | beginClose seat _ => ∃ s, r.session? seat = some s
  | shutdown seat _ => ∃ s, r.session? seat = some s ∧ s.isClosed = true
  | remove seat _ => ∃ s, r.session? seat = some s ∧ s.isClosed = true ∧
      s.worker.connected = false
  | _ => True

/-- What a task knows of the session that it brings to its end. -/
def Part.Knows (r : Registry ρ) : Part → Prop
  | create stage => stage.Knows r
  | close (.release seat stage) => stage.Knows r seat
  | sweep (.release seat stage _ _) => stage.Knows r seat
  | terminate id stage => stage.Knows r id
  | _ => True

/-- The sessions go on as a change makes them. -/
def Registry.Follows (r r' : Registry ρ) (c : Change ρ) : Prop :=
  ∀ k s, r.session? k = some s → ∃ s', r'.session? k = some s' ∧ c.Altered k s s'

section Knowing

variable {r r' : Registry ρ} {c : Change ρ}

theorem Release.Knows.mono {seat : Nat} {stage : Release} (h : stage.Knows r seat)
    (hr : r.Follows r' c) : stage.Knows r' seat := by
  obtain ⟨s, hs, hc, hd⟩ := h
  obtain ⟨s', hs', ha⟩ := hr seat s hs
  exact ⟨s', hs', ha.later.closed hc, fun hl => ha.later.disconnected (hd hl)⟩

/-- What is known is not forgotten. -/
theorem Part.Knows.mono {p : Part} (h : p.Knows r) (hr : r.Follows r' c) : p.Knows r' := by
  cases p with
  | create stage =>
    cases stage with
    | beginClose seat reason =>
      obtain ⟨s, hs⟩ := h
      obtain ⟨s', hs', -⟩ := hr seat s hs
      exact ⟨s', hs'⟩
    | shutdown seat reason =>
      obtain ⟨s, hs, hc⟩ := h
      obtain ⟨s', hs', ha⟩ := hr seat s hs
      exact ⟨s', hs', ha.later.closed hc⟩
    | remove seat reason =>
      obtain ⟨s, hs, hc, hd⟩ := h
      obtain ⟨s', hs', ha⟩ := hr seat s hs
      exact ⟨s', hs', ha.later.closed hc, ha.later.disconnected hd⟩
    | _ => trivial
  | close stage =>
    cases stage with
    | release seat stage => exact Release.Knows.mono h hr
    | _ => trivial
  | sweep stage =>
    cases stage with
    | release seat stage rest closed => exact Release.Knows.mono h hr
    | _ => trivial
  | terminate id stage =>
    cases stage with
    | begin seat =>
      obtain ⟨s, hs, hid⟩ := h
      obtain ⟨s', hs', ha⟩ := hr seat s hs
      exact ⟨s', hs', ha.later.id.trans hid⟩
    | forget seat won =>
      obtain ⟨s, hs, hid, hc⟩ := h
      obtain ⟨s', hs', ha⟩ := hr seat s hs
      exact ⟨s', hs', ha.later.id.trans hid, ha.later.closed hc⟩
    | queue seat =>
      obtain ⟨s, hs, hc, hl⟩ := h
      obtain ⟨s', hs', ha⟩ := hr seat s hs
      exact ⟨s', hs', ha.later.closed hc, ha.later.unlisted hl⟩
    | shutdown seat =>
      obtain ⟨s, hs, hc, hl⟩ := h
      obtain ⟨s', hs', ha⟩ := hr seat s hs
      exact ⟨s', hs', ha.later.closed hc, ha.later.unlisted hl⟩
    | _ => trivial
  | _ => trivial

theorem Part.Initial.knows {p : Part} (h : p.Initial) : p.Knows r := by
  cases h <;> trivial

/-- A release knows that it has asked the worker to stop when it has. -/
theorem Release.Knows.next {seat : Nat} {stage stage' : Release} {r₁ : Registry ρ}
    (hk : stage.Knows r seat) (h : stage.step r seat = .next r₁ stage')
    (hr : r.Follows r' (stage.change r seat)) : stage'.Knows r' seat := by
  obtain ⟨s, hs, hc, hd⟩ := hk
  obtain ⟨s', hs', ha⟩ := hr seat s hs
  refine ⟨s', hs', ha.later.closed hc, fun hstop => ?_⟩
  cases steps_of_step h with
  | refused _ _ | queued _ _ | answered _ _ => cases hstop
  | shutDown _ => exact ha.disconnected_of_shutdown
  | awaited _ _ | awaits _ _ | ended _ _ => exact ha.later.disconnected (hd rfl)

theorem Release.Knows.expire {seat : Nat} {stage stage' : Release} (hk : stage.Knows r seat)
    (h : stage.expire? = some stage') (hr : r.Follows r' c) : stage'.Knows r' seat := by
  obtain ⟨s, hs, hc, hd⟩ := hk
  obtain ⟨s', hs', ha⟩ := hr seat s hs
  refine ⟨s', hs', ha.later.closed hc, fun hstop => ?_⟩
  cases stage with
  | awaitAnswer ticket =>
    cases h
    cases hstop
  | awaitEnd => exact ha.later.disconnected (hd rfl)
  | _ => cases h

theorem Closing.knows_next {id : String} {stage stage' : Closing} {r₁ : Registry ρ}
    (hk : (Part.close stage).Knows r) (h : stage.step r id = .next r₁ stage')
    (hr : r.Follows r' (stage.change r)) : (Part.close stage').Knows r' := by
  cases steps_of_step h with
  | found _ | missed _ => trivial
  | won hs _ =>
    obtain ⟨s', hs', ha⟩ := hr _ _ hs
    exact ⟨s', hs', ha.closed_of_closing hs, by rintro ⟨⟩⟩
  | releases hs => exact Release.Knows.next hk hs hr

theorem Termination.knows_next {id : String} {stage stage' : Termination} {r₁ : Registry ρ}
    (hk : stage.Knows r id) (h : stage.step r id = .next r₁ stage')
    (hr : r.Follows r' (stage.change r id)) : stage'.Knows r' id := by
  cases steps_of_step h with
  | found hseat =>
    obtain ⟨s, hs, -, hid⟩ := Registry.of_seat? hseat
    obtain ⟨s', hs', ha⟩ := hr _ s hs
    exact ⟨s', hs', ha.id.trans hid⟩
  | missed _ => trivial
  | closed _ =>
    obtain ⟨s, hs, hid⟩ := hk
    obtain ⟨s', hs', ha⟩ := hr _ s hs
    exact ⟨s', hs', ha.id.trans hid, ha.closed_of_closing hs⟩
  | won seat =>
    obtain ⟨s, hs, hid, hc⟩ := hk
    obtain ⟨s', hs', ha⟩ := hr seat s hs
    refine ⟨s', hs', ha.later.closed hc, ?_⟩
    simp [ha.listed, change, Change.unlisted?, hid]
  | queued seat =>
    obtain ⟨s, hs, hc, hl⟩ := hk
    obtain ⟨s', hs', ha⟩ := hr seat s hs
    exact ⟨s', hs', ha.later.closed hc, ha.later.unlisted hl⟩

theorem Creation.knows_next {stage stage' : Creation} {r₁ : Registry ρ} (hk : stage.Knows r)
    (h : stage.step r = .next r₁ stage') (hr : r.Follows r' (stage.change r)) :
    stage'.Knows r' := by
  cases steps_of_step h with
  | registered _ => trivial
  | failed hs _ =>
    obtain ⟨s', hs', -⟩ := hr _ _ hs
    exact ⟨s', hs'⟩
  | closed seat reason =>
    obtain ⟨s, hs⟩ := hk
    obtain ⟨s', hs', ha⟩ := hr seat s hs
    exact ⟨s', hs', ha.closed_of_closing hs⟩
  | shutDown seat reason =>
    obtain ⟨s, hs, hc⟩ := hk
    obtain ⟨s', hs', ha⟩ := hr seat s hs
    exact ⟨s', hs', ha.later.closed hc, ha.disconnected_of_shutdown⟩

theorem Sweep.knows_next {stage stage' : Sweep} {r₁ : Registry ρ}
    (hk : (Part.sweep stage).Knows r) (h : stage.step r = .next r₁ stage')
    (hr : r.Follows r' (stage.change r)) : (Part.sweep stage').Knows r' := by
  cases steps_of_step h with
  | scanned | vacant _ | spared _ _ | vanished _ | acquitted _ _ | released _ _ | lost _ _ =>
    trivial
  | condemned hs hd =>
    obtain ⟨s', hs', ha⟩ := hr _ _ hs
    refine ⟨s', hs', ha.closed_iff.mpr (Or.inr ?_), by rintro ⟨⟩⟩
    simp [change, Registry.condemns, hs, hd]
  | convicted hs hd =>
    obtain ⟨s', hs', ha⟩ := hr _ _ hs
    refine ⟨s', hs', ha.closed_iff.mpr (Or.inr ?_), by rintro ⟨⟩⟩
    simp [change, Registry.convicts, hs, hd]
  | releases hs => exact Release.Knows.next hk hs hr

/-- **A task knows what it has done.** -/
theorem Part.Knows.goes {p p' : Part} (hk : p.Knows r) (h : p.Goes r p' c)
    (hr : r.Follows r' c) : p'.Knows r' := by
  cases h with
  | begin hp => exact hp.knows
  | entered hp => exact hp.knows
  | create hs => exact Creation.knows_next hk hs hr
  | close hs => exact Closing.knows_next hk hs hr
  | closeExpired hs =>
    rename_i stage stage'
    cases stage with
    | release seat stage =>
      obtain ⟨stage₁, hexp, rfl⟩ := Option.map_eq_some_iff.mp hs
      exact Release.Knows.expire hk hexp hr
    | _ => cases hs
  | terminate hs => exact Termination.knows_next hk hs hr
  | sweep hs => exact Sweep.knows_next hk hs hr
  | sweepExpired hs =>
    rename_i stage stage'
    cases stage with
    | release seat stage rest closed =>
      obtain ⟨stage₁, hexp, rfl⟩ := Option.map_eq_some_iff.mp hs
      exact Release.Knows.expire hk hexp hr
    | _ => cases hs
  | strayed hs => cases Sweep.detours_of_detour? hs <;> trivial
  | _ => trivial

end Knowing

namespace Engine

/-- Every task knows what it has done. -/
def Informed (e : Engine ρ) : Prop := ∀ q, (e.partAt q).Knows e.registry

theorem follows_of_step? {e e' : Engine ρ} {event : Event ρ} (h : e.step? event = some e') :
    e.registry.Follows e'.registry (e.change event) := fun _ _ hs => session_of_step? h hs

theorem Informed.step {e e' : Engine ρ} {event : Event ρ} (hi : Informed e)
    (h : e.step? event = some e') : Informed e' := by
  intro q
  have hr := follows_of_step? h
  rcases partAt_of_step? h q with ⟨-, hgoes⟩ | ⟨-, heq | ⟨-, hinit⟩⟩
  · exact (hi q).goes hgoes hr
  · rw [heq]
    exact (hi q).mono hr
  · exact hinit.knows

end Engine

/-! ## 3. Who lets go of a session -/

/-- The session is off the list, and its worker has been asked to stop. -/
def Session.Dismissed (s : Session ρ) : Prop := s.listed = false ∧ s.worker.connected = false

theorem Session.Later.dismissed {s s' : Session ρ} (h : s.Later s') (hd : s.Dismissed) :
    s'.Dismissed := ⟨h.unlisted hd.1, h.disconnected hd.2⟩

section LettingGo

variable {r r' : Registry ρ} {c : Change ρ} {k : Nat} {s' : Session ρ}

/-- A release that has come to its end has done all of it. -/
theorem Release.Knows.dismissed {stage : Release} {r₁ : Registry ρ} {a : Unit}
    (hk : stage.Knows r k) (h : stage.step r k = .done r₁ a)
    (hr : r.Follows r' (stage.change r k)) (hs' : r'.session? k = some s') : s'.Dismissed := by
  obtain ⟨s, hs, -, hd⟩ := hk
  obtain ⟨s₁, hs₁, ha⟩ := hr k s hs
  rw [hs'] at hs₁
  cases hs₁
  obtain rfl := forget_of_done hs h
  refine ⟨?_, ha.later.disconnected (hd rfl)⟩
  simp [ha.listed, change, hs, Change.unlisted?]

/-- A release holds its session, and no other, at every stage. -/
theorem Release.held_iff {seat : Nat} {stage : Release} :
    Dealing.holdAt k seat stage ≠ .free ↔ seat = k := by
  unfold Dealing.holdAt
  split
  · rename_i hsame
    exact ⟨fun _ => hsame, fun _ => by cases stage <;> rintro ⟨⟩⟩
  · rename_i hne
    exact ⟨fun h => absurd rfl h, fun hsame => absurd hsame hne⟩

/-- What is held at some seat is held at the seat of the session. -/
theorem Hold.seat_of_held {seat : Nat} {h : Hold}
    (hh : (if seat = k then h else .free) ≠ .free) : seat = k :=
  Decidable.byContradiction fun hne => hh (if_neg hne)

theorem Creation.dismissed {stage : Creation} {r₁ : Registry ρ}
    {a : Except SessionError SessionInfo} (hk : stage.Knows r) (h : stage.step r = .done r₁ a)
    (hr : r.Follows r' (stage.change r)) (hs' : r'.session? k = some s')
    (hh : (Part.create stage).hold k ≠ .free) : s'.Dismissed := by
  cases steps_of_step h with
  | vacant _ | removed _ =>
    obtain rfl := Hold.seat_of_held hh
    obtain ⟨s, hs, -, hd⟩ := hk
    obtain ⟨s₁, hs₁, ha⟩ := hr _ s hs
    rw [hs'] at hs₁
    cases hs₁
    refine ⟨?_, ha.later.disconnected hd⟩
    simp [ha.listed, change, hs, Change.unlisted?]
  | _ => exact absurd rfl hh

theorem Termination.dismissed {id : String} {stage : Termination} {r₁ : Registry ρ}
    {a : Except SessionError Unit} (hk : stage.Knows r id) (h : stage.step r id = .done r₁ a)
    (hr : r.Follows r' (stage.change r id)) (hs' : r'.session? k = some s')
    (hh : (Part.terminate id stage).hold k ≠ .free) : s'.Dismissed := by
  cases steps_of_step h with
  | shutDown seat =>
    obtain rfl : seat = k := Hold.seat_of_held hh
    obtain ⟨s, hs, -, hl⟩ := hk
    obtain ⟨s₁, hs₁, ha⟩ := hr seat s hs
    rw [hs'] at hs₁
    cases hs₁
    exact ⟨ha.later.unlisted hl, ha.disconnected_of_shutdown⟩
  | _ => exact absurd rfl hh

/-- A start that goes on keeps hold of the session. -/
theorem Creation.held_next {stage stage' : Creation} {r₁ : Registry ρ}
    (h : stage.step r = .next r₁ stage') (hh : (Part.create stage).hold k ≠ .free) :
    (Part.create stage').hold k ≠ .free := by
  cases steps_of_step h with
  | closed _ _ | shutDown _ _ => exact hh
  | _ => exact absurd rfl hh

/-- A termination that goes on keeps hold of the session. -/
theorem Termination.held_next {id : String} {stage stage' : Termination} {r₁ : Registry ρ}
    (h : stage.step r id = .next r₁ stage') (hh : (Part.terminate id stage).hold k ≠ .free) :
    (Part.terminate id stage').hold k ≠ .free := by
  cases steps_of_step h with
  | won _ => exact hh
  | queued seat =>
    obtain rfl : seat = k := Hold.seat_of_held hh
    simp [Part.hold]
  | _ => exact absurd rfl hh

/-- A sweep that goes on keeps hold of the session until its release has come to its end. -/
theorem Sweep.dismissed {stage stage' : Sweep} {r₁ : Registry ρ}
    (hk : (Part.sweep stage).Knows r) (h : stage.step r = .next r₁ stage')
    (hr : r.Follows r' (stage.change r)) (hs' : r'.session? k = some s')
    (hh : (Part.sweep stage).hold k ≠ .free) (hf : (Part.sweep stage').hold k = .free) :
    s'.Dismissed := by
  cases steps_of_step h with
  | releases _ => exact absurd hf (Release.held_iff.mpr (Release.held_iff.mp hh))
  | released hs _ | lost hs _ =>
    obtain rfl := Release.held_iff.mp hh
    exact Release.Knows.dismissed hk hs hr hs'
  | _ => exact absurd rfl hh

/-- **Who lets go of a session has seen its end through**, unless it is a sweep that is cut off. -/
theorem Part.Knows.dismissed {p p' : Part} (hk : p.Knows r) (h : p.Goes r p' c)
    (hr : r.Follows r' c) (hs' : r'.session? k = some s') (hh : p.hold k ≠ .free)
    (hf : p'.hold k = .free) :
    s'.Dismissed ∨
      ∃ stage rest closed, p = .sweep (.release k stage rest closed) ∧ p' = .idle := by
  cases h with
  | begin hp => exact absurd rfl hh
  | entered hp => exact absurd rfl hh
  | create hs => exact absurd hf (Creation.held_next hs hh)
  | created hs => exact Or.inl (Creation.dismissed hk hs hr hs' hh)
  | refused metadata => exact absurd rfl hh
  | close hs =>
    cases Closing.steps_of_step hs with
    | releases _ => exact absurd hf (Release.held_iff.mpr (Release.held_iff.mp hh))
    | _ => exact absurd rfl hh
  | closed hs =>
    cases Closing.steps_of_step hs with
    | released hdone =>
      obtain rfl := Release.held_iff.mp hh
      exact Or.inl (Release.Knows.dismissed hk hdone hr hs')
    | _ => exact absurd rfl hh
  | @closeExpired stage stage' hs =>
    cases stage with
    | release seat stage =>
      obtain ⟨stage₁, -, rfl⟩ := Option.map_eq_some_iff.mp hs
      exact absurd hf (Release.held_iff.mpr (Release.held_iff.mp hh))
    | _ => exact absurd rfl hh
  | terminate hs => exact absurd hf (Termination.held_next hs hh)
  | terminated hs => exact Or.inl (Termination.dismissed hk hs hr hs' hh)
  | sweep hs => exact Or.inl (Sweep.dismissed hk hs hr hs' hh hf)
  | swept hs =>
    cases Sweep.steps_of_step hs with
    | finished _ => exact absurd rfl hh
  | @sweepExpired stage stage' hs =>
    cases stage with
    | release seat stage rest closed =>
      obtain ⟨stage₁, -, rfl⟩ := Option.map_eq_some_iff.mp hs
      exact absurd hf (Release.held_iff.mpr (Release.held_iff.mp hh))
    | _ => exact absurd rfl hh
  | @cutOff stage hp =>
    cases stage with
    | release seat stage rest closed =>
      obtain rfl : seat = k := Release.held_iff.mp hh
      exact Or.inr ⟨stage, rest, closed, rfl, rfl⟩
    | _ => exact absurd rfl hh
  | strayed hs => cases Sweep.detours_of_detour? hs <;> exact absurd rfl hh
  | suspect seat => exact absurd rfl hh

end LettingGo

/-! ## 4. Who is off the list -/

/-- A closed session has the identifier. -/
def Registry.HasClosed (r : Registry ρ) (id : String) : Prop :=
  ∃ seat s, r.session? seat = some s ∧ s.id = id ∧ s.isClosed = true

theorem Change.unlisted?_closing (r : Registry ρ) (seat : Nat) :
    (Change.closing r seat).unlisted? = none := by
  unfold closing
  split
  · split <;> rfl
  · rfl

/-- To take an identifier off the list is asked for. -/
theorem Change.asked_of_unlisted {c : Change ρ} {id : String} (h : c.unlisted? = some id) :
    c ≠ .nothing ∧ (∀ seat, c ≠ .suspect seat) ∧ c.isAsked = true := by
  cases c <;> cases h <;> exact ⟨by rintro ⟨⟩, by rintro seat ⟨⟩, rfl⟩

section TakingOff

variable {r : Registry ρ} {id : String}

theorem Release.Knows.unlisted {seat : Nat} {stage : Release} (hk : stage.Knows r seat)
    (h : (stage.change r seat).unlisted? = some id) : r.HasClosed id := by
  cases stage with
  | forget =>
    obtain ⟨s, hs, hc, -⟩ := hk
    simp only [change, hs] at h
    cases h
    exact ⟨seat, s, hs, rfl, hc⟩
  | _ => cases h

/-- **Who takes an identifier off the list knows a closed session that has it.** -/
theorem Part.Knows.unlisted {p : Part} (hk : p.Knows r) (h : (p.change r).unlisted? = some id) :
    r.HasClosed id := by
  cases p with
  | create stage =>
    cases stage with
    | enter metadata =>
      simp only [change, Creation.change] at h
      split at h <;> cases h
    | beginClose seat reason =>
      exact absurd h (by simp [change, Creation.change, Change.unlisted?_closing])
    | remove seat reason =>
      obtain ⟨s, hs, hc, -⟩ := hk
      simp only [change, Creation.change, hs] at h
      cases h
      exact ⟨seat, s, hs, rfl, hc⟩
    | _ => cases h
  | close stage =>
    cases stage with
    | begin seat => exact absurd h (by simp [change, Closing.change, Change.unlisted?_closing])
    | release seat stage => exact Release.Knows.unlisted hk h
    | _ => cases h
  | terminate other stage =>
    cases stage with
    | begin seat => exact absurd h (by simp [change, Termination.change, Change.unlisted?_closing])
    | forget seat won =>
      obtain ⟨s, hs, hid, hc⟩ := hk
      cases h
      exact ⟨seat, s, hs, hid, hc⟩
    | _ => cases h
  | sweep stage =>
    cases stage with
    | judge rest closed =>
      cases rest with
      | nil => cases h
      | cons seat rest =>
        simp only [change, Sweep.change] at h
        split at h <;> cases h
    | weigh seat rest closed =>
      simp only [change, Sweep.change] at h
      split at h <;> cases h
    | release seat stage rest closed => exact Release.Knows.unlisted hk h
    | _ => cases h
  | _ => cases h

end TakingOff

namespace Engine

/-- Nobody is off the list who is not closed. -/
def Retired (e : Engine ρ) : Prop :=
  ∀ k s, e.registry.session? k = some s → s.listed = false → s.isClosed = true

/-- Where the identifiers differ, sessions with one identifier are one. -/
theorem Named.seat_eq {e : Engine ρ} (hn : Named e) (hids : Function.Injective e.registry.ids)
    {j k : Nat} {s t : Session ρ} (hs : e.registry.session? j = some s)
    (ht : e.registry.session? k = some t) (hid : s.id = t.id) : j = k := by
  refine hids ?_
  rw [← hn j s hs, ← hn k t ht, hid]

/-- What is taken off the list is taken off by a step of a task. -/
theorem Informed.unlisted {e : Engine ρ} {event : Event ρ} {id : String} (hi : Informed e)
    (h : (e.change event).unlisted? = some id) : e.registry.HasClosed id := by
  obtain ⟨hne, hsuspect, hasked⟩ := Change.asked_of_unlisted h
  obtain ⟨q, -, hq⟩ := go_of_change rfl hne hsuspect hasked
  exact (hi q).unlisted (by rw [hq]; exact h)

theorem Retired.step {e e' : Engine ρ} {event : Event ρ} (hret : Retired e) (hi : Informed e)
    (hn : Named e) (hids : Function.Injective e.registry.ids) (h : e.step? event = some e') :
    Retired e' := by
  intro k s' hs' hl'
  obtain ⟨s, hs, ha⟩ | ⟨metadata, -, -, rfl⟩ := origin_of_step? h hs'
  · refine ha.later.closed ?_
    rcases Bool.eq_false_or_eq_true s.listed with hl | hl
    · -- it has just been taken off the list
      have hc : (e.change event).unlisted? = some s.id := by
        rw [ha.listed, hl] at hl'
        simpa using hl'
      obtain ⟨seat, t, ht, hid, hclosed⟩ := hi.unlisted hc
      obtain rfl := hn.seat_eq hids ht hs hid
      rw [hs] at ht
      cases ht
      exact hclosed
    · exact hret k s hs hl
  · cases hl'

end Engine

end Workbench
