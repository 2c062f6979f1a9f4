import Workbench.Proofs.Engine.Trace

/-!
# The capacity of the registry

A session takes a slot from its registration until it is closed or taken off the list.  A start
looks for a free slot and registers its session in one step, builds the resource without holding on
to the registry, and gives the slot back if that fails; closes, sweeps and other starts happen in
between.

* `Registry.liveCount` counts the slots that are taken; only a registration adds one
  (`liveCount_of_step?`), and only a start that found a free one registers (`register_of_step?`);
* `Begun` follows a start from its registration to its failure (`Begun.step`);
* `HoldsCapacity` puts the bound, the answers of starts and what they leave behind together.
-/

namespace Workbench

variable {ρ : Type}

/-! ## 1. Slots -/

/-- The session takes a slot. -/
def Session.isLive (s : Session ρ) : Bool := s.listed && !s.isClosed

namespace Registry

/-- How many slots are taken. -/
def liveCount (r : Registry ρ) : Nat := (r.listed.filter fun s => !s.isClosed).length

theorem liveCount_eq (r : Registry ρ) : r.liveCount = r.sessions.countP Session.isLive := by
  rw [liveCount, listed, List.filter_filter, ← List.countP_eq_length_filter]
  exact List.countP_congr fun s _ => by simp [Session.isLive, Bool.and_comm]

theorem isFull_iff (r : Registry ρ) : r.isFull = true ↔ r.settings.maxConcurrent ≤ r.liveCount := by
  simp [isFull, liveCount]

end Registry

/-- A list whose members are held to more than those of another counts no more of them. -/
theorem countP_le_of_getElem? {α : Type} {p : α → Bool} {l l' : List α}
    (h : ∀ (k : Nat) x', l'[k]? = some x' → p x' = true → ∃ x, l[k]? = some x ∧ p x = true) :
    l'.countP p ≤ l.countP p := by
  induction l' generalizing l with
  | nil => simp
  | cons x' rest' ih =>
    cases l with
    | nil =>
      refine Nat.le_of_eq (List.countP_eq_zero.mpr fun y hy hp => ?_)
      obtain ⟨k, hk⟩ := List.getElem?_of_mem hy
      obtain ⟨x, hx, -⟩ := h k y hk hp
      simp at hx
    | cons x rest =>
      have hrest := ih (l := rest) fun k y hk hp => h (k + 1) y hk hp
      rw [List.countP_cons, List.countP_cons]
      rcases Bool.eq_false_or_eq_true (p x') with hp | hp
      · obtain ⟨z, hz, hpz⟩ := h 0 x' rfl hp
        cases hz
        rw [hp, hpz]
        simpa using hrest
      · rw [hp]
        simp only [Bool.false_eq_true, if_false]
        omega

namespace Engine

/-- **Only a registration takes a slot.** -/
theorem liveCount_of_step? {e e' : Engine ρ} {event : Event ρ} (h : e.step? event = some e') :
    e'.registry.liveCount ≤ e.registry.liveCount ∨
      ∃ metadata, e.change event = .register metadata ∧
        e'.registry.liveCount ≤ e.registry.liveCount + 1 := by
  have hstay : ∀ k s', e'.registry.session? k = some s' → s'.isLive = true →
      k < e.registry.sessions.length →
      ∃ s, e.registry.session? k = some s ∧ s.isLive = true := by
    intro k s' hs' hl hk
    have hs : e.registry.session? k = some e.registry.sessions[k] := List.getElem?_eq_getElem hk
    obtain ⟨s₁, hs₁, ha⟩ := session_of_step? h hs
    rw [hs'] at hs₁
    cases hs₁
    refine ⟨_, hs, ?_⟩
    unfold Session.isLive at hl ⊢
    simp only [Bool.and_eq_true, Bool.not_eq_true'] at hl ⊢
    refine ⟨?_, ?_⟩
    · have := hl.1
      rw [ha.listed, Bool.and_eq_true] at this
      exact this.1
    · refine Bool.eq_false_iff.mpr fun hc => ?_
      rw [ha.closed_iff.mpr (Or.inl hc)] at hl
      cases hl.2
  rw [Registry.liveCount_eq, Registry.liveCount_eq]
  rcases Registry.length_sessions_after e.registry (e.change event) with hl | ⟨metadata, hc, hl⟩
  · refine Or.inl (countP_le_of_getElem? fun k s' hs' hp => hstay k s' hs' hp ?_)
    have := (List.getElem?_eq_some_iff.mp hs').1
    rw [registry_of_step? h, hl] at this
    exact this
  · refine Or.inr ⟨metadata, hc, ?_⟩
    rw [registry_of_step? h, hc]
    simp only [Registry.after, Registry.register, List.countP_append, List.countP_singleton]
    split <;> omega

end Engine

namespace Engine

/-- **A registration has found a free slot.** -/
theorem register_of_step? {e : Engine ρ} {event : Event ρ} {metadata : List (String × Json)}
    (h : e.change event = .register metadata) :
    ∃ q, event = .go q ∧ e.partAt q = .create (.enter metadata) ∧ e.registry.isFull = false := by
  obtain ⟨q, rfl, hc⟩ := go_of_change h (by rintro ⟨⟩) (by rintro seat ⟨⟩) rfl
  refine ⟨q, rfl, ?_⟩
  rcases (e.partAt q).change_cases e.registry with hp | ⟨metadata', hp, hf, hm⟩ |
    ⟨seat, reason, s, -, -, hm⟩ | ⟨info, arguments, seat, -, hm⟩
  · rw [hc] at hp
    cases hp
  · rw [hc] at hm
    cases hm
    exact ⟨hp, hf⟩
  · rw [hc] at hm
    cases hm
  · rw [hc] at hm
    cases hm

/-- There are no more live sessions than allowed. -/
def WithinCapacity (e : Engine ρ) : Prop :=
  e.registry.liveCount ≤ e.registry.settings.maxConcurrent

/-- **No event goes beyond the capacity.** -/
theorem WithinCapacity.step {e e' : Engine ρ} {event : Event ρ} (hw : WithinCapacity e)
    (h : e.step? event = some e') : WithinCapacity e' := by
  unfold WithinCapacity at hw ⊢
  rw [(settings_of_step? h).1]
  rcases liveCount_of_step? h with hl | ⟨metadata, hc, hl⟩
  · omega
  · obtain ⟨q, -, -, hf⟩ := register_of_step? hc
    have : ¬ e.registry.settings.maxConcurrent ≤ e.registry.liveCount := by
      rw [← Registry.isFull_iff, hf]
      simp
    omega

end Engine

/-! ## 2. The steps of a start -/

/-- The two kinds of tasks that start a session. -/
theorem Task.part_eq_create {t : Task} {stage : Creation} (h : t.part = .create stage) :
    t = .create stage ∨ ∃ c, t = .call c (.create stage) := by
  cases t with
  | create stage' =>
    cases h
    exact Or.inl rfl
  | call c stage' =>
    cases stage' with
    | create stage'' =>
      cases h
      exact Or.inr ⟨c, rfl⟩
    | enter info id seat =>
      simp only [part, CallStage.part] at h
      split at h <;> cases h
    | _ => cases h
  | shutdown stage' => cases stage' <;> cases h
  | patrol stage' calledOff => cases stage' <;> cases h
  | _ => cases h

namespace Engine

/-- **What a start does in its turn**, whether it was asked for by a call or not: it goes on, it
ends with its answer, or it gets no worker. -/
theorem creation_of_step? {e e' : Engine ρ} {event : Event ρ} {q : Nat} {stage : Creation}
    (h : e.step? event = some e') (hq : e.partAt q = .create stage)
    (hp : event.place? = some q) :
    (∃ stage', stage.step e.registry = .next e'.registry stage' ∧ e'.partAt q = .create stage' ∧
        e'.failure? q = none) ∨
      (∃ a, stage.step e.registry = .done e'.registry a ∧ e'.partAt q = .idle ∧
        e'.failure? q = match a with
          | .ok _ => none
          | .error err => some err.toToolError) ∨
      ∃ metadata reason, stage = .enter metadata ∧ e.registry.isFull = false ∧
        e'.registry = e.registry ∧ e'.partAt q = .idle ∧
        e'.failure? q = some (.sessionInitFailed reason) := by
  obtain ⟨t, ht, hkind⟩ := task_of_partAt hq (by rintro ⟨⟩)
  replace hkind := Task.part_eq_create hkind
  cases takes_of_step? h hp ht with
  | @go _ t' r hg =>
    obtain ⟨hpart, hfail⟩ := at_proceed r t' ht
    rcases hkind with rfl | ⟨c, rfl⟩
    · rcases Progress.cases_of_goes hg with ⟨stage', hs, rfl⟩ | ⟨a, hs, rfl⟩
      · exact Or.inl ⟨stage', hs, hpart, hfail⟩
      · refine Or.inr (Or.inl ⟨a, hs, hpart, hfail.trans ?_⟩)
        cases a <;> rfl
    · rcases Progress.cases_of_goes hg with ⟨stage₁, hs₁, rfl⟩ | ⟨a₁, hs₁, rfl⟩
      · cases CallStage.steps_of_step hs₁ with
        | create hs => exact Or.inl ⟨_, hs, hpart, hfail⟩
      · cases CallStage.steps_of_step hs₁ with
        | created hs | createFailed hs => exact Or.inr (Or.inl ⟨_, hs, hpart, hfail⟩)
  | callOff => rcases hkind with hk | ⟨c, hk⟩ <;> cases hk
  | expire hg | detour hg => rcases hkind with rfl | ⟨c, rfl⟩ <;> cases hg
  | cutOff hpoint => rcases hkind with hk | ⟨c, hk⟩ <;> cases hk
  | @refuse _ t' r reason hg =>
    obtain ⟨hpart, hfail⟩ := at_proceed r t' ht
    obtain ⟨rfl, hf, metadata, ⟨rfl, rfl⟩ | ⟨c, rfl, rfl⟩⟩ := Task.of_refuse? hg
    · rcases hkind with hk | ⟨c, hk⟩ <;> cases hk
      exact Or.inr (Or.inr ⟨metadata, reason, rfl, hf, rfl, hpart, hfail⟩)
    · rcases hkind with hk | ⟨c, hk⟩ <;> cases hk
      exact Or.inr (Or.inr ⟨metadata, reason, rfl, hf, rfl, hpart, hfail⟩)

/-! ## 3. A start from its registration to its failure -/

/-- The task at a place registered the session at a seat. -/
def Registers (past : List (Engine ρ × Event ρ)) (q seat : Nat) : Prop :=
  ∃ e metadata, (e, .go q) ∈ past ∧ e.change (.go q) = .register metadata ∧
    e.registry.nextSeat = seat

theorem Registers.mono {past : List (Engine ρ × Event ρ)} {q seat : Nat}
    (h : Registers past q seat) (x : Engine ρ × Event ρ) : Registers (past ++ [x]) q seat := by
  obtain ⟨e, metadata, hm, hc, hs⟩ := h
  exact ⟨e, metadata, List.mem_append_left _ hm, hc, hs⟩

end Engine

/-- The seat of the session that a start has registered. -/
def Creation.seat? : Creation → Option Nat
  | enter _ => none
  | awaitReady seat => some seat
  | beginClose seat _ => some seat
  | shutdown seat _ => some seat
  | remove seat _ => some seat

/-- The start has failed, and has closed its session. -/
def Creation.hasClosed : Creation → Bool
  | shutdown _ _ => true
  | remove _ _ => true
  | _ => false

namespace Engine

/-- A start that has registered a session knows its seat, and closes it before it takes it off the
list. -/
def Begun (past : List (Engine ρ × Event ρ)) (e : Engine ρ) (q : Nat) : Prop :=
  ∀ stage seat, e.partAt q = .create stage → stage.seat? = some seat →
    Registers past q seat ∧
      ∃ s, e.registry.session? seat = some s ∧ (stage.hasClosed = true → s.isClosed = true)

/-- A start keeps its seat, and closes the session there if it fails. -/
theorem begun_of_next {past : List (Engine ρ × Event ρ)} {e e' : Engine ρ} {event : Event ρ}
    {q : Nat} {stage stage' : Creation} (hb : Begun past e q) (h : e.step? event = some e')
    (hp : e.partAt q = .create stage) (hplace : event.place? = some q)
    (hc : e.change event = stage.change e.registry) {r' : Registry ρ}
    (hn : stage.step e.registry = .next r' stage') {seat : Nat} (hs : stage'.seat? = some seat) :
    Registers (past ++ [(e, event)]) q seat ∧ ∃ s, e'.registry.session? seat = some s ∧
      (stage'.hasClosed = true → s.isClosed = true) := by
  -- past the registration, the session is there, and stays closed once it is
  have hkeep : ∀ {seat₀}, stage.seat? = some seat₀ → ∃ s s',
      Registers (past ++ [(e, event)]) q seat₀ ∧ e.registry.session? seat₀ = some s ∧
      e'.registry.session? seat₀ = some s' ∧ (e.change event).Altered seat₀ s s' ∧
      (stage.hasClosed = true → s'.isClosed = true) := by
    intro seat₀ h₀
    obtain ⟨hreg, s, hsess, hclosed⟩ := hb stage seat₀ hp h₀
    obtain ⟨s', hs', ha⟩ := session_of_step? h hsess
    exact ⟨s, s', hreg.mono _, hsess, hs', ha, fun hh => ha.closed_iff.mpr (Or.inl (hclosed hh))⟩
  cases Creation.steps_of_step hn with
  | @registered metadata hfull =>
    cases hs
    have hreg : e.change event = .register metadata := by
      rw [hc, Creation.change, hfull]
      rfl
    obtain ⟨q', rfl, -, -⟩ := register_of_step? hreg
    cases hplace
    refine ⟨⟨e, metadata, by simp, hreg, rfl⟩,
      .create (e.registry.ids e.registry.nextSeat) metadata e.registry.settings.maxQueueDepth
        e.registry.now, ?_, fun hh => by cases hh⟩
    rw [registry_of_step? h, hreg]
    simp [Registry.after, Registry.register, Registry.session?, Registry.nextSeat]
  | failed _ _ =>
    obtain ⟨s, s', hreg, -, hs', -, -⟩ := hkeep rfl
    cases hs
    exact ⟨hreg, s', hs', fun hh => by cases hh⟩
  | closed seat₀ reason =>
    obtain ⟨s, s', hreg, hsess, hs', ha, -⟩ := hkeep rfl
    cases hs
    refine ⟨hreg, s', hs', fun _ => ha.closed_iff.mpr ?_⟩
    rw [hc, Creation.change, Change.closing, hsess]
    rcases Bool.eq_false_or_eq_true s.isClosed with hcl | hcl
    · exact Or.inl hcl
    · exact Or.inr (by simp [hcl])
  | shutDown seat₀ reason =>
    obtain ⟨s, s', hreg, -, hs', -, hclosed⟩ := hkeep rfl
    cases hs
    exact ⟨hreg, s', hs', fun _ => hclosed rfl⟩

/-- **Every event keeps the starts to their way.** -/
theorem Begun.step {past : List (Engine ρ × Event ρ)} {e e' : Engine ρ} {event : Event ρ}
    (hb : ∀ q, Begun past e q) (h : e.step? event = some e') (q : Nat) :
    Begun (past ++ [(e, event)]) e' q := by
  intro stage' seat hp' hs
  rcases partAt_of_step? h q with ⟨hplace, hgoes⟩ | ⟨-, heq | ⟨-, hinit⟩⟩
  · rw [hp'] at hgoes
    generalize hp : e.partAt q = p at hgoes
    generalize hc : e.change event = c at hgoes
    cases hgoes with
    | begin hinit =>
      cases hinit
      cases hs
    | entered hinit =>
      cases hinit
      cases hs
    | create hn => exact begun_of_next (hb q) h hp hplace hc hn hs
  · obtain ⟨hreg, s, hsess, hclosed⟩ := hb q stage' seat (heq ▸ hp') hs
    obtain ⟨s', hs', ha⟩ := session_of_step? h hsess
    exact ⟨hreg.mono _, s', hs', fun hh => ha.closed_iff.mpr (Or.inl (hclosed hh))⟩
  · rw [hp'] at hinit
    cases hinit
    cases hs

end Engine

/-! ## 4. The bound and the answers -/

/-- What was taken off the list is not found there. -/
theorem Registry.seat?_remove (r : Registry ρ) (id : String) : (r.remove id).seat? id = none := by
  refine seat?_eq_none.mpr fun k s hs => ?_
  simp only [session?, remove, List.getElem?_map, Option.map_eq_some_iff] at hs
  obtain ⟨s₀, -, rfl⟩ := hs
  split
  · simp [holds]
  · simpa using ‹¬ holds s₀ id = true›

namespace Engine

section Starts

variable {past : List (Engine ρ × Event ρ)} {e e' : Engine ρ} {event : Event ρ} {q : Nat}

/-- The step of a start that looks for a slot. -/
theorem look_of_step? {metadata : List (String × Json)} (h : e.step? event = some e')
    (hp : e.partAt q = .create (.enter metadata)) (hplace : event.place? = some q) :
    (e.registry.isFull = true ∧ e'.registry = e.registry ∧
      e'.failure? q = some (.capacityExceeded e.registry.settings.maxConcurrent)) ∨
    (e.registry.isFull = false ∧ (e'.failure? q ≠ none → e'.registry = e.registry) ∧
      ∀ limit, e'.failure? q ≠ some (.capacityExceeded limit)) := by
  rcases creation_of_step? h hp hplace with ⟨stage', hs, -, hf⟩ | ⟨a, hs, -, hf⟩ |
    ⟨metadata', reason, -, hfree, hr, -, hf⟩
  · generalize e'.registry = r' at hs
    cases Creation.steps_of_step hs with
    | registered hfull =>
      exact Or.inr ⟨hfull, fun hne => absurd hf hne, fun limit hl => by simp [hf] at hl⟩
  · generalize e'.registry = r' at hs ⊢
    cases Creation.steps_of_step hs with
    | full hfull => exact Or.inl ⟨hfull, rfl, hf⟩
  · exact Or.inr ⟨hfree, fun _ => hr, fun limit hl => by simp [hf] at hl⟩

/-- A start that fails behind that step takes its session off the list. -/
theorem removed_of_failure? {stage : Creation} {err : ToolError} (hb : Begun past e q)
    (h : e.step? event = some e') (hp : e.partAt q = .create stage) (hplace : event.place? = some q)
    (hf : e'.failure? q = some err) (hne : ∀ metadata, stage ≠ .enter metadata) :
    ∃ seat reason, stage = .remove seat reason ∧ err = .sessionInitFailed reason ∧
      ∃ s, e.registry.session? seat = some s ∧ e'.registry = e.registry.remove s.id := by
  rcases creation_of_step? h hp hplace with ⟨stage', hs, -, hnone⟩ | ⟨a, hs, -, hsome⟩ |
    ⟨metadata, reason, rfl, -⟩
  · rw [hnone] at hf
    cases hf
  · rw [hsome] at hf
    cases a with
    | ok info => cases hf
    | error e₁ =>
      cases hf
      generalize e'.registry = r' at hs ⊢
      cases Creation.steps_of_step hs with
      | full _ => exact absurd rfl (hne _)
      | vacant hnone =>
        obtain ⟨-, s, hsess, -⟩ := hb _ _ hp rfl
        rw [hnone] at hsess
        cases hsess
      | removed hsess => exact ⟨_, _, rfl, rfl, _, hsess, rfl⟩
  · exact absurd rfl (hne metadata)

/-- **What is taken off the list stays off it**: the session for good, and its identifier unless
another session gets the same. -/
theorem gone_of_removed {seat : Nat} {s : Session ρ} (hn : Named e) (h : e.step? event = some e')
    (hs : e.registry.session? seat = some s) (hr : e'.registry = e.registry.remove s.id) :
    e'.registry.seat? (e.registry.ids seat) = none ∧
      ∀ later e'', e'.run? later = some e'' →
        (∃ s, e''.registry.session? seat = some s ∧ s.isLive = false ∧ s.listed = false) ∧
        (Function.Injective e.registry.ids → e''.registry.seat? (e.registry.ids seat) = none) := by
  have hid : s.id = e.registry.ids seat := hn seat s hs
  have hgone : e'.registry.seat? (e.registry.ids seat) = none := by
    rw [hr, ← hid]
    exact Registry.seat?_remove _ _
  obtain ⟨s', hs', ha⟩ := session_of_step? h hs
  have hlisted : s'.listed = false := by
    have := Registry.seat?_eq_none.mp hgone seat s' hs'
    simpa [Registry.holds, ha.id, hid] using this
  refine ⟨hgone, fun later e'' hlater => ?_⟩
  obtain ⟨s'', hs'', -, -, hl''⟩ := session_of_run? hlater hs'
  refine ⟨⟨s'', hs'', by simp [Session.isLive, hl'' hlisted], hl'' hlisted⟩, fun hinj => ?_⟩
  refine Registry.seat?_eq_none.mpr fun k t ht => ?_
  have hids : e''.registry.ids = e.registry.ids :=
    (settings_of_run? hlater).2.trans (settings_of_step? h).2
  have htid : t.id = e.registry.ids k := hids ▸ (hn.step h).run hlater k t ht
  refine Bool.eq_false_iff.mpr fun hh => ?_
  simp only [Registry.holds, Bool.and_eq_true, beq_iff_eq] at hh
  obtain rfl : k = seat := hinj (htid.symm.trans hh.2)
  rw [hs''] at ht
  cases ht
  rw [hl'' hlisted] at hh
  cases hh.1

end Starts

/-- What holds of an engine that started without sessions, after whatever has happened to it. -/
structure HoldsCapacity (past : List (Engine ρ × Event ρ)) (e : Engine ρ) : Prop where
  /-- There are no more live sessions than allowed. -/
  live_le : e.registry.liveCount ≤ e.registry.settings.maxConcurrent
  /-- A start is refused exactly if all slots are taken when it looks. -/
  refused_iff : ∀ q metadata event e', e.partAt q = .create (.enter metadata) →
    event.place? = some q → e.step? event = some e' →
    ((∃ limit, e'.failure? q = some (.capacityExceeded limit)) ↔
      e.registry.liveCount = e.registry.settings.maxConcurrent)
  /-- It is told the limit then, and nothing is registered. -/
  refused : ∀ q metadata event e', e.partAt q = .create (.enter metadata) →
    event.place? = some q → e.step? event = some e' →
    e.registry.liveCount = e.registry.settings.maxConcurrent →
    e'.registry = e.registry ∧
      e'.failure? q = some (.capacityExceeded e.registry.settings.maxConcurrent)
  /-- It is not refused later on. -/
  refused_first : ∀ q stage event e' limit, e.partAt q = .create stage →
    event.place? = some q → e.step? event = some e' →
    e'.failure? q = some (.capacityExceeded limit) → ∃ metadata, stage = .enter metadata
  /-- A start that fails has registered nothing, or takes what it has registered off the list, for
  good. -/
  failed : ∀ q stage event e' err, e.partAt q = .create stage → event.place? = some q →
    e.step? event = some e' → e'.failure? q = some err →
    ((∃ metadata, stage = .enter metadata) ∧ e'.registry = e.registry) ∨
      ∃ seat, Registers past q seat ∧ e'.registry.seat? (e.registry.ids seat) = none ∧
        ∀ later e'', e'.run? later = some e'' →
          (∃ s, e''.registry.session? seat = some s ∧ s.isLive = false ∧ s.listed = false) ∧
          (Function.Injective e.registry.ids → e''.registry.seat? (e.registry.ids seat) = none)

theorem HoldsCapacity.of_invariants {past : List (Engine ρ × Event ρ)} {e : Engine ρ}
    (hw : WithinCapacity e) (hb : ∀ q, Begun past e q) (hn : Named e) : HoldsCapacity past e := by
  have hfull : e.registry.isFull = true ↔
      e.registry.liveCount = e.registry.settings.maxConcurrent := by
    unfold WithinCapacity at hw
    rw [Registry.isFull_iff]
    omega
  constructor
  case live_le => exact hw
  case refused_iff =>
    intro q metadata event e' hp hplace h
    rw [← hfull]
    rcases look_of_step? h hp hplace with ⟨hf, -, hfail⟩ | ⟨hf, -, hfail⟩
    · exact ⟨fun _ => hf, fun _ => ⟨_, hfail⟩⟩
    · constructor
      · rintro ⟨limit, hl⟩
        exact absurd hl (hfail limit)
      · intro hf'
        rw [hf] at hf'
        cases hf'
  case refused =>
    intro q metadata event e' hp hplace h hl
    rcases look_of_step? h hp hplace with ⟨-, hr, hfail⟩ | ⟨hf, -⟩
    · exact ⟨hr, hfail⟩
    · rw [hfull.mpr hl] at hf
      cases hf
  case refused_first =>
    intro q stage event e' limit hp hplace h hl
    by_cases he : ∃ metadata, stage = .enter metadata
    · exact he
    · obtain ⟨seat, reason, -, herr, -⟩ := removed_of_failure? (hb q) h hp hplace hl
        fun metadata hm => he ⟨metadata, hm⟩
      cases herr
  case failed =>
    intro q stage event e' err hp hplace h hl
    by_cases he : ∃ metadata, stage = .enter metadata
    · obtain ⟨metadata, rfl⟩ := he
      refine Or.inl ⟨⟨metadata, rfl⟩, ?_⟩
      rcases look_of_step? h hp hplace with ⟨-, hr, -⟩ | ⟨-, hr, -⟩
      · exact hr
      · exact hr (by rw [hl]; rintro ⟨⟩)
    · obtain ⟨seat, reason, rfl, -, s, hs, hr⟩ := removed_of_failure? (hb q) h hp hplace hl
        fun metadata hm => he ⟨metadata, hm⟩
      obtain ⟨hgone, hlater⟩ := gone_of_removed hn h hs hr
      exact Or.inr ⟨seat, (hb q _ seat hp rfl).1, hgone, hlater⟩

/-- **Whatever is started, closed or swept at the same time**, there are never more live sessions
than allowed, and a start that fails leaves nothing behind. -/
theorem holdsCapacity_of_run? {settings : SessionSettings} {standard : Duration}
    {ids : Nat → String} {now : Nat} {e : Engine ρ} {events : List (Event ρ)}
    (h : (start settings standard ids now).run? events = some e) :
    HoldsCapacity ((start settings standard ids now).trace events) e := by
  have hw : WithinCapacity e := by
    refine run?_invariant (fun _ _ _ hw h => hw.step h) h ?_
    simp [WithinCapacity, start, Registry.start, Registry.liveCount, Registry.listed]
  have hb₀ : ∀ q, Begun [] (start settings standard ids now : Engine ρ) q := by
    intro q stage seat hp
    simp [partAt, start] at hp
  have hb : ∀ q, Begun ((start settings standard ids now).trace events) e q :=
    run?_induction (P := fun past e => ∀ q, Begun past e q)
      (fun _ _ _ _ hb h q => Begun.step hb h q) h hb₀
  exact .of_invariants hw hb ((named_start settings standard ids now).run h)

/-- Limits for one session at a time. -/
def oneSession : SessionSettings :=
  ⟨1, .ofSeconds 3600, .ofSeconds 300, .ofSeconds 30, 64⟩

/-- Two identifiers. -/
def twoIds (seat : Nat) : String :=
  if seat = 0 then "8c1f6a52-0d0e-4c6b-9f3e-2a7d5b90c114"
  else "e3b7d940-71aa-4f0c-8e55-60c2f4a1d7b8"

/-- Two starts compete for one slot; the one that gets it finds no resource. -/
def contestedStart : List (Event Nat) :=
  [.arrive (.create []), .arrive (.create []), .go 0, .go 1, .work 0 (.buildFailed "no licence"),
    .go 0, .go 0, .go 0, .go 0]

theorem holdsCapacity_contestedStart : ∃ e : Engine Nat,
    (start oneSession (.ofSeconds 60) twoIds 0).run? contestedStart = some e ∧
    HoldsCapacity ((start oneSession (.ofSeconds 60) twoIds 0).trace contestedStart) e ∧
    e.failure? 1 = some (.capacityExceeded 1) ∧
    e.failure? 0 = some (.sessionInitFailed "resource initialization failed: no licence") ∧
    e.registry.seat? (twoIds 0) = none ∧ e.registry.liveCount = 0 :=
  ⟨_, rfl, holdsCapacity_of_run? rfl, rfl, rfl, rfl, rfl⟩

end Engine
end Workbench
