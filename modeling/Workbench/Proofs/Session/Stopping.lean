import Workbench.Proofs.Session.Knowledge

/-!
# Stopping

Stopping calls the patrol off and closes all sessions.  A close leaves a session alone that somebody
else has closed, and counts on whoever did to see its end through.

* `Minded` says that whoever closes a session sees its end through, but for a sweep that is cut
  short (`CutShort`);
* `Task.Covers` says that stopping passes over no session;
* `emptied_of_stop` is what stopping leaves behind, and `not_emptied_cutShort` the run in which a
  sweep is cut short and the session stays.
-/

namespace Workbench

variable {ρ : Type}

/-! ## 1. Sweeps that release a session -/

/-- A call does not sweep. -/
theorem CallStage.part_ne_sweep (stage : CallStage) (c : Call) (s : Sweep) :
    stage.part c ≠ .sweep s := by
  cases stage with
  | enter info id seat =>
    simp only [part]
    split <;> rintro ⟨⟩
  | _ => rintro ⟨⟩

/-- A sweep that releases a session does not come to its end with that step. -/
theorem Task.goesOn_of_sweep {r r' : Registry ρ} {standard : Duration} {t t' : Task} {k : Nat}
    {stage : Release} {rest : List Nat} {closed : List String}
    (ht : t.part = .sweep (.release k stage rest closed))
    (h : t.go? r standard = some (r', t')) : t'.part ≠ .idle := by
  have hsweep : ∀ {r₁ a}, (Sweep.release k stage rest closed).step r ≠ .done r₁ a := by
    intro r₁ a hdone
    cases Sweep.steps_of_step hdone
  cases t with
  | sweep stage₀ =>
    cases ht
    rcases Progress.cases_of_goes h with ⟨stage₁, -, rfl⟩ | ⟨a, hdone, -⟩
    · rintro ⟨⟩
    · exact absurd hdone hsweep
  | patrol stage₀ calledOff =>
    cases stage₀ with
    | resting => cases ht
    | sweeping stage₀ =>
      cases ht
      simp only [Task.go?] at h
      split at h
      · cases h
      · rcases Progress.cases_of_goes h with ⟨stage₁, hs, rfl⟩ | ⟨a, hs, -⟩
        · cases Patrol.steps_of_step hs with
          | sweeps _ => rintro ⟨⟩
          | swept hdone => exact absurd hdone hsweep
        · cases Patrol.steps_of_step hs
  | shutdown stage₀ => cases stage₀ <;> cases ht
  | call c stage₀ => exact absurd ht (stage₀.part_ne_sweep c _)
  | _ => cases ht

/-- Nor does it when its time is up. -/
theorem Task.goesOn_of_expire? {r r' : Registry ρ} {t t' : Task} {k : Nat} {stage : Release}
    {rest : List Nat} {closed : List String} (ht : t.part = .sweep (.release k stage rest closed))
    (h : t.expire? r = some (r', t')) : t'.part ≠ .idle := by
  cases lapses_of_expire? h with
  | await hs => cases ht
  | sweep hs => rintro ⟨⟩
  | @patrol stage₀ stage₁ hs =>
    cases stage₀ with
    | resting => cases ht
    | sweeping stage₀ =>
      obtain ⟨stage₂, -, rfl⟩ := Option.map_eq_some_iff.mp hs
      rintro ⟨⟩
  | @shutdown stage₀ stage₁ hs => cases stage₀ <;> cases ht
  | _ => cases ht

namespace Engine

/-! ## 2. Who minds a closed session -/

/-- A task sweeps the session at a seat up. -/
def SweptBy (k q : Nat) (e : Engine ρ) : Prop :=
  ∃ stage rest closed, e.partAt q = .sweep (.release k stage rest closed)

/-- A sweep is cut off while it releases the session at a seat. -/
def CutShort (k : Nat) (x : Engine ρ × Event ρ) : Prop :=
  ∃ q, x.2 = .cutOff q ∧ SweptBy k q x.1

/-- **A closed session is minded**: somebody has to do with it, or it is through, unless its sweep
was cut short. -/
def Minded (k : Nat) (past : List (Engine ρ × Event ρ)) (e : Engine ρ) : Prop :=
  ∀ s, e.registry.session? k = some s → s.isClosed = true →
    (∃ q, (e.partAt q).hold k ≠ .free) ∨ s.Dismissed ∨ ∃ x ∈ past, CutShort k x

/-- Only to be cut off ends a sweep that releases a session. -/
theorem cutOff_of_step? {e e' : Engine ρ} {event : Event ρ} {k q : Nat}
    (h : e.step? event = some e') (hp : event.place? = some q) (hq : SweptBy k q e)
    (hidle : e'.partAt q = .idle) : event = .cutOff q := by
  obtain ⟨stage, rest, closed, hpart⟩ := hq
  obtain ⟨t, ht, hpart⟩ := task_of_partAt hpart (by rintro ⟨⟩)
  cases takes_of_step? h hp ht with
  | @go _ t' r hg =>
    rw [(at_proceed r t' ht).1] at hidle
    exact absurd hidle (Task.goesOn_of_sweep hpart hg)
  | callOff => cases hpart
  | @expire _ t' r hg =>
    rw [(at_proceed r t' ht).1] at hidle
    exact absurd hidle (Task.goesOn_of_expire? hpart hg)
  | cutOff hpoint => rfl
  | refuse hg =>
    obtain ⟨-, -, metadata, ⟨rfl, -⟩ | ⟨c, rfl, -⟩⟩ := Task.of_refuse? hg <;> cases hpart
  | detour hg =>
    obtain ⟨_, _, hs, ⟨rfl, -⟩ | ⟨_, rfl, -⟩⟩ := Task.of_detour? hg <;>
      (cases hpart; cases Sweep.detours_of_detour? hs)

/-- **Whoever closes a session minds it to its end.** -/
theorem Minded.step {k : Nat} {past : List (Engine ρ × Event ρ)} {e e' : Engine ρ}
    {event : Event ρ} (hm : Minded k past e) (hi : Informed e)
    (h : e.step? event = some e') : Minded k (past ++ [(e, event)]) e' := by
  intro s' hs' hc'
  obtain ⟨s, hs, ha⟩ | ⟨metadata, -, -, rfl⟩ := origin_of_step? h hs'
  · rcases ha.closed_iff.mp hc' with hc | hclose
    · rcases hm s hs hc with ⟨q, hq⟩ | hdone | ⟨x, hx, hcut⟩
      · by_cases hq' : (e'.partAt q).hold k = .free
        · rcases partAt_of_step? h q with ⟨hp, hgoes⟩ | ⟨-, heq | ⟨hidle, -⟩⟩
          · rcases (hi q).dismissed hgoes (follows_of_step? h) hs' hq hq' with
              hdone | ⟨stage, rest, closed, hsweep, hidle⟩
            · exact Or.inr (Or.inl hdone)
            · have hby : SweptBy k q e := ⟨stage, rest, closed, hsweep⟩
              exact Or.inr (Or.inr ⟨(e, event), by simp, q, cutOff_of_step? h hp hby hidle, hby⟩)
          · rw [heq] at hq'
            exact absurd hq' hq
          · rw [hidle] at hq
            exact absurd rfl hq
        · exact Or.inl ⟨q, hq'⟩
      · exact Or.inr (Or.inl (ha.later.dismissed hdone))
      · exact Or.inr (Or.inr ⟨x, List.mem_append_left _ hx, hcut⟩)
    · -- it has just been closed, and whoever has closed it holds it
      have hv : e.registry.session? k = none → ∀ q, (e.partAt q).hold k = .free := by
        rw [hs]
        rintro ⟨⟩
      refine Or.inl ?_
      rcases dealing_of_step? hv h with ⟨q, -, hd, -⟩ | ⟨hquiet, -⟩
      · refine ⟨q, ?_⟩
        rw [hclose] at hd
        generalize (e.partAt q).hold k = before at hd
        generalize (e'.partAt q).hold k = after at hd ⊢
        cases hd with
        | quiet hquiet _ => exact absurd rfl hquiet.close
        | wins hs ho => rintro ⟨⟩
        | fails hs ho => rintro ⟨⟩
      · exact absurd hclose hquiet.close
  · cases hc'

end Engine

/-! ## 3. Whom stopping has still to close -/

/-- Every session that is not closed has still its turn. -/
def Registry.LeavesTo (r : Registry ρ) (turn : Nat → String → Prop) : Prop :=
  ∀ k s, r.session? k = some s → s.isClosed = true ∨ turn k s.id

/-- The turn of a session that is being closed has not passed. -/
def Closing.Awaits (stage : Closing) (k : Nat) : Prop := stage = .lookup ∨ stage = .begin k

/-- The task stops the engine, or has stopped it. -/
def Task.Stops : Task → Prop
  | callOff => True
  | shutdown _ => True
  | finished .stopped => True
  | _ => False

/-- The sessions, by seat and identifier, that a task which stops the engine has still to close. -/
def Task.turn : Task → Nat → String → Prop
  | callOff, _, _ => True
  | shutdown .collect, _, _ => True
  | shutdown (.next rest), _, id => id ∈ rest
  | shutdown (.close id stage rest), k, id' => id' ∈ rest ∨ (id' = id ∧ stage.Awaits k)
  | _, _, _ => False

/-- The task stops the engine, and **passes over no session**. -/
def Task.Covers (r : Registry ρ) (t : Task) : Prop := t.Stops ∧ r.LeavesTo t.turn

/-- What is needed of the sessions: those that are there were there before, whoever is off the list
is closed, and their identifiers differ. -/
structure Registry.Steady (r r' : Registry ρ) (c : Change ρ) : Prop where
  stems : ∀ k s', r'.session? k = some s' → ∃ s, r.session? k = some s ∧ c.Altered k s s'
  retired : ∀ k s, r.session? k = some s → s.listed = false → s.isClosed = true
  single : ∀ j k s t, r.session? j = some s → r.session? k = some t → s.id = t.id → j = k

section Covering

variable {r r' : Registry ρ} {c : Change ρ}

/-- Whose turn it is still to be, it is after a change. -/
theorem Registry.LeavesTo.step {turn turn' : Nat → String → Prop} (hl : r.LeavesTo turn)
    (hs : r.Steady r' c)
    (h : ∀ k s s', r.session? k = some s → c.Altered k s s' → s.isClosed = false → turn k s.id →
      s'.isClosed = true ∨ turn' k s.id) : r'.LeavesTo turn' := by
  intro k s' hs'
  obtain ⟨s, hk, ha⟩ := hs.stems k s' hs'
  rw [ha.id]
  rcases Bool.eq_false_or_eq_true s.isClosed with hc | hc
  · exact Or.inl (ha.later.closed hc)
  · rcases hl k s hk with hclosed | hturn
    · exact Or.inl (ha.later.closed hclosed)
    · exact h k s s' hk ha hc hturn

/-- A session that is not closed is found under its identifier. -/
theorem Registry.Steady.seat? {k : Nat} {s : Session ρ} (hs : r.Steady r' c)
    (hk : r.session? k = some s) (hc : s.isClosed = false) : r.seat? s.id = some k := by
  have hlisted : s.listed = true := by
    cases hl : s.listed with
    | true => rfl
    | false =>
      rw [hs.retired k s hk hl] at hc
      cases hc
  cases hseat : r.seat? s.id with
  | none =>
    have := Registry.seat?_eq_none.mp hseat k s hk
    simp [Registry.holds, hlisted] at this
  | some j =>
    obtain ⟨t, ht, -, hid⟩ := Registry.of_seat? hseat
    rw [hs.single j k t s ht hk hid]

/-- A close that goes on has found its session, or closed it. -/
theorem Closing.awaits_next {id : String} {stage stage' : Closing} {r₁ : Registry ρ} {k : Nat}
    {s s' : Session ρ} (h : stage.step r id = .next r₁ stage') (hs : r.Steady r' (stage.change r))
    (hk : r.session? k = some s) (ha : (stage.change r).Altered k s s') (hc : s.isClosed = false)
    (hid : s.id = id) (haw : stage.Awaits k) : s'.isClosed = true ∨ stage'.Awaits k := by
  rcases haw with rfl | rfl
  · simp only [step, ← hid, hs.seat? hk hc] at h
    cases h
    exact Or.inr (Or.inr rfl)
  · exact Or.inl (ha.closed_of_closing hk)

/-- A close that has come to its end has closed its session. -/
theorem Closing.awaits_done {id : String} {stage : Closing} {r₁ : Registry ρ} {k : Nat}
    {a : Except SessionError Unit} {s s' : Session ρ} (h : stage.step r id = .done r₁ a)
    (hs : r.Steady r' (stage.change r)) (hk : r.session? k = some s)
    (ha : (stage.change r).Altered k s s') (hc : s.isClosed = false) (hid : s.id = id)
    (haw : stage.Awaits k) : s'.isClosed = true := by
  rcases haw with rfl | rfl
  · simp only [step, ← hid, hs.seat? hk hc] at h
    cases h
  · exact ha.closed_of_closing hk

/-- What happens to others leaves the sessions their turn. -/
theorem Task.Covers.stay {t : Task} (hc : t.Covers r) (hs : r.Steady r' c) : t.Covers r' :=
  ⟨hc.1, hc.2.step hs fun _ _ _ _ _ _ hturn => Or.inr hturn⟩

/-- **No step of closing all sessions passes over one.** -/
theorem Shutdown.covers_go {r₁ : Registry ρ} {stage : Shutdown} {t' : Task}
    (hl : r.LeavesTo (Task.shutdown stage).turn)
    (h : (stage.step r).goes Task.shutdown (fun () => .stopped) = some (r₁, t'))
    (hs : r.Steady r' ((Task.shutdown stage).change r)) : t'.Covers r' := by
  rcases Progress.cases_of_goes h with ⟨stage', hstep, rfl⟩ | ⟨a, hstep, rfl⟩
  · cases steps_of_step hstep with
    | collected =>
      refine ⟨trivial, hl.step hs fun k s s' hk ha hopen _ => Or.inr ?_⟩
      obtain ⟨t, ht, hlisted, hid⟩ := Registry.of_seat? (hs.seat? hk hopen)
      rw [← hid]
      exact List.mem_map_of_mem (List.mem_filter.mpr ⟨List.mem_of_getElem? ht, hlisted⟩)
    | begun id rest =>
      refine ⟨trivial, hl.step hs fun k s s' _ _ _ hturn => Or.inr ?_⟩
      rcases List.mem_cons.mp hturn with heq | hrest
      · exact Or.inr ⟨heq, Or.inl rfl⟩
      · exact Or.inl hrest
    | closes hclose =>
      refine ⟨trivial, hl.step hs fun k s s' hk ha hopen hturn => ?_⟩
      rcases hturn with hrest | ⟨hid, haw⟩
      · exact Or.inr (Or.inl hrest)
      · exact (Closing.awaits_next hclose hs hk ha hopen hid haw).imp_right fun h => Or.inr ⟨hid, h⟩
    | closed hclose =>
      refine ⟨trivial, hl.step hs fun k s s' hk ha hopen hturn => ?_⟩
      rcases hturn with hrest | ⟨hid, haw⟩
      · exact Or.inr hrest
      · exact Or.inl (Closing.awaits_done hclose hs hk ha hopen hid haw)
  · cases steps_of_step hstep with
    | finished => exact ⟨trivial, hl.step hs fun k s s' _ _ _ hturn => by cases hturn⟩

/-- Nor does the end of a wait, which only a release has. -/
theorem Shutdown.covers_expire {stage stage' : Shutdown}
    (hl : r.LeavesTo (Task.shutdown stage).turn) (h : stage.expire? = some stage')
    (hs : r.Steady r' c) : (Task.shutdown stage').Covers r' := by
  cases stage with
  | close id stage rest =>
    obtain ⟨stage₁, hexp, rfl⟩ := Option.map_eq_some_iff.mp h
    refine ⟨trivial, hl.step hs fun k s s' hk ha hopen hturn => Or.inr ?_⟩
    rcases hturn with hrest | ⟨hid, rfl | rfl⟩
    · exact Or.inl hrest
    · cases hexp
    · cases hexp
  | _ => cases h

/-- **No turn of the task passes over a session.** -/
theorem Task.Covers.turned {standard : Duration} {t t' : Task} (hc : t.Covers r)
    (h : Engine.Turn r standard t t' c) (hs : r.Steady r' c) : t'.Covers r' := by
  obtain ⟨hstops, hl⟩ := hc
  cases h with
  | go h =>
    cases t with
    | shutdown stage => exact Shutdown.covers_go hl h hs
    | callOff => cases h
    | finished answer => cases h
    | _ => cases hstops
  | callOff => exact ⟨trivial, fun _ _ _ => Or.inr trivial⟩
  | expire h =>
    cases t with
    | shutdown stage =>
      obtain ⟨stage₁, hexp, he⟩ := Option.map_eq_some_iff.mp h
      cases he
      exact Shutdown.covers_expire hl hexp hs
    | callOff => cases h
    | finished answer => cases h
    | _ => cases hstops
  | cutOff h => cases hstops
  | refuse h =>
    obtain ⟨-, -, metadata, ⟨rfl, -⟩ | ⟨c, rfl, -⟩⟩ := Task.of_refuse? h <;> cases hstops
  | detour h =>
    obtain ⟨_, _, -, ⟨rfl, -⟩ | ⟨_, rfl, -⟩⟩ := Task.of_detour? h <;> cases hstops

end Covering

/-! ## 4. What stopping leaves behind -/

/-- The part starts a session. -/
def Part.starts : Part → Bool
  | create _ => true
  | _ => false

/-- The part closes or terminates a session. -/
def Part.closes : Part → Bool
  | close _ => true
  | terminate _ _ => true
  | _ => false

/-- Who has to do with the end of a session closes it, terminates it, starts it or sweeps it up. -/
theorem Part.cases_of_hold {p : Part} {k : Nat} (h : p.hold k ≠ .free) :
    p.starts = true ∨ p.closes = true ∨
      ∃ stage rest closed, p = .sweep (.release k stage rest closed) := by
  cases p with
  | create stage => exact Or.inl rfl
  | close stage => exact Or.inr (Or.inl rfl)
  | terminate id stage => exact Or.inr (Or.inl rfl)
  | sweep stage =>
    cases stage with
    | release seat stage rest closed =>
      obtain rfl : seat = k := Release.held_iff.mp h
      exact Or.inr (Or.inr ⟨stage, rest, closed, rfl⟩)
    | _ => exact absurd rfl h
  | _ => exact absurd rfl h

namespace Engine

/-- Nobody starts a session. -/
def StartsNone (e : Engine ρ) : Prop := ∀ t ∈ e.tasks, t.part.starts = false

/-- Nobody closes or terminates one, but for a sweep. -/
def ClosesNone (e : Engine ρ) : Prop := ∀ t ∈ e.tasks, t.part.closes = false

instance (e : Engine ρ) : Decidable (StartsNone e) :=
  inferInstanceAs (Decidable (∀ t ∈ e.tasks, t.part.starts = false))

instance (e : Engine ρ) : Decidable (ClosesNone e) :=
  inferInstanceAs (Decidable (∀ t ∈ e.tasks, t.part.closes = false))

/-- What holds of the parts of all tasks holds of the part at each place. -/
theorem partAt_of_tasks {e : Engine ρ} {P : Part → Prop} (hidle : P .idle)
    (h : ∀ t ∈ e.tasks, P t.part) (q : Nat) : P (e.partAt q) := by
  unfold partAt
  split
  · rename_i t ht
    exact h t (List.mem_of_getElem? ht)
  · exact hidle

theorem StartsNone.ne_create {e : Engine ρ} (h : StartsNone e) (q : Nat) (stage : Creation) :
    e.partAt q ≠ .create stage := by
  intro hp
  have hq := partAt_of_tasks (P := (·.starts = false)) rfl h q
  rw [hp] at hq
  cases hq

/-- What every event keeps, whether a stop is under way or not. -/
structure Orderly (e : Engine ρ) : Prop where
  informed : e.Informed
  retired : e.Retired
  named : e.Named
  distinct : Function.Injective e.registry.ids

theorem Orderly.step {e e' : Engine ρ} {event : Event ρ} (ho : Orderly e)
    (h : e.step? event = some e') : Orderly e' where
  informed := ho.informed.step h
  retired := ho.retired.step ho.informed ho.named ho.distinct h
  named := ho.named.step h
  distinct := by
    rw [(settings_of_step? h).2]
    exact ho.distinct

theorem Orderly.start (settings : SessionSettings) (standard : Duration) {ids : Nat → String}
    (now : Nat) (hids : Function.Injective ids) :
    Orderly (start settings standard ids now : Engine ρ) where
  informed q := by simp [partAt, Engine.start, Part.Knows]
  retired k s hs := by simp [Engine.start, Registry.start, Registry.session?] at hs
  named := named_start settings standard ids now
  distinct := hids

/-- **An engine is orderly from the beginning.** -/
theorem orderly_of_run? {settings : SessionSettings} {standard : Duration} {ids : Nat → String}
    {now : Nat} {e : Engine ρ} {events : List (Event ρ)} (hids : Function.Injective ids)
    (h : (start settings standard ids now).run? events = some e) : Orderly e :=
  run?_invariant (fun _ _ _ ho h => ho.step h) h (Orderly.start settings standard now hids)

/-- Where nobody starts a session, an event only goes on with those that are there. -/
theorem Orderly.steady {e e' : Engine ρ} {event : Event ρ} (ho : Orderly e) (hnone : StartsNone e)
    (h : e.step? event = some e') : e.registry.Steady e'.registry (e.change event) where
  stems k s' hs' := by
    obtain ⟨s, hs, ha⟩ | ⟨metadata, -, hreg, -⟩ := origin_of_step? h hs'
    · exact ⟨s, hs, ha⟩
    · obtain ⟨q, -, hq⟩ := go_of_change hreg (by rintro ⟨⟩) (by rintro seat ⟨⟩) rfl
      rcases (e.partAt q).change_cases e.registry with hp | ⟨other, hp, -, -⟩ |
        ⟨seat, reason, t, hp, -, -⟩ | ⟨info, arguments, seat, -, hm⟩
      · rw [hq] at hp
        cases hp
      · exact absurd hp (hnone.ne_create q _)
      · exact absurd hp (hnone.ne_create q _)
      · rw [hq] at hm
        cases hm
  retired := ho.retired
  single j k s t hs ht hid := ho.named.seat_eq ho.distinct hs ht hid

/-- The task at a place covers all sessions. -/
def CoveredAt (p : Nat) (e : Engine ρ) : Prop := ∃ t, e.tasks[p]? = some t ∧ t.Covers e.registry

theorem CoveredAt.step {p : Nat} {e e' : Engine ρ} {event : Event ρ} (hc : CoveredAt p e)
    (hs : e.registry.Steady e'.registry (e.change event)) (h : e.step? event = some e') :
    CoveredAt p e' := by
  obtain ⟨t, ht, hc⟩ := hc
  obtain ⟨t', ht', ⟨-, hturn⟩ | ⟨-, hlike⟩⟩ := task_of_step? h ht
  · exact ⟨t', ht', hc.turned hturn hs⟩
  · rcases hlike with rfl | ⟨stage, calledOff, rfl, -⟩
    · exact ⟨t', ht', hc.stay hs⟩
    · cases hc.1

/-- **What stopping leaves behind**, where the trace goes back to the beginning. -/
structure Emptied (past : List (Engine ρ × Event ρ)) (e : Engine ρ) : Prop where
  closed : ∀ k s, e.registry.session? k = some s → s.isClosed = true
  /-- Who is not through was being swept up when the patrol was called off, or is being swept up
  still. -/
  dismissed : ∀ k s, e.registry.session? k = some s →
    s.Dismissed ∨ (∃ x ∈ past, CutShort k x) ∨ ∃ q, SweptBy k q e
  /-- The registry is empty and all workers have been asked to stop, if no sweep interferes. -/
  empty : (∀ k, (∀ x ∈ past, ¬ CutShort k x) ∧ ∀ q, ¬ SweptBy k q e) →
    e.registry.listed = [] ∧
      ∀ k s, e.registry.session? k = some s → s.worker.connected = false

/-- Who is through is off the list. -/
theorem listed_of_dismissed {r : Registry ρ}
    (h : ∀ k s, r.session? k = some s → s.Dismissed) : r.listed = [] := by
  refine List.filter_eq_nil_iff.mpr fun s hs => ?_
  obtain ⟨k, hk⟩ := List.getElem?_of_mem hs
  simp [(h k s hk).1]

/-- Along every run the closed sessions are minded. -/
theorem minded_of_run? {past : List (Engine ρ × Event ρ)} {e e' : Engine ρ}
    {events : List (Event ρ)} (h : e.run? events = some e') (ho : Orderly e)
    (hm : ∀ k, Minded k past e) : Orderly e' ∧ ∀ k, Minded k (past ++ e.trace events) e' :=
  run?_induction (P := fun past e => Orderly e ∧ ∀ k, Minded k past e)
    (fun _ _ _ _ hP h => ⟨hP.1.step h, fun k => (hP.2 k).step hP.1.informed h⟩) h ⟨ho, hm⟩

/-- While nobody starts a session, the task that stops the engine goes on to cover all of them. -/
theorem coveredAt_of_run? {p : Nat} {e e' : Engine ρ} {events : List (Event ρ)}
    (h : e.run? events = some e') (ho : Orderly e) (hc : CoveredAt p e)
    (hnone : ∀ x ∈ e.trace events, StartsNone x.1) : CoveredAt p e' := by
  have hstep : ∀ past (e : Engine ρ) event e',
      (Orderly e ∧ ((∀ x ∈ past, StartsNone x.1) → CoveredAt p e)) → e.step? event = some e' →
      Orderly e' ∧ ((∀ x ∈ past ++ [(e, event)], StartsNone x.1) → CoveredAt p e') := by
    rintro past e event e' ⟨ho, hc⟩ h
    refine ⟨ho.step h, fun hnone => ?_⟩
    have hnow : StartsNone e := hnone (e, event) (by simp)
    exact (hc fun x hx => hnone x (List.mem_append_left _ hx)).step (ho.steady hnow h) h
  have hP := @run?_induction ρ _ hstep [] e e' events h ⟨ho, fun _ => hc⟩
  exact hP.2 (by simpa using hnone)

/-- Once it has stopped, all sessions are closed. -/
theorem CoveredAt.closed {p : Nat} {e : Engine ρ} (hc : CoveredAt p e)
    (hstopped : e.answer? p = some .stopped) {k : Nat} {s : Session ρ}
    (hs : e.registry.session? k = some s) : s.isClosed = true := by
  obtain ⟨t, ht, -, hleft⟩ := hc
  simp only [answer?, ht] at hstopped
  cases t with
  | finished answer =>
    cases hstopped
    exact (hleft k s hs).resolve_right id
  | _ => cases hstopped

/-- **Stopping closes every session, and empties the registry unless a sweep is cut short.**  Nobody
starts a session from the stop on, and in the end nobody is closing or terminating one. -/
theorem emptied_of_stop {settings : SessionSettings} {standard : Duration} {ids : Nat → String}
    {now : Nat} {events later : List (Event ρ)} {e₀ e : Engine ρ}
    (hids : Function.Injective ids)
    (h₀ : (start settings standard ids now).run? events = some e₀)
    (h : e₀.run? (.arrive .stop :: later) = some e)
    (hnone : ∀ x ∈ e₀.trace (.arrive .stop :: later), StartsNone x.1)
    (hstopped : e.answer? e₀.tasks.length = some .stopped)
    (hlast : StartsNone e ∧ ClosesNone e) :
    Emptied ((start settings standard ids now).trace events ++
      e₀.trace (.arrive .stop :: later)) e := by
  have hstart : ∀ k, Minded k [] (start settings standard ids now : Engine ρ) := by
    intro k s hs
    simp [start, Registry.start, Registry.session?] at hs
  obtain ⟨ho₀, hm₀⟩ := minded_of_run? h₀ (Orderly.start settings standard now hids) hstart
  obtain ⟨-, hm⟩ := minded_of_run? h ho₀ hm₀
  rw [List.nil_append] at hm
  have hclosed : ∀ k s, e.registry.session? k = some s → s.isClosed = true := by
    obtain ⟨e₁, h₁⟩ : ∃ e₁, e₀.step? (.arrive .stop) = some e₁ := ⟨_, rfl⟩
    have hlater : e₁.run? later = some e := by simpa only [run?, h₁] using h
    have hc₁ : CoveredAt e₀.tasks.length e₁ := by
      cases h₁
      exact ⟨.callOff, by simp [Request.task], trivial, fun _ _ _ => Or.inr trivial⟩
    have hnone₁ : ∀ x ∈ e₁.trace later, StartsNone x.1 := fun x hx =>
      hnone x (by simpa only [trace, h₁] using List.mem_cons_of_mem _ hx)
    exact fun k s hs => (coveredAt_of_run? hlater (ho₀.step h₁) hc₁ hnone₁).closed hstopped hs
  have hdismissed : ∀ k s, e.registry.session? k = some s →
      s.Dismissed ∨ (∃ x ∈ (start settings standard ids now).trace events ++
        e₀.trace (.arrive .stop :: later), CutShort k x) ∨ ∃ q, SweptBy k q e := by
    intro k s hs
    rcases hm k s hs (hclosed k s hs) with ⟨q, hq⟩ | hdone | hcut
    · rcases Part.cases_of_hold hq with hstarts | hcloses | hsweeps
      · rw [partAt_of_tasks (P := (·.starts = false)) rfl hlast.1 q] at hstarts
        cases hstarts
      · rw [partAt_of_tasks (P := (·.closes = false)) rfl hlast.2 q] at hcloses
        cases hcloses
      · exact Or.inr (Or.inr ⟨q, hsweeps⟩)
    · exact Or.inl hdone
    · exact Or.inr (Or.inl hcut)
  refine ⟨hclosed, hdismissed, fun hsweep => ?_⟩
  have hall : ∀ k s, e.registry.session? k = some s → s.Dismissed := by
    intro k s hs
    rcases hdismissed k s hs with hdone | ⟨x, hx, hcut⟩ | ⟨q, hq⟩
    · exact hdone
    · exact absurd hcut ((hsweep k).1 x hx)
    · exact absurd hq ((hsweep k).2 q)
  exact ⟨listed_of_dismissed hall, fun k s hs => (hall k s hs).2⟩

/-- Identifiers by the count of strokes. -/
def strokes (k : Nat) : String := String.ofList (List.replicate k '|')

theorem strokes_injective : Function.Injective strokes := by
  intro j k h
  simpa [strokes] using congrArg String.length h

/-- A session is started, and the patrol rests. -/
def restingPatrol : List (Event Nat) :=
  [.arrive (.create []), .go 0, .work 0 (.built 7), .go 0, .startPatrol]

/-- The patrol is cut off when it rests, and the session is closed. -/
def orderlyStop : List (Event Nat) :=
  [.go 2, .cutOff 1, .go 2, .go 2, .go 2, .go 2, .go 2, .work 0 .start,
    .work 0 (.finish 8 (.ok ⟨"", .null⟩)), .go 2, .go 2, .go 2, .work 0 .takeStop, .work 0 .hangUp,
    .work 0 (.discard false), .go 2, .go 2, .go 2]

theorem emptied_orderlyStop : ∃ e₀ e : Engine Nat,
    let e₁ := start (.ofConfig SessionConfig.standard) (.ofSeconds 60) strokes 0
    e₁.run? restingPatrol = some e₀ ∧ e₀.run? (.arrive .stop :: orderlyStop) = some e ∧
    Emptied (e₁.trace restingPatrol ++ e₀.trace (.arrive .stop :: orderlyStop)) e ∧
    e.registry.listed = [] :=
  ⟨_, _, rfl, rfl, emptied_of_stop strokes_injective rfl rfl (by decide) rfl (by decide), rfl⟩

/-- The patrol has closed the session, which was idle for too long, and waits for its release. -/
def sweepingPatrol : List (Event Nat) :=
  restingPatrol ++ [.pass (.ofSeconds 86400), .expire 1, .go 1, .go 1, .go 1]

/-- The patrol is cut off, and the close that follows finds the session closed. -/
def cutShortStop : List (Event Nat) :=
  [.go 2, .cutOff 1, .go 2, .go 2, .go 2, .go 2, .go 2, .work 0 .start,
    .work 0 (.finish 8 (.ok ⟨"", .null⟩))]

/-- **A sweep that is cut short leaves its session behind**: listed, and with a worker that nobody
has asked to stop. -/
theorem not_emptied_cutShort : ∃ (e₀ e : Engine Nat) (s : Session Nat),
    let e₁ := start (.ofConfig SessionConfig.standard) (.ofSeconds 60) strokes 0
    e₁.run? sweepingPatrol = some e₀ ∧ e₀.run? (.arrive .stop :: cutShortStop) = some e ∧
    (∀ x ∈ e₀.trace (.arrive .stop :: cutShortStop), StartsNone x.1) ∧
    e.answer? e₀.tasks.length = some .stopped ∧ (StartsNone e ∧ ClosesNone e) ∧
    e.registry.listed ≠ [] ∧ e.registry.session? 0 = some s ∧ s.worker.connected = true :=
  ⟨_, _, _, rfl, rfl, by decide, rfl, by decide, by rintro ⟨⟩, rfl, rfl⟩

end Engine

end Workbench
