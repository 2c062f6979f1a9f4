import Workbench.Proofs.Session.Faults

/-!
# Sessions that are being started

A session is on the list from its registration on, and its resource is built after that.  Sweeps see
it there, and nothing tells them that its worker has still to begin: it is idle, and has been since
the registration.

* `Session.Untouched` is a session that nobody has done anything to since its registration;
* `LeftToSweeps` are the events in which nobody but starts and sweeps touches a session;
* `Early` says that the session is untouched then, or swept up because its time was up, or without a
  resource; it is kept by every event (`Early.step`);
* `StartsAmidSweeps` is what a start answers then, and `not_startsOpen` the run in which it hands
  out a session that is closed.
-/

namespace Workbench

variable {ρ : Type}

/-! ## 1. A session that nobody has touched -/

/-- Nobody has done anything to the session since its registration, but that its resource may have
been built. -/
structure Session.Untouched (s : Session ρ) : Prop where
  state : s.state = .created
  listed : s.listed = true
  trusted : s.suspect = false
  lastActivity : s.lastActivity = s.createdAt
  queue : s.worker.queue = []
  connected : s.worker.connected = true
  healthy : s.worker.isFaulted = false
  phase : s.worker.phase = .building ∨ ∃ r, s.worker.phase = .resting r

namespace Session

variable {s s' : Session ρ}

theorem untouched_create (id : String) (metadata : List (String × Json)) (limit now : Nat) :
    (create id metadata limit now : Session ρ).Untouched where
  state := rfl
  listed := rfl
  trusted := rfl
  lastActivity := rfl
  queue := rfl
  connected := rfl
  healthy := rfl
  phase := Or.inl rfl

theorem Untouched.isOpen (h : s.Untouched) : s.isClosed = false := by
  simp [isClosed, h.state]

/-- The worker of such a session builds its resource, and then waits. -/
theorem Untouched.advance {now : Nat} {move : Worker.Move ρ JobAnswer} (h : s.Untouched)
    (hm : s.advance? now move = some s') : s'.Untouched ∨ s'.Unbuilt := by
  unfold advance? at hm
  split at hm
  · cases hm
  · rename_i w hw
    cases Worker.advance_of_advance? hw with
    | built hp =>
      cases hm
      exact Or.inl ⟨h.state, h.listed, h.trusted, h.lastActivity, h.queue, h.connected, h.healthy,
        Or.inr ⟨_, rfl⟩⟩
    | buildFailed hp =>
      cases hm
      exact Or.inr ⟨_, rfl⟩
    | start hp hq =>
      rw [h.queue] at hq
      cases hq
    | takeStop hp hq =>
      rw [h.queue] at hq
      cases hq
    | notice hp hq hc =>
      rw [h.connected] at hc
      cases hc
    | _ hp =>
      rcases h.phase with hb | ⟨r, hr⟩
      · rw [hb] at hp
        cases hp
      · rw [hr] at hp
        cases hp

/-- It is stale when its time is up, and at no other time. -/
theorem Untouched.isStale_iff {timeout : Duration} {now : Nat} (h : s.Untouched) :
    s.isStale timeout now = true ↔ timeout.nanos ≠ 0 ∧ timeout.nanos ≤ now - s.createdAt := by
  simp [Session.isStale_iff, h.trusted, h.lastActivity]

end Session

/-! ## 2. Who touches it -/

/-- The part is a sweep. -/
def Part.sweeps : Part → Bool
  | sweep _ => true
  | _ => false

/-- A start that touches its session is giving it up. -/
theorem Creation.failing_of_touch {r : Registry ρ} {k : Nat} {stage : Creation}
    (hk : (stage.change r).seat? = some k) : (Part.create stage).hold k = .failing := by
  cases stage with
  | enter metadata =>
    simp only [change] at hk
    split at hk <;> cases hk
  | awaitReady seat => cases hk
  | beginClose seat reason =>
    simp only [change, Change.closing] at hk
    split at hk
    · split at hk <;> cases hk
      simp [Part.hold]
    · cases hk
  | shutdown seat reason =>
    cases hk
    simp [Part.hold]
  | remove seat reason =>
    simp only [change] at hk
    split at hk <;> cases hk

/-- A sweep that touches a session closes it, as its worker has faulted or it is stale, or is
releasing it. -/
theorem Sweep.cases_of_touch {r : Registry ρ} {k : Nat} {stage : Sweep}
    (hk : (stage.change r).seat? = some k) :
    (stage.change r = .close k ∧ ∃ s, r.session? k = some s ∧ (s.worker.isFaulted = true ∨
        s.isStale r.settings.idleTimeout r.now = true)) ∨
      ∃ release rest closed, stage = .release k release rest closed := by
  cases stage with
  | scan => cases hk
  | judge rest closed =>
    cases rest with
    | nil => cases hk
    | cons seat rest =>
      simp only [change] at hk
      split at hk
      · rename_i hcondemned
        cases hk
        obtain ⟨s, hs, -, hdue⟩ := Registry.condemns_iff.mp hcondemned
        exact Or.inl ⟨if_pos hcondemned, s, hs, (Session.due_iff.mp hdue).imp_right And.right⟩
      · cases hk
  | weigh seat rest closed =>
    simp only [change] at hk
    split at hk
    · rename_i hconvicted
      cases hk
      obtain ⟨s, hs, -, -, hstale⟩ := Registry.convicts_iff.mp hconvicted
      exact Or.inl ⟨if_pos hconvicted, s, hs, Or.inr hstale⟩
    · cases hk
  | release seat stage rest closed =>
    rcases (stage.change_about r seat).1 with hnone | hseat
    · rw [change, hnone] at hk
      cases hk
    · rw [change, hseat] at hk
      cases hk
      exact Or.inr ⟨stage, rest, closed, rfl⟩

namespace Engine

open Worker.History

/-- Only starts and sweeps touch the session at a seat: nobody closes, terminates or calls it. -/
def LeftToSweeps (k : Nat) (x : Engine ρ × Event ρ) : Prop :=
  (x.1.change x.2).seat? = some k → ∀ p ∈ x.2.place?,
    (x.1.partAt p).starts = true ∨ (x.1.partAt p).sweeps = true

instance (k : Nat) (x : Engine ρ × Event ρ) : Decidable (LeftToSweeps k x) :=
  inferInstanceAs (Decidable (_ → ∀ p ∈ x.2.place?, _ ∨ _))

/-- A sweep closes the session at a seat, for which no job has ended since its registration, and its
time is limited and used up. -/
def SweptLate (k : Nat) (x : Engine ρ × Event ρ) : Prop :=
  (∃ p, x.2 = .go p ∧ (x.1.partAt p).sweeps = true) ∧ ∃ s, x.1.registry.session? k = some s ∧
    x.1.registry.settings.idleTimeout.isZero = false ∧
    x.1.registry.settings.idleTimeout.nanos ≤ x.1.registry.now - s.createdAt

section Touching

variable {k p : Nat} {past : List (Engine ρ × Event ρ)} {e e' : Engine ρ} {event : Event ρ}
  {s : Session ρ}

/-- **Whoever touches an untouched session closes it**: it is a sweep, and the session is stale. -/
theorem close_of_touch (hu : s.Untouched) (hs : e.registry.session? k = some s)
    (hacc : AccountAt k past e) (htold : ToldAt k past e) (hi : Informed e)
    (honly : LeftToSweeps k (e, event)) (hp : event.place? = some p)
    (hk : (e.change event).seat? = some k) :
    e.change event = .close k ∧ event = .go p ∧ (e.partAt p).sweeps = true ∧
      s.isStale e.registry.settings.idleTimeout e.registry.now = true := by
  have hfailing : ∀ q, (e.partAt q).hold k ≠ .failing := by
    intro q hq
    obtain ⟨reason, hr⟩ := (hacc.of_some hs).failing q hq
    have hfaulted := (htold.of_some hs).readied.2 reason hr
    rw [hu.healthy] at hfaulted
    cases hfaulted
  have hor := honly hk p hp
  cases event with
  | go q =>
    cases hp
    rw [change_of_go] at hk ⊢
    cases hpart : e.partAt p with
    | create stage =>
      rw [hpart] at hk
      exact absurd (hpart ▸ Creation.failing_of_touch hk) (hfailing p)
    | sweep stage =>
      rw [hpart] at hk
      rcases Sweep.cases_of_touch hk with ⟨hclose, t, ht, hor⟩ | ⟨release, rest, closed, rfl⟩
      · rw [hs] at ht
        cases ht
        refine ⟨hclose, rfl, rfl, hor.resolve_left fun hfaulted => ?_⟩
        rw [hu.healthy] at hfaulted
        cases hfaulted
      · -- who releases a session has closed it
        have hknows := hi p
        rw [hpart] at hknows
        obtain ⟨t, ht, hc, -⟩ := hknows
        rw [hs] at ht
        cases ht
        rw [hu.isOpen] at hc
        cases hc
    | _ => simp [hpart, Part.starts, Part.sweeps] at hor
  | expire q =>
    cases hp
    simp only [change] at hk
    split at hk
    · rename_i t ht
      unfold Task.lapse at hk
      split at hk
      · simp [partAt, ht, Task.part, CallStage.part, Part.starts, Part.sweeps] at hor
      · cases hk
    · cases hk
  | cutOff q => cases hk
  | refuse q reason => cases hk
  | detour q way => cases hk
  | _ => cases hp

/-- A session is closed while it is open. -/
theorem isClosed_of_close (h : e.step? event = some e') (hs : e.registry.session? k = some s)
    (hc : e.change event = .close k) : s.isClosed = false := by
  have hv : e.registry.session? k = none → ∀ q, (e.partAt q).hold k = .free := by
    intro hnone
    rw [hs] at hnone
    cases hnone
  rcases dealing_of_step? hv h with ⟨q, -, hdealing, -⟩ | ⟨hquiet, -⟩
  · rw [hs] at hdealing
    generalize (e.partAt q).hold k = h₁, (e'.partAt q).hold k = h₂ at hdealing
    rw [hc] at hdealing
    cases hdealing with
    | quiet hquiet => exact absurd rfl hquiet.close
    | wins hsome ho =>
      cases hsome
      exact ho
    | fails hsome ho =>
      cases hsome
      exact ho
  · exact absurd hc hquiet.close

end Touching

/-! ## 3. Until the start answers -/

/-- What has become of a session since its registration, when only starts and sweeps have touched
it. -/
inductive Early (k : Nat) (past : List (Engine ρ × Event ρ)) (s : Session ρ) : Prop where
  | untouched (hu : s.Untouched) (hn : ∀ x ∈ past, x.1.change x.2 ≠ .close k)
  | swept (hc : s.isClosed = true) (hx : ∃ x ∈ past, x.1.change x.2 = .close k)
      (hl : ∀ x ∈ past, x.1.change x.2 = .close k → SweptLate k x)
  | unbuilt (hu : s.Unbuilt)

/-- A session whose resource is there is as it was created, or a sweep has closed it. -/
theorem Early.cases_of_ready {k : Nat} {past : List (Engine ρ × Event ρ)} {s : Session ρ}
    (h : Early k past s) (hready : s.worker.readiness = .ready) :
    s.Untouched ∧ (∀ x ∈ past, x.1.change x.2 ≠ .close k) ∨
      s.isClosed = true ∧ (∃ x ∈ past, x.1.change x.2 = .close k) ∧
        ∀ x ∈ past, x.1.change x.2 = .close k → SweptLate k x := by
  cases h with
  | untouched hu hn => exact .inl ⟨hu, hn⟩
  | swept hc hx hl => exact .inr ⟨hc, hx, hl⟩
  | unbuilt hu =>
    obtain ⟨reason, hu⟩ := hu
    rw [hready] at hu
    cases hu

section Stepping

variable {k : Nat} {past : List (Engine ρ × Event ρ)} {e e' : Engine ρ} {event : Event ρ}
  {s s' : Session ρ}

theorem not_close_concat (hn : ∀ x ∈ past, x.1.change x.2 ≠ .close k)
    (hc : e.change event ≠ .close k) :
    ∀ x ∈ past ++ [(e, event)], x.1.change x.2 ≠ .close k := by
  intro x hx
  rcases List.mem_append.mp hx with hx | hx
  · exact hn x hx
  · rw [List.mem_singleton] at hx
    subst hx
    exact hc

/-- The session after an event. -/
theorem session_after (h : e.step? event = some e') (hs : e.registry.session? k = some s)
    (hs' : e'.registry.session? k = some s') :
    s' = (e.change event).alter k e.registry.now s := by
  rw [registry_of_step? h, Registry.session?_after_of_some _ hs] at hs'
  exact (Option.some.inj hs').symm

/-- An event that is not about the session leaves it alone. -/
theorem kept_of_untouched (hu : s.Untouched) (ho : Orderly e) (h : e.step? event = some e')
    (hs : e.registry.session? k = some s) (hs' : e'.registry.session? k = some s')
    (hk : (e.change event).seat? ≠ some k) : s' = s := by
  rw [session_after h hs hs', Change.alter]
  split
  · rename_i id hid
    split
    · rename_i hholds
      obtain ⟨j, t, ht, htid, hc⟩ := ho.informed.unlisted hid
      simp only [Registry.holds, Bool.and_eq_true, beq_iff_eq] at hholds
      obtain rfl := ho.named.seat_eq ho.distinct ht hs (htid.trans hholds.2.symm)
      rw [hs] at ht
      cases ht
      rw [hu.isOpen] at hc
      cases hc
    · rfl
  · rw [if_neg hk]

/-- **Every event keeps that**, as long as only starts and sweeps touch the session. -/
theorem Early.step (hearly : Early k past s) (hacc : AccountAt k past e) (htold : ToldAt k past e)
    (ho : Orderly e) (h : e.step? event = some e') (hs : e.registry.session? k = some s)
    (hs' : e'.registry.session? k = some s') (honly : LeftToSweeps k (e, event)) :
    Early k (past ++ [(e, event)]) s' := by
  obtain ⟨s₁, hs₁, ha⟩ := session_of_step? h hs
  rw [hs'] at hs₁
  cases hs₁
  cases hearly with
  | untouched hu hn =>
    by_cases hk : (e.change event).seat? = some k
    · cases hp : event.place? with
      | some p =>
        obtain ⟨hclose, rfl, hsweep, hstale⟩ :=
          close_of_touch hu hs hacc htold ho.informed honly hp hk
        obtain ⟨hlimited, hle⟩ := hu.isStale_iff.mp hstale
        refine .swept (ha.closed_iff.mpr (Or.inr hclose))
          ⟨_, List.mem_append_right _ (List.mem_singleton.mpr rfl), hclose⟩ fun x hx hxc => ?_
        rcases List.mem_append.mp hx with hx | hx
        · exact absurd hxc (hn x hx)
        · rw [List.mem_singleton] at hx
          subst hx
          exact ⟨⟨p, rfl, hsweep⟩, s, hs, beq_eq_false_iff_ne.mpr hlimited, hle⟩
      | none =>
        cases event with
        | work seat move =>
          cases hk
          rcases hu.advance (advance?_of_step? h hs hs') with hu' | hunbuilt
          · exact .untouched hu' (not_close_concat hn (by rintro ⟨⟩))
          · exact .unbuilt hunbuilt
        | arrive request => cases hk
        | startPatrol => cases hk
        | pass time => cases hk
        | _ => cases hp
    · have hsame := kept_of_untouched hu ho h hs hs' hk
      subst hsame
      exact .untouched hu (not_close_concat hn fun hc => hk (by rw [hc]; rfl))
  | swept hc hx hl =>
    refine .swept (ha.closed_iff.mpr (Or.inl hc)) ?_ fun x hx hxc => ?_
    · obtain ⟨x, hx, hxc⟩ := hx
      exact ⟨x, List.mem_append_left _ hx, hxc⟩
    · rcases List.mem_append.mp hx with hx | hx
      · exact hl x hx hxc
      · rw [List.mem_singleton] at hx
        subst hx
        have hopen := isClosed_of_close h hs hxc
        rw [hc] at hopen
        cases hopen
  | unbuilt hu => exact .unbuilt ((worker_of_altered ha (htold.of_some hs).readied).1 hu)

/-- The same from the beginning of a run, when there is no session at the seat. -/
def EarlyAt (k : Nat) (past : List (Engine ρ × Event ρ)) (e : Engine ρ) : Prop :=
  match e.registry.session? k with
  | some s => Early k past s
  | none => ∀ x ∈ past, x.1.change x.2 ≠ .close k

theorem EarlyAt.step (hearly : EarlyAt k past e) (hb : Books k past e) (ho : Orderly e)
    (h : e.step? event = some e') (honly : LeftToSweeps k (e, event)) :
    EarlyAt k (past ++ [(e, event)]) e' := by
  unfold EarlyAt at hearly ⊢
  cases hs : e.registry.session? k with
  | some s =>
    rw [hs] at hearly
    obtain ⟨s', hs', -⟩ := session_of_step? h hs
    rw [hs']
    exact hearly.step hb.account hb.told ho h hs hs' honly
  | none =>
    rw [hs] at hearly
    -- nobody closes a session that is not there
    have hclose : e.change event ≠ .close k := by
      intro hc
      obtain ⟨hfree, -⟩ := hb.account.of_none hs
      rcases dealing_of_step? (fun _ => hfree) h with ⟨q, -, hdealing, -⟩ | ⟨hquiet, -⟩
      · rw [hs, hc] at hdealing
        generalize (e.partAt q).hold k = h₁, (e'.partAt q).hold k = h₂ at hdealing
        cases hdealing with
        | quiet hquiet => exact hquiet.close rfl
        | wins hsome => cases hsome
        | fails hsome => cases hsome
      · exact hquiet.close hc
    cases hs' : e'.registry.session? k with
    | none => exact not_close_concat hearly hclose
    | some s' =>
      obtain ⟨metadata, -, -, rfl⟩ := born_of_step? h hs hs'
      exact .untouched (Session.untouched_create _ _ _ _) (not_close_concat hearly hclose)

end Stepping

/-- **Along a run**, as long as only starts and sweeps touch the session. -/
theorem earlyAt_of_run? {settings : SessionSettings} {standard : Duration} {ids : Nat → String}
    {now k : Nat} {e : Engine ρ} {events : List (Event ρ)} (hids : Function.Injective ids)
    (h : (start settings standard ids now).run? events = some e)
    (honly : ∀ x ∈ (start settings standard ids now).trace events, LeftToSweeps k x) :
    EarlyAt k ((start settings standard ids now).trace events) e := by
  have h₀ : EarlyAt k [] (start settings standard ids now : Engine ρ) := by
    simp [EarlyAt, start, Registry.start, Registry.session?]
  refine (run?_induction (P := fun past e => Books k past e ∧ Orderly e ∧
    ((∀ x ∈ past, LeftToSweeps k x) → EarlyAt k past e)) ?_ h
    ⟨Books.start settings standard ids now k, Orderly.start settings standard now hids,
      fun _ => h₀⟩).2.2 honly
  rintro past e event e' ⟨hb, ho, hearly⟩ hstep
  refine ⟨hb.step hstep, ho.step hstep, fun hall => ?_⟩
  have hpast : ∀ x ∈ past, LeftToSweeps k x := fun x hx => hall x (List.mem_append_left _ hx)
  exact (hearly hpast).step hb ho hstep
    (hall _ (List.mem_append_right _ (List.mem_singleton.mpr rfl)))

/-! ## 4. What a start answers -/

/-- What a start tells of the session that it has registered at a seat. -/
structure StartsAmidSweeps (k q : Nat) (past : List (Engine ρ × Event ρ)) (e : Engine ρ)
    (info : SessionInfo) : Prop where
  /-- The start tells of its session as it is now. -/
  told : ∃ s, e.registry.session? k = some s ∧ s.id = e.registry.ids k ∧
    info = s.info e.registry.now
  answered : ∀ e', e.step? (.go q) = some e' → e'.registry = e.registry ∧
    (e'.answer? q = some (.created (.ok info)) ∨
      e'.answer? q = some (.called (.ok (Call.infoOutput "Created session" info))))
  /-- The session is as it was created and can be found, unless a sweep has closed it. -/
  opened : (∀ x ∈ past, x.1.change x.2 ≠ .close k) →
    info.state = .created ∧ e.registry.live? info.id = some k
  swept : (∃ x ∈ past, x.1.change x.2 = .close k) →
    info.state = .closed ∧ e.registry.live? info.id = none
  /-- That happens only when the time of the session has been used up since its registration. -/
  late : ∀ x ∈ past, x.1.change x.2 = .close k → SweptLate k x
  /-- So it does not happen if sweeps look at the session while it has time left. -/
  inTime : (∀ x ∈ past, (∃ p, x.2 = .go p ∧ (x.1.partAt p).sweeps = true) →
    ∀ s, x.1.registry.session? k = some s → x.1.registry.settings.idleTimeout.isZero = true ∨
      x.1.registry.now - s.createdAt < x.1.registry.settings.idleTimeout.nanos) →
    info.state = .created ∧ e.registry.live? info.id = some k

/-- A listed session is found under its identifier. -/
theorem live?_of_open {e : Engine ρ} {k : Nat} {s : Session ρ} (ho : Orderly e)
    (hs : e.registry.session? k = some s) (hl : s.listed = true) (hopen : s.isClosed = false) :
    e.registry.live? s.id = some k := by
  have hseat : e.registry.seat? s.id = some k := by
    cases hseat : e.registry.seat? s.id with
    | none =>
      have := Registry.seat?_eq_none.mp hseat k s hs
      simp [Registry.holds, hl] at this
    | some j =>
      obtain ⟨t, ht, -, hid⟩ := Registry.of_seat? hseat
      rw [ho.named.seat_eq ho.distinct ht hs hid]
  simp [Registry.live?, hseat, hs, hopen]

/-- A start that has waited for its session answers with it, also where it is part of a call. -/
theorem answer?_of_awaitReady {e e' : Engine ρ} {k q : Nat} {info : SessionInfo}
    (hq : e.partAt q = .create (.awaitReady k))
    (ha : (Creation.awaitReady k).step e.registry = .done e.registry (.ok info))
    (h : e.step? (.go q) = some e') : e'.registry = e.registry ∧
      (e'.answer? q = some (.created (.ok info)) ∨
        e'.answer? q = some (.called (.ok (Call.infoOutput "Created session" info)))) := by
  obtain ⟨t, ht, hpart⟩ := task_of_partAt hq (by rintro ⟨⟩)
  rcases Task.part_eq_create hpart with rfl | ⟨c, rfl⟩
  · simp only [step?, go?, ht, ha, follow?, Option.some.injEq] at h
    subst h
    exact ⟨rfl, Or.inl (answer?_of_finished (tasks_proceed ht _ _))⟩
  · simp only [step?, go?, ht, CallStage.step, ha, Progress.lastly, Progress.within, follow?,
      Option.some.injEq] at h
    subst h
    exact ⟨rfl, Or.inr (answer?_of_finished (tasks_proceed ht _ _))⟩

/-- **What a start answers**, when nobody but starts and sweeps has touched its session. -/
theorem startsAmidSweeps_of_run? {settings : SessionSettings} {standard : Duration}
    {ids : Nat → String} {now : Nat} {e : Engine ρ} {events : List (Event ρ)} {k q : Nat}
    {r : Registry ρ} {info : SessionInfo} (hids : Function.Injective ids)
    (h : (start settings standard ids now).run? events = some e)
    (honly : ∀ x ∈ (start settings standard ids now).trace events, LeftToSweeps k x)
    (hq : e.partAt q = .create (.awaitReady k))
    (ha : (Creation.awaitReady k).step e.registry = .done r (.ok info)) :
    StartsAmidSweeps k q ((start settings standard ids now).trace events) e info := by
  have ho := orderly_of_run? hids h
  have hearly := earlyAt_of_run? hids h honly
  obtain ⟨s, hs, hready, rfl, rfl⟩ : ∃ s, e.registry.session? k = some s ∧
      s.worker.readiness = .ready ∧ r = e.registry ∧ info = s.info e.registry.now := by
    simp only [Creation.step] at ha
    split at ha
    · cases ha
    · split at ha <;> cases ha
      exact ⟨_, ‹_›, ‹_›, rfl, rfl⟩
  rw [EarlyAt, hs] at hearly
  have hcases := hearly.cases_of_ready hready
  have hopened : (∀ x ∈ (start settings standard ids now).trace events,
      x.1.change x.2 ≠ .close k) → s.state = .created ∧ e.registry.live? s.id = some k := by
    intro hn
    rcases hcases with ⟨hu, -⟩ | ⟨-, ⟨x, hx, hxc⟩, -⟩
    · exact ⟨hu.state, live?_of_open ho hs hu.listed hu.isOpen⟩
    · exact absurd hxc (hn x hx)
  have hlate : ∀ x ∈ (start settings standard ids now).trace events,
      x.1.change x.2 = .close k → SweptLate k x := by
    intro x hx hxc
    rcases hcases with ⟨-, hn⟩ | ⟨-, -, hl⟩
    · exact absurd hxc (hn x hx)
    · exact hl x hx hxc
  constructor
  case told => exact ⟨s, hs, ho.named k s hs, rfl⟩
  case answered => exact fun e' hstep => answer?_of_awaitReady hq ha hstep
  case opened => exact hopened
  case swept =>
    rintro ⟨x, hx, hxc⟩
    rcases hcases with ⟨-, hn⟩ | ⟨hc, -, -⟩
    · exact absurd hxc (hn x hx)
    · obtain ⟨t, ht, -, -, hlive⟩ := gone_of_closed ho.named ho.distinct hs hc
      rw [hs] at ht
      cases ht
      exact ⟨beq_iff_eq.mp hc, hlive⟩
  case late => exact hlate
  case inTime =>
    intro htime
    refine hopened fun x hx hxc => ?_
    obtain ⟨hsweep, t, ht, hlimited, hle⟩ := hlate x hx hxc
    rcases htime x hx hsweep t ht with hzero | hlt
    · rw [hlimited] at hzero
      cases hzero
    · omega

/-- A session is started, and a sweep looks at it while its resource is being built. -/
def sweptInTime : List (Event Nat) :=
  [.arrive (.create []), .go 0, .pass (.ofMillis 20), .arrive .sweep, .go 1, .go 1, .go 1,
    .work 0 (.built 7)]

theorem startsAmidSweeps_sweptInTime : ∃ (e e' : Engine Nat) (info : SessionInfo),
    let e₀ := start (.ofConfig SessionConfig.standard) (.ofSeconds 60) strokes 0
    e₀.run? sweptInTime = some e ∧ StartsAmidSweeps 0 0 (e₀.trace sweptInTime) e info ∧
    e.step? (.go 0) = some e' ∧ e'.answer? 0 = some (.created (.ok info)) ∧
    info.state = .created ∧ e'.registry.live? info.id = some 0 :=
  ⟨_, _, _, rfl, startsAmidSweeps_of_run? strokes_injective rfl (by decide) rfl rfl, rfl, rfl, rfl,
    rfl⟩

/-- The session that a start hands out is as it was created and can be found, if nobody but starts
and sweeps has touched it. -/
def StartsOpen (e₀ : Engine ρ) : Prop :=
  ∀ events e k q info, e₀.run? events = some e → (∀ x ∈ e₀.trace events, LeftToSweeps k x) →
    e.partAt q = .create (.awaitReady k) →
    (Creation.awaitReady k).step e.registry = .done e.registry (.ok info) →
    info.state = .created ∧ e.registry.live? info.id = some k

/-- **A sweep closes a session that is being started**, if building the resource takes longer than a
session may be idle; the start answers with it all the same. -/
theorem not_startsOpen : ¬ StartsOpen
    (start ⟨3, .ofMillis 1, .ofSeconds 300, .ofSeconds 30, 64⟩ (.ofSeconds 120) strokes 0 :
      Engine Nat) := by
  intro h
  obtain ⟨hstate, -⟩ := h sweptInTime _ 0 0 _ rfl (by decide) rfl rfl
  cases hstate

end Engine
end Workbench
