import Workbench.Proofs.Engine.Crew
import Workbench.Proofs.Session.Tally

/-!
# What a sweep does

A sweep closes the sessions that are due when it comes to them, sees them off, and tells which they
were.  It leaves all others alone.

* `Spares` are the events that leave a session alone but for the steps of its worker, and
  `UnderWay.spares` says which sessions a sweep leaves alone;
* `PutAway` is what has become of a session that was closed by a sweep;
* `SweptUp` is what a sweep has done that has come to its end, and `SweepsUp` what it does at all,
  whatever goes on beside it.

Whether a session is due is not always seen (`not_closesDueOnly`): a worker that is just taking its
last operation up, or is still building its resource, looks as if it had nothing to do.
-/

namespace Workbench

variable {ρ : Type}

namespace Engine

/-! ## 1. Whom a sweep leaves alone -/

/-- The event leaves the session at a seat as it is, unless it is a step of its worker. -/
def Spares (k : Nat) (x : Engine ρ × Event ρ) : Prop :=
  (∃ move, x.2 = .work k move) ∨
    ∀ e', x.1.step? x.2 = some e' → e'.registry.session? k = x.1.registry.session? k

/-- No task but the one at a place takes a turn in the event. -/
def Own (q : Nat) (event : Event ρ) : Prop := event.place? = none ∨ event.place? = some q

instance (q : Nat) (event : Event ρ) : Decidable (Own q event) :=
  inferInstanceAs (Decidable (_ ∨ _))

/-- A change that is about other sessions leaves a session as it is. -/
theorem spares_of_change {e : Engine ρ} {event : Event ρ} {k : Nat} {s : Session ρ}
    (hs : e.registry.session? k = some s) (hu : (e.change event).unlisted? ≠ some s.id)
    (hk : (e.change event).seat? ≠ some k) : Spares k (e, event) := by
  refine Or.inr fun e' h => ?_
  simp only at h ⊢
  rw [registry_of_step? h, Registry.session?_after_of_some _ hs, hs, Change.alter]
  split
  · rename_i id hid
    have hne : s.id ≠ id := fun hsame => hu (by rw [hid, hsame])
    rw [if_neg (by simp [Registry.holds, hne])]
  · rw [if_neg hk]

theorem spares_of_nothing {e : Engine ρ} {event : Event ρ} {k : Nat} {s : Session ρ}
    (hs : e.registry.session? k = some s) (h : e.change event = .nothing) : Spares k (e, event) :=
  spares_of_change hs (by rw [h]; rintro ⟨⟩) (by rw [h]; rintro ⟨⟩)

end Engine

/-- A release is about the session at its seat. -/
theorem Release.change_about (r : Registry ρ) (seat : Nat) (stage : Release) :
    ((stage.change r seat).seat? = none ∨ (stage.change r seat).seat? = some seat) ∧
      ∀ id, (stage.change r seat).unlisted? = some id →
        ∃ s, r.session? seat = some s ∧ s.id = id := by
  cases stage with
  | forget =>
    simp only [change]
    cases r.session? seat with
    | none => exact ⟨Or.inl rfl, by rintro id ⟨⟩⟩
    | some s =>
      refine ⟨Or.inl rfl, fun id h => ⟨s, rfl, ?_⟩⟩
      simpa [Change.unlisted?] using h
  | awaitAnswer ticket => exact ⟨Or.inl rfl, by rintro id ⟨⟩⟩
  | awaitEnd => exact ⟨Or.inl rfl, by rintro id ⟨⟩⟩
  | _ => exact ⟨Or.inr rfl, by rintro id ⟨⟩⟩

namespace Engine

section Sparing

variable {ids : Nat → String} {q k : Nat} {past pass : List (Engine ρ × Event ρ)}
  {seats : List Nat} {e e' : Engine ρ} {event : Event ρ} {s : Session ρ}

/-- An event in which no task takes a turn changes sessions only by the steps of their workers. -/
theorem spares_of_place (hs : e.registry.session? k = some s) (hp : event.place? = none) :
    Spares k (e, event) := by
  cases event with
  | work seat move =>
    by_cases hk : seat = k
    · exact Or.inl ⟨move, by rw [hk]⟩
    · exact spares_of_change hs (by rintro ⟨⟩) (by simpa [change, Change.seat?] using hk)
  | arrive request => exact spares_of_nothing hs rfl
  | startPatrol => exact spares_of_nothing hs rfl
  | pass time => exact spares_of_change hs (by rintro ⟨⟩) (by rintro ⟨⟩)
  | _ => cases hp

/-- **A turn of a sweep leaves all sessions alone** but those that it has closed. -/
theorem UnderWay.spares (hu : UnderWay ids q past seats pass e) (h : e.step? event = some e')
    (hlone : Own q event) (hs : e.registry.session? k = some s)
    (hk : ∀ v ∈ condemned q (pass ++ [(e, event)]), v.1 ≠ k) : Spares k (e, event) := by
  rcases hlone with hp | hp
  · exact spares_of_place hs hp
  obtain ⟨t, ht, hT⟩ := hu.tally
  have hold : ∀ v ∈ condemned q pass, v.1 ≠ k := fun v hv =>
    hk v (by rw [condemned_concat]; exact List.mem_append_left _ hv)
  cases t with
  | sweep stage =>
    -- a verdict is about a session that the sweep has closed then, or changes nothing
    have hverdict {v : Nat × Engine ρ} (hv : visit? q (e, event) = some v) :
        Spares k (e, event) := by
      rcases change_of_visit? hv with ⟨hclose, hmem⟩ | hnothing
      · have hne : v.1 ≠ k := hk v (by
          rw [condemned_append]
          exact List.mem_append_right _ hmem)
        refine spares_of_change hs ?_ ?_ <;> simp only at hclose <;> rw [hclose]
        · rintro ⟨⟩
        · simpa [Change.seat?] using hne
      · exact spares_of_nothing hs hnothing
    rcases sweep_of_step? ht h with ⟨rfl, -⟩ | ⟨rfl, -⟩ | ⟨way, stage', rfl, -⟩ | ⟨hne, -⟩
    · have hpart : e.partAt q = .sweep stage := by simp [partAt, ht, Task.part]
      have hchange : e.change (.go q) = stage.change e.registry := by
        rw [change_of_go, hpart]
        rfl
      cases stage with
      | scan => exact hT.elim
      | judge rest closed =>
        cases rest with
        | nil => exact spares_of_nothing hs hchange
        | cons seat rest => exact hverdict (v := (seat, e)) (by simp [visit?, hpart])
      | weigh seat rest closed => exact hverdict (v := (seat, e)) (by simp [visit?, hpart])
      | release seat stage rest closed =>
        obtain ⟨moment, hT⟩ := hT
        obtain ⟨done, hd, -, -⟩ := hT.ledger
        have hne : seat ≠ k := hold (seat, moment) (by rw [hd]; simp)
        obtain ⟨hseat, hid⟩ := stage.change_about e.registry seat
        refine spares_of_change hs ?_ ?_ <;> rw [hchange, Sweep.change]
        · intro hunlisted
          obtain ⟨s', hs', hsame⟩ := hid s.id hunlisted
          exact hne (hu.orderly.named.seat_eq hu.orderly.distinct hs' hs hsame)
        · rcases hseat with hn | hn <;> rw [hn]
          · rintro ⟨⟩
          · simpa using hne
    · exact spares_of_nothing hs (by simp [change, ht, Task.lapse])
    · exact spares_of_nothing hs rfl
    · exact absurd hp hne
  | finished a =>
    obtain ⟨t', -, ⟨-, hturn⟩ | ⟨hne, -⟩⟩ := task_of_step? h ht
    · exact absurd hturn not_turn_of_finished
    · exact absurd hp hne
  | _ => exact hT.elim

end Sparing

/-- A session that is left alone stays where it is in its life. -/
theorem kept_of_spares {e e' : Engine ρ} {events : List (Event ρ)} (h : e.run? events = some e')
    {k : Nat} {s : Session ρ} (hs : e.registry.session? k = some s)
    (hspares : ∀ x ∈ e.trace events, Spares k x) :
    ∃ s', e'.registry.session? k = some s' ∧ s'.listed = s.listed ∧ s'.isClosed = s.isClosed := by
  induction events generalizing e s with
  | nil =>
    cases h
    exact ⟨s, hs, rfl, rfl⟩
  | cons event rest ih =>
    simp only [run?] at h
    split at h
    · rename_i e₁ he
      simp only [trace, he, List.mem_cons] at hspares
      have hrest := fun x hx => hspares x (Or.inr hx)
      rcases hspares _ (Or.inl rfl) with ⟨move, hwork⟩ | hsame
      · obtain rfl : event = .work k move := hwork
        obtain ⟨s₁, hs₁, ha⟩ := session_of_step? he hs
        obtain ⟨s', hs', hl, hc⟩ := ih h hs₁ hrest
        refine ⟨s', hs', hl.trans ?_, hc.trans ?_⟩
        · rw [ha.listed]
          simp [change, Change.unlisted?]
        · exact Bool.eq_iff_iff.mpr (ha.closed_iff.trans
            ⟨fun h => h.resolve_right (by rintro ⟨⟩), Or.inl⟩)
      · exact ih h ((hsame e₁ he).trans hs) hrest
    · cases h

/-! ## 2. What has become of a closed session -/

/-- A session that was closed by the sweep at a place: `past` is what happened before the sweep
began, and `pass` what has happened since. -/
structure PutAway (k q : Nat) (past pass : List (Engine ρ × Event ρ)) (e : Engine ρ)
    (s : Session ρ) : Prop where
  /-- The sweep has closed it, and nobody else. -/
  closed : s.isClosed = true ∧ closers k (past ++ pass) = [q]
  /-- It has left the list. -/
  unlisted : s.listed = false ∧ e.registry.seat? s.id = none
  /-- It is remembered for a while from then on. -/
  remembered : ∃ x ∈ pass, x.1.change x.2 = .forget s.id ∧ ∀ later e', e.run? later = some e' →
    e'.registry.now < x.1.registry.now + Registry.retention.nanos →
    e'.registry.remembers s.id = true
  /-- A release was queued for it, unless its worker had faulted by then. -/
  released : ∃ x ∈ pass, ∃ t, x.2 = .go q ∧ x.1.change x.2 = .submit k false .release ∧
    x.1.registry.session? k = some t ∧
    (releases k (past ++ pass)).length = if t.worker.isFaulted then 0 else 1

/-- Only a worker that has faulted says so. -/
theorem isFaulted_of_refusal? {w : Worker ρ Job JobAnswer} (h : w.refusal? false = some .faulted) :
    w.isFaulted = true := by
  unfold Worker.refusal? at h
  split at h
  · assumption
  · split at h
    · cases h
    · split at h
      · cases h
      · split at h <;> cases h

theorem not_isFaulted_of_refusal? {w : Worker ρ Job JobAnswer} {bounded : Bool}
    (h : w.refusal? bounded = none) : w.isFaulted = false := by
  unfold Worker.refusal? at h
  split at h
  · cases h
  · exact Bool.eq_false_iff.mpr ‹_›

section Closed

variable {q k : Nat} {past pass : List (Engine ρ × Event ρ)} {e₀ e : Engine ρ}
  {events : List (Event ρ)} {s : Session ρ}

/-- **A session that was open before is released by the attempt that was made since.** -/
theorem released_of_attempts {s₀ : Session ρ} (hb₀ : Books k past e₀)
    (hs₀ : e₀.registry.session? k = some s₀) (hopen : s₀.isClosed = false)
    (hacc : Account k (past ++ pass) e s) (hcl : closers k (past ++ pass) = [q])
    (ha : attempts k (past ++ pass) ≠ []) :
    ∃ x ∈ pass, ∃ t, x.2 = .go q ∧ x.1.change x.2 = .submit k false .release ∧
      x.1.registry.session? k = some t ∧
      (releases k (past ++ pass)).length = if t.worker.isFaulted then 0 else 1 := by
  have hnone : attempts k past = [] := by
    have hacc₀ := hb₀.account.of_some hs₀
    rcases hacc₀.tried with hn | ⟨q', r, -, hc, -⟩
    · exact hn
    · rw [hacc₀.opened hopen] at hc
      cases hc
  obtain ⟨q', r, hat, hcl', hr⟩ := hacc.tried.resolve_left ha
  rw [hcl] at hcl'
  cases hcl'
  have hmem : (q, r) ∈ attempts k pass := by
    have hsplit : attempts k (past ++ pass) = attempts k past ++ attempts k pass := by
      simp [attempts]
    rw [hsplit, hnone, List.nil_append] at hat
    simp [hat]
  obtain ⟨x, hx, hattempt⟩ := List.mem_filterMap.mp hmem
  unfold attempt? at hattempt
  split at hattempt
  · rename_i hsubmit
    have hchange := Change.released?_eq_some.mp hsubmit
    split at hattempt
    · rename_i p t hplace hsession
      cases hattempt
      obtain ⟨p', hgo, -⟩ := submit_of_step? hchange
      refine ⟨x, hx, t, ?_, hchange, hsession, ?_⟩
      · rw [hgo] at hplace ⊢
        cases hplace
        rfl
      · rw [hacc.accepted, hat]
        rcases hr with hr | hr
        · simp [hr, not_isFaulted_of_refusal? hr]
        · simp [hr, isFaulted_of_refusal? hr]
    · cases hattempt
  · cases hattempt

/-- A session whose identifier was forgotten along a run is off the list at its end. -/
theorem unlisted_of_forget {s₀ : Session ρ} (hrun : e₀.run? events = some e)
    (hs₀ : e₀.registry.session? k = some s₀) (hs : e.registry.session? k = some s)
    {x : Engine ρ × Event ρ} (hx : x ∈ e₀.trace events)
    (hforget : x.1.change x.2 = .forget s.id) : s.listed = false := by
  obtain ⟨before, after, hbefore, -⟩ := before_of_mem_trace hx
  obtain ⟨e₁, rest, hstep, hrest⟩ := rest_of_mem_trace hrun hx
  obtain ⟨s₁, hs₁, -⟩ := session_of_run? hbefore hs₀
  obtain ⟨s₂, hs₂, ha⟩ := session_of_step? hstep hs₁
  obtain ⟨s₃, hs₃, hid, -, hkeep⟩ := session_of_run? hrest hs₂
  rw [hs] at hs₃
  cases hs₃
  refine hkeep ?_
  rw [ha.listed, hforget, ← ha.id, ← hid]
  simp [Change.unlisted?]

/-- An identifier that was forgotten is remembered for a while. -/
theorem remembers_of_forget {id : String} (hb : Books k past e) {x : Engine ρ × Event ρ}
    (hx : x ∈ past) (hforget : x.1.change x.2 = .forget id) {later : List (Event ρ)}
    {e' : Engine ρ} (hrun : e.run? later = some e')
    (hnow : e'.registry.now < x.1.registry.now + Registry.retention.nanos) :
    e'.registry.remembers id = true := by
  have hb' : Books k (past ++ e.trace later) e' :=
    run?_induction (fun _ _ _ _ hb h => hb.step h) hrun hb
  exact hb'.remembers.of_lately ⟨x, List.mem_append_left _ hx, hforget, hnow⟩

end Closed

/-! ## 3. What a sweep does -/

/-- The sweep at a place is undisturbed in each of its verdicts. -/
def Calm (q : Nat) (past pass : List (Engine ρ × Event ρ)) : Prop :=
  ∀ before x after, pass = before ++ x :: after → ∀ v, visit? q x = some v →
    Undisturbed q v.1 (past ++ before) v.2

/-- What the sweep at a place has done that has come to its end: `past` is what happened before it
began in an engine, `pass` what has happened since, and `ids` its answer. -/
structure SweptUp (q : Nat) (past : List (Engine ρ × Event ρ)) (e₀ : Engine ρ)
    (pass : List (Engine ρ × Event ρ)) (e : Engine ρ) (ids : List String) : Prop where
  /-- It has given one verdict on each session that was listed and open when it began, and on no
  other. -/
  once : ((visits q pass).map (·.1)).Nodup
  looked : ∀ k, k ∈ (visits q pass).map (·.1) ↔
    ∃ s, e₀.registry.session? k = some s ∧ s.listed = true ∧ s.isClosed = false
  /-- It names each session once, and exactly those that it has found to be open and due. -/
  nodup : ids.Nodup
  mem_iff : ∀ id, id ∈ ids ↔ ∃ v ∈ visits q pass, ∃ s, FoundDue q v.1 v.2 s ∧ s.id = id
  /-- If it was undisturbed, these are exactly those that were open and due at that moment. -/
  exact : Calm q past pass → ∀ id, id ∈ ids ↔
    ∃ v ∈ visits q pass, ∃ s, v.2.registry.DueAt v.1 s ∧ s.id = id
  /-- They are put away. -/
  putAway : ∀ k s, e.registry.session? k = some s → s.id ∈ ids → PutAway k q past pass e s
  /-- All others are left alone, if no other task has taken a turn meanwhile. -/
  spared : (∀ x ∈ pass, Own q x.2) → ∀ k s₀, e₀.registry.session? k = some s₀ → s₀.id ∉ ids →
    (∀ x ∈ pass, Spares k x) ∧ ∃ s, e.registry.session? k = some s ∧ s.listed = s₀.listed ∧
      s.isClosed = s₀.isClosed

/-- How the sweep at a place finds a session that it closes: `past` is what has happened so far. -/
structure Catches (q k : Nat) (past : List (Engine ρ × Event ρ)) (e : Engine ρ) (s : Session ρ) :
    Prop where
  found : FoundDue q k e s
  /-- Before its second look it has taken the first. -/
  glanced : ∀ rest closed, e.partAt q = .sweep (.weigh k rest closed) →
    ∃ look since, Glanced q k past look since
  /-- If nothing has come between, the session is open and due, and its worker has faulted or has
  done all that it has accepted. -/
  due : Undisturbed q k past e → e.registry.DueAt k s ∧ (s.worker.isFaulted = true ∨
    ∀ x ∈ Worker.History.accepted (notes k past),
      x ∈ (Worker.History.ended (notes k past)).map Prod.fst)

/-- What the sweep at a place does that is about to look at the list. -/
structure SweepsUp (q : Nat) (past : List (Engine ρ × Event ρ)) (e₀ : Engine ρ) : Prop where
  begins : e₀.step? (.go q) ≠ none
  /-- It takes eight turns for each session at most, and has a turn to take until it answers. -/
  ends : ∀ first later e, Surveys q first → e₀.run? (first :: later) = some e →
    turnsOf q later ≤ 8 * e₀.registry.liveSeats.length + 1 ∧
      ((∃ ids, e.answer? q = some (.swept ids)) ∨ e.step? (.go q) ≠ none ∨
        e.step? (.expire q) ≠ none)
  /-- Whoever it closes, or any other sweep meanwhile, is found to be due at that moment. -/
  catches : ∀ first later before x after, Surveys q first →
    e₀.trace (first :: later) = before ++ x :: after → ∀ p k, x.2.place? = some p →
    (p = q ∨ ∃ stage, x.1.partAt p = .sweep stage) → x.1.change x.2 = .close k →
    ∃ s, Catches p k (past ++ before) x.1 s
  swept : ∀ first later e ids, Surveys q first → e₀.run? (first :: later) = some e →
    e.answer? q = some (.swept ids) →
    SweptUp q past e₀ (e₀.trace (first :: later)) e ids

section Ending

variable {past : List (Engine ρ × Event ρ)} {q k : Nat} {e₀ e₁ e : Engine ρ} {first : Event ρ}
  {later : List (Event ρ)} {closed : List String}

theorem trace_of_step? {event : Event ρ} (h : e₀.step? event = some e₁) :
    e₀.trace (event :: later) = (e₀, event) :: e₁.trace later := by
  simp [trace, h]

/-- **At each of its moments a sweep is under way**, or about to look at the list. -/
theorem underWay_of_mem (hb : ∀ k, Books k past e₀) (ho : Orderly e₀)
    (ht : e₀.tasks[q]? = some (.sweep .scan)) (hf : Surveys q first)
    (h : e₀.step? first = some e₁) {x : Engine ρ × Event ρ}
    (hx : x ∈ e₀.trace (first :: later)) :
    x = (e₀, first) ∨ ∃ seats before after, UnderWay e₀.registry.ids q past seats before x.1 ∧
      e₀.trace (first :: later) = before ++ x :: after := by
  rw [trace_of_step? h, List.mem_cons] at hx
  refine hx.imp_right fun hx => ?_
  obtain ⟨before, after, hbefore, hsplit⟩ := before_of_mem_trace hx
  obtain ⟨seats, -, hu⟩ := underWay_of_scan hb ho ht hf h
  refine ⟨seats, _, after, hu.run hbefore, ?_⟩
  rw [trace_of_step? h, hsplit]
  rfl

/-- The task of a sweep under way is at a stage of it, or has answered. -/
theorem UnderWay.part {ids : Nat → String} {seats : List Nat}
    {pass : List (Engine ρ × Event ρ)} (hu : UnderWay ids q past seats pass e) :
    (∃ stage, e.partAt q = .sweep stage) ∨ e.partAt q = .idle := by
  obtain ⟨t, ht, hT⟩ := hu.tally
  unfold partAt
  rw [ht]
  cases t with
  | sweep stage => exact Or.inl ⟨stage, rfl⟩
  | finished a => exact Or.inr rfl
  | _ => exact hT.elim

/-- What a sweep has closed and what it names, when it has come to its end. -/
theorem UnderWay.finished {ids : Nat → String} {seats : List Nat}
    {pass : List (Engine ρ × Event ρ)} (hu : UnderWay ids q past seats pass e)
    (ha : e.answer? q = some (.swept closed)) :
    (visits q pass).map (·.1) = seats ∧ closed = (condemned q pass).map (fun v => ids v.1) ∧
      ∀ v ∈ condemned q pass, SeenOff ids past pass v.1 := by
  obtain ⟨t, ht, hT⟩ := hu.tally
  obtain rfl : t = .finished (.swept closed) := by
    unfold answer? at ha
    rw [ht] at ha
    split at ha
    · rename_i a heq
      cases heq
      cases ha
      rfl
    · cases ha
  obtain ⟨done, hd, hc, hs⟩ := hT.ledger
  rw [List.append_nil] at hd
  rw [hd]
  exact ⟨by simpa using hT.order, hc, hs⟩

/-- Whoever is closed by a sweep is found to be due. -/
theorem foundDue_of_sweep {x : Engine ρ × Event ρ} {p : Nat} {stage : Sweep}
    (hp : x.2.place? = some p) (hpart : x.1.partAt p = .sweep stage)
    (hc : x.1.change x.2 = .close k) : ∃ s, FoundDue p k x.1 s := by
  obtain ⟨p', hgo, -⟩ := go_of_change hc (by rintro ⟨⟩) (by rintro seat ⟨⟩) rfl
  rw [hgo] at hp hc
  cases hp
  refine (condemns_iff hpart).mp ?_
  rw [condemns, hc]
  exact beq_self_eq_true _

/-- Where the sweep closes a session, it is at a stage of it. -/
theorem stage_of_close (hb : ∀ k, Books k past e₀) (ho : Orderly e₀)
    (ht : e₀.tasks[q]? = some (.sweep .scan)) (hf : Surveys q first) {x : Engine ρ × Event ρ}
    (hx : x ∈ e₀.trace (first :: later)) (hp : x.2.place? = some q)
    (hc : x.1.change x.2 = .close k) : ∃ stage, x.1.partAt q = .sweep stage := by
  obtain ⟨e₁, h⟩ : ∃ e₁, e₀.step? first = some e₁ := by
    cases h : e₀.step? first with
    | none => simp [trace, h] at hx
    | some e₁ => exact ⟨e₁, rfl⟩
  rcases underWay_of_mem hb ho ht hf h hx with rfl | ⟨seats, before, after, hux, -⟩
  · exact ⟨.scan, by simp [partAt, ht, Task.part]⟩
  · refine hux.part.resolve_right fun hidle => ?_
    obtain ⟨p', hgo, hchange⟩ := go_of_change hc (by rintro ⟨⟩) (by rintro seat ⟨⟩) rfl
    rw [hgo] at hp
    cases hp
    rw [hidle] at hchange
    cases hchange

/-- A verdict by which a session is closed has found it to be due. -/
theorem foundDue_of_visit {v : Nat × Engine ρ} {pass : List (Engine ρ × Event ρ)}
    (hv : v ∈ visits q pass) (hc : v.2.condemns q v.1 = true) : ∃ s, FoundDue q v.1 v.2 s := by
  obtain ⟨x, -, hvisit⟩ := List.mem_filterMap.mp hv
  obtain ⟨-, hmoment, ⟨rest, closed, hp⟩ | ⟨rest, closed, hp⟩⟩ := visit?_eq_some hvisit <;>
    exact (condemns_iff (hmoment ▸ hp)).mp hc

/-- **The verdicts of an undisturbed sweep are right.** -/
theorem Looked.foundDue_iff (hl : Looked past e₀) {events : List (Event ρ)}
    (hcalm : Calm q past (e₀.trace events)) {v : Nat × Engine ρ}
    (hv : v ∈ visits q (e₀.trace events)) {s : Session ρ} :
    FoundDue q v.1 v.2 s ↔ v.2.registry.DueAt v.1 s := by
  obtain ⟨x, hx, hvisit⟩ := List.mem_filterMap.mp hv
  obtain ⟨before, after, hbefore, hsplit⟩ := before_of_mem_trace hx
  have hu := hcalm _ x after hsplit v hvisit
  obtain ⟨-, hmoment, hpart⟩ := visit?_eq_some hvisit
  have hlx := hl.run hbefore
  rw [← hmoment] at hlx hpart
  refine ⟨dueAt_of_foundDue hlx hu, fun hd => ?_⟩
  rcases hpart with ⟨rest, closed, hp⟩ | ⟨rest, closed, hp⟩
  · exact .atOnce hp hd
  · exact foundDue_of_dueAt hlx hu hp hd

/-- The moments of a sweep have the sessions and the identifiers of a run. -/
theorem named_of_visit (ho : Orderly e₀) {v : Nat × Engine ρ} {events : List (Event ρ)}
    (hv : v ∈ visits q (e₀.trace events)) {s : Session ρ}
    (hs : v.2.registry.session? v.1 = some s) : s.id = e₀.registry.ids v.1 := by
  obtain ⟨x, hx, hvisit⟩ := List.mem_filterMap.mp hv
  obtain ⟨-, hmoment, -⟩ := visit?_eq_some hvisit
  obtain ⟨before, -, hbefore, -⟩ := before_of_mem_trace hx
  rw [hmoment] at hs
  rw [ho.named.run hbefore v.1 s hs, (settings_of_run? hbefore).2]

/-- A sweep that has come to its end has put away whom it has closed. -/
theorem putAway_of_condemned (hb : ∀ k, Books k past e₀) {events : List (Event ρ)}
    (hrun : e₀.run? events = some e) {s₀ s : Session ρ}
    (hs₀ : e₀.registry.session? k = some s₀) (hopen : s₀.isClosed = false)
    {seats : List Nat} (hu : UnderWay e₀.registry.ids q past seats (e₀.trace events) e)
    (hs : e.registry.session? k = some s) {x : Engine ρ × Event ρ} (hx : x ∈ e₀.trace events)
    (hgo : x.2 = .go q) (hclose : x.1.change x.2 = .close k)
    (hseen : SeenOff e₀.registry.ids past (e₀.trace events) k) :
    PutAway k q past (e₀.trace events) e s := by
  have hid : s.id = e₀.registry.ids k := (hu.orderly.named k s hs).trans (by rw [hu.ids_eq])
  have hacc := (hu.books k).account.of_some hs
  have hclosed : s.isClosed = true := by
    obtain ⟨e₁, rest, hstep, hrest⟩ := rest_of_mem_trace hrun hx
    obtain ⟨before, -, hbefore, -⟩ := before_of_mem_trace hx
    obtain ⟨s₁, hs₁, -⟩ := session_of_run? hbefore hs₀
    obtain ⟨s₂, hs₂, ha⟩ := session_of_step? hstep hs₁
    obtain ⟨s₃, hs₃, -, hkeep, -⟩ := session_of_run? hrest hs₂
    rw [hs] at hs₃
    cases hs₃
    exact hkeep (ha.closed_iff.mpr (Or.inr hclose))
  have hcl : closers k (past ++ e₀.trace events) = [q] := by
    obtain ⟨p, hp⟩ := hacc.closed hclosed
    have hq : q ∈ closers k (past ++ e₀.trace events) :=
      List.mem_filterMap.mpr ⟨x, List.mem_append_right _ hx, by
        rw [closer?, if_pos (Change.closed?_eq_some.mpr hclose), hgo]
        rfl⟩
    rw [hp, List.mem_singleton] at hq
    rw [hp, hq]
  obtain ⟨⟨y, hy, hforget⟩, ha⟩ := hseen
  rw [← hid] at hforget
  have hl : s.listed = false := unlisted_of_forget hrun hs₀ hs hy hforget
  refine ⟨⟨hclosed, hcl⟩, ⟨hl, ?_⟩, ⟨y, hy, hforget, fun later e' hlater hnow => ?_⟩, ?_⟩
  · refine Registry.seat?_eq_none.mpr fun j t ht => ?_
    by_cases hsame : t.id = s.id
    · obtain rfl := hu.orderly.named.seat_eq hu.orderly.distinct ht hs hsame
      rw [hs] at ht
      cases ht
      simp [Registry.holds, hl]
    · simp [Registry.holds, hsame]
  · exact remembers_of_forget (hu.books k) (List.mem_append_right _ hy) hforget hlater hnow
  · exact released_of_attempts (hb k) hs₀ hopen hacc hcl ha

/-- **A session that a sweep does not condemn is spared** by it at each of its moments, and by all
that goes on beside it if no other task takes a turn. -/
theorem spares_of_not_condemned (hb : ∀ k, Books k past e₀) (ho : Orderly e₀)
    (ht : e₀.tasks[q]? = some (.sweep .scan)) (hf : Surveys q first)
    (hrun : e₀.run? (first :: later) = some e)
    (hown : ∀ x ∈ e₀.trace (first :: later), Own q x.2)
    {s₀ : Session ρ} (hs₀ : e₀.registry.session? k = some s₀)
    (hk : ∀ v ∈ condemned q (e₀.trace (first :: later)), v.1 ≠ k) :
    ∀ x ∈ e₀.trace (first :: later), Spares k x := by
  obtain ⟨e₁, h, -⟩ := step_of_run? hrun
  intro x hx
  rcases underWay_of_mem hb ho ht hf h hx with rfl | ⟨seats, before, after, hux, hsplit⟩
  · exact spares_of_nothing hs₀ (judge_of_surveys ht hf h).1
  · obtain ⟨e₂, -, hstep, -⟩ := rest_of_mem_trace hrun hx
    obtain ⟨_, _, hbefore, -⟩ := before_of_mem_trace hx
    obtain ⟨s, hs, -⟩ := session_of_run? hbefore hs₀
    refine hux.spares hstep (hown x hx) hs fun v hv => hk v ?_
    rw [hsplit, List.append_cons, condemned_append]
    exact List.mem_append_left _ hv

/-- **What a sweep has done that has come to its end.** -/
theorem sweptUp_of_run? (hb : ∀ k, Books k past e₀) (ho : Orderly e₀) (hl : Looked past e₀)
    (ht : e₀.tasks[q]? = some (.sweep .scan)) (hf : Surveys q first)
    (hrun : e₀.run? (first :: later) = some e) (ha : e.answer? q = some (.swept closed)) :
    SweptUp q past e₀ (e₀.trace (first :: later)) e closed := by
  obtain ⟨e₁, h, hlater⟩ := step_of_run? hrun
  obtain ⟨seats, hperm, hscan⟩ := underWay_of_scan hb ho ht hf h
  have hu := hscan.run hlater
  rw [List.singleton_append, ← trace_of_step? h] at hu
  obtain ⟨hvisits, hclosed, hseen⟩ := hu.finished ha
  have hnodup : ((visits q (e₀.trace (first :: later))).map (·.1)).Nodup := by
    rw [hvisits]
    exact hperm.nodup_iff.mpr Registry.nodup_liveSeats
  have hmem (id : String) : id ∈ closed ↔
      ∃ v ∈ visits q (e₀.trace (first :: later)), ∃ s, FoundDue q v.1 v.2 s ∧ s.id = id := by
    rw [hclosed, List.mem_map]
    constructor
    · rintro ⟨v, hv, rfl⟩
      obtain ⟨hvisit, hc⟩ := List.mem_filter.mp hv
      obtain ⟨s, hdue⟩ := foundDue_of_visit hvisit hc
      exact ⟨v, hvisit, s, hdue, named_of_visit ho hvisit hdue.session⟩
    · rintro ⟨v, hvisit, s, hdue, rfl⟩
      exact ⟨v, List.mem_filter.mpr ⟨hvisit, hdue.condemns⟩,
        (named_of_visit ho hvisit hdue.session).symm⟩
  constructor
  case once => exact hnodup
  case looked =>
    intro k
    rw [hvisits, hperm.mem_iff]
    exact Registry.mem_liveSeats
  case nodup =>
    rw [hclosed]
    have hsub := List.Sublist.map Prod.fst (List.filter_sublist
      (p := fun v : Nat × Engine ρ => v.2.condemns q v.1)
      (l := visits q (e₀.trace (first :: later))))
    have hpair := List.pairwise_map.mp (hsub.nodup hnodup)
    exact List.pairwise_map.mpr (hpair.imp fun hne heq => hne (ho.distinct heq))
  case mem_iff => exact hmem
  case exact =>
    intro hcalm id
    rw [hmem id]
    refine exists_congr fun v => and_congr_right fun hv => exists_congr fun s =>
      and_congr_left fun _ => ?_
    exact hl.foundDue_iff hcalm hv
  case putAway =>
    intro k s hs hmem
    have hid : s.id = e₀.registry.ids k := (hu.orderly.named k s hs).trans (by rw [hu.ids_eq])
    rw [hclosed, hid] at hmem
    obtain ⟨v, hv, hsame⟩ := List.mem_map.mp hmem
    obtain rfl := ho.distinct hsame
    obtain ⟨x, hx, hgo, -, hclose⟩ := of_mem_condemned hv
    have hseat : v.1 ∈ e₀.registry.liveSeats := by
      rw [← hperm.mem_iff, ← hvisits]
      exact List.mem_map.mpr ⟨v, (List.mem_filter.mp hv).1, rfl⟩
    obtain ⟨s₀, hs₀, -, hopen⟩ := Registry.mem_liveSeats.mp hseat
    exact putAway_of_condemned hb hrun hs₀ hopen hu hs hx hgo hclose (hseen v hv)
  case spared =>
    intro hown k s₀ hs₀ hnot
    have hk : ∀ v ∈ condemned q (e₀.trace (first :: later)), v.1 ≠ k := by
      rintro v hv rfl
      refine hnot ?_
      rw [hclosed, ho.named v.1 s₀ hs₀]
      exact List.mem_map.mpr ⟨v, hv, rfl⟩
    have hspares := spares_of_not_condemned hb ho ht hf hrun hown hs₀ hk
    exact ⟨hspares, kept_of_spares hrun hs₀ hspares⟩

end Ending

/-- **Whatever goes on beside it**, a sweep closes those that it finds to be due when it comes to
them, and names those that it has closed and nobody else; if nothing goes on, it leaves all others
alone. -/
theorem sweepsUp_of_run? {settings : SessionSettings} {standard : Duration} {ids : Nat → String}
    {now q : Nat} {e₀ : Engine ρ} {earlier : List (Event ρ)} (hids : Function.Injective ids)
    (h : (start settings standard ids now).run? earlier = some e₀)
    (ht : e₀.tasks[q]? = some (.sweep .scan)) :
    SweepsUp q ((start settings standard ids now).trace earlier) e₀ := by
  have hb := books_of_run? h
  have ho := orderly_of_run? hids h
  have hl := looked_of_run? h
  constructor
  case begins => simp [step?, go?, ht, Sweep.step, follow?]
  case ends =>
    intro first later e hf hrun
    obtain ⟨e₁, hstep, hlater⟩ := step_of_run? hrun
    obtain ⟨-, -, seats, hperm, ht₁⟩ := judge_of_surveys ht hf hstep
    obtain ⟨t', ht', hend, hle⟩ := brief_sweeps.turns_of_run? hlater ht₁
      (Or.inl ⟨_, rfl, by rintro ⟨⟩⟩)
    have hmost : (Task.sweep (.judge seats [])).part.turns =
        1 + 8 * e₀.registry.liveSeats.length := by
      rw [← hperm.length_eq]
      rfl
    refine ⟨by omega, ?_⟩
    rcases hend with ⟨stage, rfl, -⟩ | ⟨closed, rfl⟩
    · exact Or.inr (turn_of_sweep ht')
    · exact Or.inl ⟨closed, answer?_of_finished ht'⟩
  case catches =>
    intro first later before x after hf hsplit p k hp hsweep hclose
    obtain ⟨events, hbefore, rfl⟩ := before_of_trace_eq hsplit
    have hx : x ∈ e₀.trace (first :: later) := by simp [hsplit]
    obtain ⟨stage, hpart⟩ : ∃ stage, x.1.partAt p = .sweep stage := by
      rcases hsweep with rfl | hsweep
      · exact stage_of_close hb ho ht hf hx hp hclose
      · exact hsweep
    obtain ⟨s, hfound⟩ := foundDue_of_sweep hp hpart hclose
    have hlx := hl.run hbefore
    refine ⟨s, hfound, hlx.glanced p k, fun hu => ⟨dueAt_of_foundDue hlx hu hfound, ?_⟩⟩
    obtain ⟨hs, -, hdue⟩ := dueAt_of_foundDue hlx hu hfound
    refine (Session.due_iff.mp hdue).imp_right fun hidle => ?_
    have hrun : (start settings standard ids now).run? (earlier ++ events) = some x.1 := by
      rw [run?_append, h]
      exact hbefore
    have hdone := (isIdle_iff_of_run? hrun hs).mp hidle.1
    rwa [trace_append h] at hdone
  case swept =>
    intro first later e closed hf hrun ha
    exact sweptUp_of_run? hb ho hl ht hf hrun ha

/-- Two sessions are started, one of them 2000 seconds after the other, and a sweep is asked for as
much later. -/
def sweepAsked : List (Event Nat) :=
  [.arrive (.create []), .go 0, .work 0 (.built 7), .go 0, .pass (.ofSeconds 2000),
    .arrive (.create []), .go 1, .work 1 (.built 7), .go 1, .pass (.ofSeconds 2000),
    .arrive .sweep]

/-- The first session is released, and the second is left alone. -/
def oneSweptUp : List (Event Nat) :=
  [.go 2, .go 2, .work 0 .start, .work 0 (.finish 8 (.ok ⟨"", .null⟩)), .go 2, .go 2, .go 2,
    .work 0 .takeStop, .work 0 .hangUp, .work 0 (.discard false), .go 2, .go 2, .go 2, .go 2]

theorem sweepsUp_oneSweptUp : ∃ e₀ e : Engine Nat,
    let e₁ := start (.ofConfig SessionConfig.standard) (.ofSeconds 60) strokes 0
    e₁.run? sweepAsked = some e₀ ∧ e₀.tasks[2]? = some (.sweep .scan) ∧
    SweepsUp 2 (e₁.trace sweepAsked) e₀ ∧ e₀.run? (.go 2 :: oneSweptUp) = some e ∧
    e.answer? 2 = some (.swept [strokes 0]) :=
  ⟨_, _, rfl, rfl, sweepsUp_of_run? strokes_injective rfl rfl, rfl, rfl⟩

/-- With no other task at work, the sweep at a place closes only sessions that are open and due, and
of those whose worker has not faulted only such as have their resource. -/
def ClosesDueOnly (q : Nat) (e₀ : Engine ρ) : Prop :=
  ∀ events, (∀ x ∈ e₀.trace events, Own q x.2) → ∀ x ∈ e₀.trace events, ∀ k,
    x.2.place? = some q → x.1.change x.2 = .close k → ∃ s, x.1.registry.DueAt k s ∧
      (s.worker.isFaulted = true ∨ s.worker.phase ≠ .building)

/-- Two calls have given up waiting for a session.  The job of the first has ended, that of the
second waits, and a sweep is asked for. -/
def jobLeftBehind : List (Event Nat) :=
  let call : Call := ⟨"open_project", .object [("session_id", .str (strokes 0)),
    ("project_path", .str "Plant")]⟩
  [.arrive (.create []), .go 0, .work 0 (.built 7), .go 0, .arrive (.call call), .go 1, .go 1,
    .go 1, .go 1, .work 0 .start, .arrive (.call call), .go 2, .go 2, .go 2, .go 2, .expire 1,
    .expire 2, .work 0 (.finish 8 (.ok ⟨"", .null⟩)), .arrive .sweep]

/-- The job is counted off between the two looks of the sweep, and seen to run after them. -/
def lookedBetween : List (Event Nat) := [.go 3, .detour 3 .glance, .go 3, .work 0 .start]

/-- A session waits for its resource for as long as it may be idle, and a sweep is asked for. -/
def slowlyBuilt : List (Event Nat) :=
  [.arrive (.create []), .go 0, .pass (.ofMillis 20), .arrive .sweep]

/-- **A sweep closes sessions that are at work**: one whose worker has never been without a job, and
one whose resource is being built. -/
theorem not_closesDueOnly :
    let e₀ : Engine Nat := start ⟨3, .ofMillis 1, .ofSeconds 300, .ofSeconds 30, 64⟩
      (.ofSeconds 120) strokes 0
    (∃ e, e₀.run? jobLeftBehind = some e ∧ e.tasks[3]? = some (.sweep .scan) ∧
      ¬ ClosesDueOnly 3 e) ∧
    ∃ e, e₀.run? slowlyBuilt = some e ∧ e.tasks[1]? = some (.sweep .scan) ∧
      ¬ ClosesDueOnly 1 e := by
  refine ⟨⟨_, rfl, rfl, fun h => ?_⟩, ⟨_, rfl, rfl, fun h => ?_⟩⟩
  · obtain ⟨s, ⟨hs, -, hdue⟩, -⟩ := h lookedBetween (by decide) _
      (List.mem_cons_of_mem _ (List.mem_cons_of_mem _ List.mem_cons_self)) 0 rfl rfl
    cases hs
    rcases hdue with hf | ⟨-, hidle⟩ | ⟨hidle, -⟩
    · cases hf
    · cases hidle
    · cases hidle
  · obtain ⟨s, ⟨hs, -⟩, hf | hp⟩ := h [.go 1, .go 1] (by decide) _
      (List.mem_cons_of_mem _ List.mem_cons_self) 0 rfl rfl
    · cases hs
      cases hf
    · cases hs
      exact hp rfl

end Engine
end Workbench
