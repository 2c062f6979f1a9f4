import Workbench.Proofs.Session.Stopping
import Workbench.Proofs.Session.Turns
import Workbench.Proofs.Session.Verdicts

/-!
# The tally of a sweep

A sweep looks at the list once, and then at one session after the other.  A session that is due when
its turn has come is closed and seen off before the sweep goes on to the next, and much can have
happened to that one meanwhile.

* `visits` are the sessions on which a sweep has given its verdict, each with the moment at which it
  did, and `condemned` those that it has closed;
* `Tally` ties these to the stage at which the sweep is: `Tally.look`, `Tally.condemn` and
  `Tally.settle` are its steps, and `Tallied.step` says that every event keeps it;
* `underWay_of_scan` and `UnderWay.run` say what holds at every moment of a sweep.
-/

namespace Workbench

variable {ρ : Type}

/-! ## 1. What a sweep has looked at -/

namespace Registry

variable {r : Registry ρ} {k : Nat}

theorem mem_liveSeats : k ∈ r.liveSeats ↔
    ∃ s, r.session? k = some s ∧ s.listed = true ∧ s.isClosed = false := by
  unfold liveSeats
  rw [List.mem_filter, List.mem_range]
  cases hs : r.session? k with
  | none => simp
  | some s =>
    have hlt : k < r.sessions.length := (List.getElem?_eq_some_iff.mp hs).1
    simp [hlt]

theorem nodup_liveSeats : r.liveSeats.Nodup := List.nodup_range.filter _

end Registry

namespace Engine

/-- The seat on which the sweep at a place gives its verdict in an event, with the engine at that
moment. -/
def visit? (q : Nat) (x : Engine ρ × Event ρ) : Option (Nat × Engine ρ) :=
  match x.2, x.1.partAt q with
  | .go p, .sweep (.judge (k :: _) _) => if p = q then some (k, x.1) else none
  | .go p, .sweep (.weigh k _ _) => if p = q then some (k, x.1) else none
  | _, _ => none

/-- The seats on which the sweep at a place has given its verdict, each with the engine at that
moment. -/
def visits (q : Nat) (past : List (Engine ρ × Event ρ)) : List (Nat × Engine ρ) :=
  past.filterMap (visit? q)

/-- Those that it has closed. -/
def condemned (q : Nat) (past : List (Engine ρ × Event ρ)) : List (Nat × Engine ρ) :=
  (visits q past).filter fun v => v.2.condemns q v.1

theorem visits_concat (q : Nat) (past : List (Engine ρ × Event ρ)) (x : Engine ρ × Event ρ) :
    visits q (past ++ [x]) = visits q past ++ (visit? q x).toList := by
  unfold visits
  rw [List.filterMap_append]
  cases h : visit? q x <;> simp [h]

theorem condemned_append (q : Nat) (past more : List (Engine ρ × Event ρ)) :
    condemned q (past ++ more) = condemned q past ++ condemned q more := by
  simp [condemned, visits]

theorem condemned_concat (q : Nat) (past : List (Engine ρ × Event ρ)) (x : Engine ρ × Event ρ) :
    condemned q (past ++ [x]) =
      condemned q past ++ (visit? q x).toList.filter fun v => v.2.condemns q v.1 := by
  simp [condemned, visits_concat]

/-- A verdict is given in a step of the sweep that comes to it. -/
theorem visit?_eq_some {q : Nat} {x : Engine ρ × Event ρ} {v : Nat × Engine ρ}
    (h : visit? q x = some v) : x.2 = .go q ∧ v.2 = x.1 ∧
      ((∃ rest closed, x.1.partAt q = .sweep (.judge (v.1 :: rest) closed)) ∨
        ∃ rest closed, x.1.partAt q = .sweep (.weigh v.1 rest closed)) := by
  unfold visit? at h
  split at h
  · rename_i hgo hpart
    split at h <;> cases h
    exact ⟨by rw [hgo]; simp_all, rfl, Or.inl ⟨_, _, hpart⟩⟩
  · rename_i hgo hpart
    split at h <;> cases h
    exact ⟨by rw [hgo]; simp_all, rfl, Or.inr ⟨_, _, hpart⟩⟩
  · cases h

/-- A verdict on a session is to close it, or to leave all as it is. -/
theorem change_of_visit? {q : Nat} {x : Engine ρ × Event ρ} {v : Nat × Engine ρ}
    (h : visit? q x = some v) : x.1.change x.2 = .close v.1 ∧ v ∈ condemned q [x] ∨
      x.1.change x.2 = .nothing := by
  obtain ⟨hgo, hmoment, hpart⟩ := visit?_eq_some h
  have hor : x.1.change x.2 = .close v.1 ∨ x.1.change x.2 = .nothing := by
    rw [hgo, change_of_go]
    rcases hpart with ⟨rest, closed, hp⟩ | ⟨rest, closed, hp⟩ <;>
      rw [hp, Part.change, Sweep.change] <;> split <;> simp
  refine hor.imp_left fun hclose => ⟨hclose, ?_⟩
  refine List.mem_filter.mpr ⟨List.mem_filterMap.mpr ⟨x, by simp, h⟩, ?_⟩
  rw [condemns, hmoment, ← hgo, beq_iff_eq, Change.closed?_eq_some]
  exact hclose

theorem of_mem_condemned {q : Nat} {past : List (Engine ρ × Event ρ)} {v : Nat × Engine ρ}
    (h : v ∈ condemned q past) : ∃ x ∈ past, x.2 = .go q ∧ v.2 = x.1 ∧
      x.1.change x.2 = .close v.1 := by
  obtain ⟨hv, hc⟩ := List.mem_filter.mp h
  obtain ⟨x, hx, hvisit⟩ := List.mem_filterMap.mp hv
  obtain ⟨hgo, hmoment, -⟩ := visit?_eq_some hvisit
  refine ⟨x, hx, hgo, hmoment, ?_⟩
  rw [hmoment, condemns, beq_iff_eq, Change.closed?_eq_some] at hc
  rw [hgo, hc]

/-! ## 2. The tally of a sweep -/

/-- The session at a seat has been seen off: it was forgotten, and its release was tried. -/
def SeenOff (ids : Nat → String) (past pass : List (Engine ρ × Event ρ)) (k : Nat) : Prop :=
  (∃ x ∈ pass, x.1.change x.2 = .forget (ids k)) ∧ attempts k (past ++ pass) ≠ []

/-- **The tally of a sweep**: it looks at the seats in their order, it names those that it has
closed, and all of them are seen off but the one at hand. -/
structure Tally (ids : Nat → String) (q : Nat) (past : List (Engine ρ × Event ρ))
    (seats : List Nat) (pass : List (Engine ρ × Event ρ)) (rest : List Nat)
    (closed : List String) (atHand : List (Nat × Engine ρ)) : Prop where
  order : (visits q pass).map (·.1) ++ rest = seats
  ledger : ∃ done, condemned q pass = done ++ atHand ∧ closed = done.map (fun v => ids v.1) ∧
    ∀ v ∈ done, SeenOff ids past pass v.1

section Tallying

variable {ids : Nat → String} {q k : Nat} {past pass : List (Engine ρ × Event ρ)}
  {seats rest : List Nat} {closed : List String} {atHand : List (Nat × Engine ρ)}

theorem SeenOff.concat (h : SeenOff ids past pass k) (x : Engine ρ × Event ρ) :
    SeenOff ids past (pass ++ [x]) k := by
  obtain ⟨⟨y, hy, hc⟩, ha⟩ := h
  refine ⟨⟨y, List.mem_append_left _ hy, hc⟩, ?_⟩
  rw [← List.append_assoc, attempts_concat]
  exact List.append_ne_nil_of_left_ne_nil ha _

/-- An event in which the sweep looks at nobody. -/
theorem Tally.concat (ht : Tally ids q past seats pass rest closed atHand)
    {x : Engine ρ × Event ρ} (hx : visit? q x = none) :
    Tally ids q past seats (pass ++ [x]) rest closed atHand := by
  obtain ⟨done, hd, hc, hs⟩ := ht.ledger
  constructor
  · rw [visits_concat, hx]
    simpa using ht.order
  · refine ⟨done, ?_, hc, fun v hv => (hs v hv).concat x⟩
    rw [condemned_concat, hx]
    simpa using hd

/-- The sweep looks at a session that is not due. -/
theorem Tally.look (ht : Tally ids q past seats pass (k :: rest) closed [])
    {x : Engine ρ × Event ρ} (hx : visit? q x = some (k, x.1))
    (hk : x.1.condemns q k = false) :
    Tally ids q past seats (pass ++ [x]) rest closed [] := by
  obtain ⟨done, hd, hc, hs⟩ := ht.ledger
  constructor
  · rw [visits_concat, hx]
    simpa using ht.order
  · refine ⟨done, ?_, hc, fun v hv => (hs v hv).concat x⟩
    rw [condemned_concat, hx]
    simpa [hk] using hd

/-- The sweep looks at a session that is due, and closes it. -/
theorem Tally.condemn (ht : Tally ids q past seats pass (k :: rest) closed [])
    {x : Engine ρ × Event ρ} (hx : visit? q x = some (k, x.1))
    (hk : x.1.condemns q k = true) :
    Tally ids q past seats (pass ++ [x]) rest closed [(k, x.1)] := by
  obtain ⟨done, hd, hc, hs⟩ := ht.ledger
  constructor
  · rw [visits_concat, hx]
    simpa using ht.order
  · refine ⟨done, ?_, hc, fun v hv => (hs v hv).concat x⟩
    rw [condemned_concat, hx]
    simpa [hk] using hd

/-- The session at hand has been seen off. -/
theorem Tally.settle {moment : Engine ρ}
    (ht : Tally ids q past seats pass rest closed [(k, moment)]) {x : Engine ρ × Event ρ}
    (hx : visit? q x = none) (hforget : x.1.change x.2 = .forget (ids k))
    (ha : attempts k (past ++ (pass ++ [x])) ≠ []) :
    Tally ids q past seats (pass ++ [x]) rest (closed ++ [ids k]) [] := by
  obtain ⟨done, hd, rfl, hs⟩ := (ht.concat hx).ledger
  refine ⟨(ht.concat hx).order, done ++ [(k, moment)], by simpa using hd, by simp, ?_⟩
  intro v hv
  rw [List.mem_append, List.mem_singleton] at hv
  rcases hv with hv | rfl
  · exact hs v hv
  · exact ⟨⟨x, by simp, hforget⟩, ha⟩

end Tallying

/-- The tally agrees with the stage of the task. -/
def Tallied (ids : Nat → String) (q : Nat) (past : List (Engine ρ × Event ρ)) (seats : List Nat)
    (pass : List (Engine ρ × Event ρ)) : Task → Prop
  | .sweep (.judge rest closed) => Tally ids q past seats pass rest closed []
  | .sweep (.weigh k rest closed) => Tally ids q past seats pass (k :: rest) closed []
  | .sweep (.release k _ rest closed) =>
    ∃ moment, Tally ids q past seats pass rest closed [(k, moment)]
  | .finished (.swept closed) => Tally ids q past seats pass [] closed []
  | _ => False

/-- **What an event makes of a sweep**: it goes on, it gives up waiting, it does something else than
its next step, or it is left alone. -/
theorem sweep_of_step? {e e' : Engine ρ} {event : Event ρ} {q : Nat} {stage : Sweep}
    (ht : e.tasks[q]? = some (.sweep stage)) (h : e.step? event = some e') :
    (event = .go q ∧
        ((∃ stage', stage.step e.registry = .next e'.registry stage' ∧
            e'.tasks[q]? = some (.sweep stage')) ∨
          ∃ closed, stage.step e.registry = .done e'.registry closed ∧
            e'.tasks[q]? = some (.finished (.swept closed)))) ∨
      (event = .expire q ∧
        ∃ stage', stage.expire? = some stage' ∧ e'.tasks[q]? = some (.sweep stage')) ∨
      (∃ way stage', event = .detour q way ∧ stage.detour? e.registry way = some stage' ∧
        e'.tasks[q]? = some (.sweep stage')) ∨
      (event.place? ≠ some q ∧ e'.tasks[q]? = some (.sweep stage)) := by
  by_cases hp : event.place? = some q
  · cases takes_of_step? h hp ht with
    | @go _ t' r hg =>
      refine Or.inl ⟨rfl, ?_⟩
      rw [tasks_proceed ht r t']
      rcases Progress.cases_of_goes hg with ⟨stage', hs, rfl⟩ | ⟨closed, hs, rfl⟩
      · exact Or.inl ⟨stage', hs, rfl⟩
      · exact Or.inr ⟨closed, hs, rfl⟩
    | @expire _ t' r hg =>
      refine Or.inr (Or.inl ⟨rfl, ?_⟩)
      rw [tasks_proceed ht r t']
      cases Task.lapses_of_expire? hg with
      | sweep hs => exact ⟨_, hs, rfl⟩
    | refuse hg =>
      obtain ⟨-, -, metadata, ⟨h, -⟩ | ⟨c, h, -⟩⟩ := Task.of_refuse? hg <;> cases h
    | @detour _ t' way hg =>
      obtain ⟨_, stage', hs, ⟨hsame, rfl⟩ | ⟨_, hsame, -⟩⟩ := Task.of_detour? hg <;> cases hsame
      exact Or.inr (Or.inr (Or.inl ⟨way, stage', rfl, hs, tasks_proceed ht _ _⟩))
  · obtain ⟨t', ht', ⟨hp', -⟩ | ⟨-, hlike⟩⟩ := task_of_step? h ht
    · exact absurd hp' hp
    · rcases hlike with rfl | ⟨stage, calledOff, hne, -⟩
      · exact Or.inr (Or.inr (Or.inr ⟨hp, ht'⟩))
      · cases hne

/-- A sweep looks at nobody in an event that is not its own. -/
theorem visit?_of_ne {q : Nat} {x : Engine ρ × Event ρ} (h : x.2 ≠ .go q) : visit? q x = none := by
  cases hv : visit? q x with
  | none => rfl
  | some v => exact absurd (visit?_eq_some hv).1 h

section Stepping

variable {ids : Nat → String} {q : Nat} {past pass : List (Engine ρ × Event ρ)} {seats : List Nat}
  {e e' : Engine ρ} {event : Event ρ}

theorem condemns_of_task {stage : Sweep} {k : Nat} (htask : e.tasks[q]? = some (.sweep stage)) :
    e.condemns q k = ((stage.change e.registry).closed? == some k) := by
  simp [condemns, change_of_go, partAt, htask, Task.part, Part.change]

/-- A verdict is one step of the tally, if both looks fall together. -/
theorem Tally.judge {k : Nat} {rest : List Nat} {closed : List String} {stage' : Sweep}
    {r' : Registry ρ} (ht : Tally ids q past seats pass (k :: rest) closed [])
    (htask : e.tasks[q]? = some (.sweep (.judge (k :: rest) closed)))
    (hs : (Sweep.judge (k :: rest) closed).step e.registry = .next r' stage') :
    Tallied ids q past seats (pass ++ [(e, .go q)]) (.sweep stage') := by
  have hvisit : visit? q (e, .go q) = some (k, e) := by
    simp [visit?, partAt, htask, Task.part]
  have hcondemns := condemns_of_task (k := k) htask
  cases Sweep.steps_of_step hs with
  | vacant hsession =>
    exact ht.look hvisit (by
      simp [hcondemns, Sweep.change, Registry.condemns, hsession, Change.closed?])
  | spared hsession hdue =>
    exact ht.look hvisit (by
      simp [hcondemns, Sweep.change, Registry.condemns, hsession, hdue, Change.closed?])
  | condemned hsession hdue =>
    exact ⟨e, ht.condemn hvisit (by
      simp [hcondemns, Sweep.change, Registry.condemns, hsession, hdue, Change.closed?])⟩

/-- It is one also if they do not. -/
theorem Tally.weigh {k : Nat} {rest : List Nat} {closed : List String} {stage' : Sweep}
    {r' : Registry ρ} (ht : Tally ids q past seats pass (k :: rest) closed [])
    (htask : e.tasks[q]? = some (.sweep (.weigh k rest closed)))
    (hs : (Sweep.weigh k rest closed).step e.registry = .next r' stage') :
    Tallied ids q past seats (pass ++ [(e, .go q)]) (.sweep stage') := by
  have hvisit : visit? q (e, .go q) = some (k, e) := by
    simp [visit?, partAt, htask, Task.part]
  have hcondemns := condemns_of_task (k := k) htask
  cases Sweep.steps_of_step hs with
  | vanished hsession =>
    exact ht.look hvisit (by
      simp [hcondemns, Sweep.change, Registry.convicts, hsession, Change.closed?])
  | acquitted hsession hdue =>
    exact ht.look hvisit (by
      simp [hcondemns, Sweep.change, Registry.convicts, hsession, hdue, Change.closed?])
  | convicted hsession hdue =>
    exact ⟨e, ht.condemn hvisit (by
      simp [hcondemns, Sweep.change, Registry.convicts, hsession, hdue, Change.closed?])⟩

/-- The end of a release is another. -/
theorem Tally.seenOff {k : Nat} {moment : Engine ρ} {rest : List Nat} {closed : List String}
    {stage : Release} {stage' : Sweep}
    (ht : Tally ids q past seats pass rest closed [(k, moment)])
    (htask : e.tasks[q]? = some (.sweep (.release k stage rest closed)))
    (h : e.step? (.go q) = some e') (hb : Books k (past ++ pass) e) (ho : Orderly e)
    (hids : e.registry.ids = ids)
    (hs : (Sweep.release k stage rest closed).step e.registry = .next e'.registry stage') :
    Tallied ids q past seats (pass ++ [(e, .go q)]) (.sweep stage') := by
  have hpart : e.partAt q = .sweep (.release k stage rest closed) := by
    simp [partAt, htask, Task.part]
  have hvisit : visit? q (e, .go q) = none := by simp [visit?, hpart]
  obtain ⟨s, hsession, -⟩ : stage.Knows e.registry k := by
    have := ho.informed q
    rwa [hpart] at this
  obtain ⟨s', hs', ha'⟩ := session_of_step? h hsession
  generalize hafter : e'.registry = r' at hs hs'
  cases Sweep.steps_of_step hs with
  | releases _ => exact ⟨moment, ht.concat hvisit⟩
  | lost _ hnone =>
    rw [hs'] at hnone
    cases hnone
  | released hstep hsome =>
    rw [hs'] at hsome
    cases hsome
    obtain rfl := Release.forget_of_done hsession hstep
    have hforget : e.change (.go q) = .forget (ids k) := by
      rw [change_of_go, hpart, ← hids, ← ho.named k s hsession]
      simp [Part.change, Sweep.change, Release.change, hsession]
    have hpaid : (e.partAt q).hold k = .paid := by
      rw [hpart]
      simp [Part.hold, Release.hold]
    have ha : attempts k (past ++ (pass ++ [(e, .go q)])) ≠ [] := by
      rw [← List.append_assoc, attempts_concat]
      exact List.append_ne_nil_of_left_ne_nil ((hb.account.of_some hsession).paid q hpaid).2 _
    have hid : s'.id = ids k := by rw [ha'.id, ho.named k s hsession, hids]
    rw [hid]
    exact ht.settle hvisit hforget ha

/-- **Every event keeps the tally.** -/
theorem Tallied.step {t : Task} (hT : Tallied ids q past seats pass t)
    (htask : e.tasks[q]? = some t) (h : e.step? event = some e')
    (hb : ∀ k, Books k (past ++ pass) e) (ho : Orderly e) (hids : e.registry.ids = ids) :
    ∃ t', e'.tasks[q]? = some t' ∧ Tallied ids q past seats (pass ++ [(e, event)]) t' := by
  -- whoever does not look at a session leaves the tally as it is
  have hkeep : ∀ {t}, Tallied ids q past seats pass t → visit? q (e, event) = none →
      Tallied ids q past seats (pass ++ [(e, event)]) t := by
    intro t hT hv
    unfold Tallied at hT
    split at hT
    · exact hT.concat hv
    · exact hT.concat hv
    · obtain ⟨moment, hT⟩ := hT
      exact ⟨moment, hT.concat hv⟩
    · exact hT.concat hv
    · exact hT.elim
  cases t with
  | sweep stage =>
    rcases sweep_of_step? htask h with ⟨rfl, hgo⟩ | ⟨rfl, stage', hs, ht'⟩ |
      ⟨way, stage', rfl, hs, ht'⟩ | ⟨hp, ht'⟩
    · cases stage with
      | scan => exact hT.elim
      | judge rest closed =>
        rcases hgo with ⟨stage', hs, ht'⟩ | ⟨ids', hs, ht'⟩
        · cases rest with
          | nil => cases Sweep.steps_of_step hs
          | cons k rest => exact ⟨_, ht', Tally.judge hT htask hs⟩
        · generalize e'.registry = r' at hs
          cases Sweep.steps_of_step hs with
          | finished closed =>
            have hv : visit? q (e, .go q) = none := by simp [visit?, partAt, htask, Task.part]
            exact ⟨_, ht', Tally.concat hT hv⟩
      | weigh k rest closed =>
        rcases hgo with ⟨stage', hs, ht'⟩ | ⟨ids', hs, -⟩
        · exact ⟨_, ht', Tally.weigh hT htask hs⟩
        · cases Sweep.steps_of_step hs
      | release k stage rest closed =>
        obtain ⟨moment, hT⟩ := hT
        rcases hgo with ⟨stage', hs, ht'⟩ | ⟨ids', hs, -⟩
        · exact ⟨_, ht', hT.seenOff htask h (hb k) ho hids hs⟩
        · cases Sweep.steps_of_step hs
    · have hv : visit? q (e, .expire q) = none := visit?_of_ne (by rintro ⟨⟩)
      cases stage with
      | release k stage rest closed =>
        obtain ⟨stage₁, -, rfl⟩ := Option.map_eq_some_iff.mp hs
        exact ⟨_, ht', hkeep hT hv⟩
      | _ => cases hs
    · have hv : visit? q (e, .detour q way) = none := visit?_of_ne (by rintro ⟨⟩)
      cases Sweep.detours_of_detour? hs with
      | ordered _ => exact hT.elim
      | glanced _ _ _ _ _ => exact ⟨_, ht', Tally.concat hT hv⟩
    · exact ⟨_, ht', hkeep hT (visit?_of_ne (by rintro rfl; exact hp rfl))⟩
  | finished a =>
    obtain ⟨t', ht', ⟨-, hturn⟩ | ⟨hp, hlike⟩⟩ := task_of_step? h htask
    · exact absurd hturn not_turn_of_finished
    · rcases hlike with rfl | ⟨stage, calledOff, hne, -⟩
      · exact ⟨_, ht', hkeep hT (visit?_of_ne (by rintro rfl; exact hp rfl))⟩
      · cases hne
  | _ => exact hT.elim

end Stepping

/-! ## 3. A sweep under way -/

/-- What is kept while a sweep is under way: `past` is what happened before it began. -/
structure UnderWay (ids : Nat → String) (q : Nat) (past : List (Engine ρ × Event ρ))
    (seats : List Nat) (pass : List (Engine ρ × Event ρ)) (e : Engine ρ) : Prop where
  books : ∀ k, Books k (past ++ pass) e
  orderly : Orderly e
  ids_eq : e.registry.ids = ids
  tally : ∃ t, e.tasks[q]? = some t ∧ Tallied ids q past seats pass t

theorem UnderWay.step {ids : Nat → String} {q : Nat} {past : List (Engine ρ × Event ρ)}
    {seats : List Nat} {pass : List (Engine ρ × Event ρ)} {e e' : Engine ρ} {event : Event ρ}
    (hu : UnderWay ids q past seats pass e) (h : e.step? event = some e') :
    UnderWay ids q past seats (pass ++ [(e, event)]) e' where
  books k := by
    rw [← List.append_assoc]
    exact (hu.books k).step h
  orderly := hu.orderly.step h
  ids_eq := (settings_of_step? h).2.trans hu.ids_eq
  tally := by
    obtain ⟨t, ht, hT⟩ := hu.tally
    exact hT.step ht h hu.books hu.orderly hu.ids_eq

/-- The sweep at a place looks at the list, and settles on an order of the sessions. -/
def Surveys (q : Nat) (event : Event ρ) : Prop :=
  event = .go q ∨ ∃ seats, event = .detour q (.order seats)

section Sweeping

variable {past : List (Engine ρ × Event ρ)} {q : Nat} {e₀ e₁ e : Engine ρ} {first : Event ρ}
  {later : List (Event ρ)}

/-- A look at the list changes nothing, and finds the sessions that are open. -/
theorem judge_of_surveys (ht : e₀.tasks[q]? = some (.sweep .scan)) (hf : Surveys q first)
    (h : e₀.step? first = some e₁) : e₀.change first = .nothing ∧ visit? q (e₀, first) = none ∧
      ∃ seats, List.Perm seats e₀.registry.liveSeats ∧
        e₁.tasks[q]? = some (.sweep (.judge seats [])) := by
  have hpart : e₀.partAt q = .sweep .scan := by simp [partAt, ht, Task.part]
  rcases hf with rfl | ⟨seats, rfl⟩
  · refine ⟨by simp [change_of_go, hpart, Part.change, Sweep.change], by simp [visit?, hpart],
      e₀.registry.liveSeats, .refl _, ?_⟩
    simp only [step?, go?, ht, Sweep.step, follow?, Option.some.injEq] at h
    rw [← h]
    exact tasks_proceed ht _ _
  · refine ⟨rfl, rfl, seats, ?_⟩
    rcases sweep_of_step? ht h with ⟨he, -⟩ | ⟨he, -⟩ | ⟨way, stage', he, hs, ht'⟩ | ⟨hp, -⟩
    · cases he
    · cases he
    · cases he
      cases Sweep.detours_of_detour? hs with
      | ordered hperm => exact ⟨hperm, ht'⟩
    · exact absurd rfl hp

/-- A sweep begins with a look at the list. -/
theorem underWay_of_scan (hb : ∀ k, Books k past e₀) (ho : Orderly e₀)
    (ht : e₀.tasks[q]? = some (.sweep .scan)) (hf : Surveys q first)
    (h : e₀.step? first = some e₁) : ∃ seats, List.Perm seats e₀.registry.liveSeats ∧
      UnderWay e₀.registry.ids q past seats [(e₀, first)] e₁ := by
  obtain ⟨-, hvisit, seats, hperm, ht'⟩ := judge_of_surveys ht hf h
  refine ⟨seats, hperm, fun k => (hb k).step h, ho.step h, (settings_of_step? h).2, _, ht', ?_⟩
  exact ⟨by simp [visits, hvisit], [], by simp [condemned, visits, hvisit], rfl, by rintro v ⟨⟩⟩

/-- **What is kept holds at every moment of a sweep.** -/
theorem UnderWay.run {ids : Nat → String} {seats : List Nat} {pass : List (Engine ρ × Event ρ)}
    (hu : UnderWay ids q past seats pass e₁) (hrun : e₁.run? later = some e) :
    UnderWay ids q past seats (pass ++ e₁.trace later) e :=
  run?_induction (fun _ _ _ _ hu h => hu.step h) hrun hu

end Sweeping

end Engine
end Workbench
