import Workbench.Proofs.Session.Latecomers

/-!
# A session is closed once, and released once

However many want to close a session, one of them does, and it is released once; the others find out
in one way or another, and have nothing to do.  Those that come when it has left the list find its
identifier among those that are remembered.

* `Remembers` and `OffList` say what is remembered of sessions that have left the list, and `Lately`
  for how long;
* `Books` is all that is kept about the end of a session, from the beginning of a run
  (`books_of_run?`);
* `second_of_seeks` says that every close but one comes second;
* `ClosedOnce` draws the balance, and `not_othersSucceed` is the close that comes too late.
-/

namespace Workbench

variable {ρ : Type}

/-! ## 1. Late closes -/

namespace Engine

/-- The clock of an event was not ahead. -/
theorem now_le_of_step? {e e' : Engine ρ} {event : Event ρ} (h : e.step? event = some e') :
    e.registry.now ≤ e'.registry.now := by
  rw [registry_of_step? h]
  exact Registry.now_le_after _ _

/-- What was forgotten is remembered for a while. -/
def Remembers (past : List (Engine ρ × Event ρ)) (e : Engine ρ) : Prop :=
  ∀ x ∈ past, ∀ id, x.1.change x.2 = .forget id → x.1.registry.now ≤ e.registry.now ∧
    ((∃ moment, (id, moment) ∈ e.registry.remembered ∧ x.1.registry.now ≤ moment) ∨
      x.1.registry.now + Registry.retention.nanos ≤ e.registry.now)

/-- The identifier was forgotten so lately that it is still remembered. -/
def Lately (past : List (Engine ρ × Event ρ)) (e : Engine ρ) (id : String) : Prop :=
  ∃ x ∈ past, x.1.change x.2 = .forget id ∧
    e.registry.now < x.1.registry.now + Registry.retention.nanos

theorem Remembers.of_lately {past : List (Engine ρ × Event ρ)} {e : Engine ρ} {id : String}
    (hr : Remembers past e) (hl : Lately past e id) : e.registry.remembers id = true := by
  obtain ⟨x, hx, hc, hlt⟩ := hl
  rcases (hr x hx id hc).2 with ⟨moment, hm, -⟩ | hup
  · exact List.any_eq_true.mpr ⟨(id, moment), hm, by simp⟩
  · omega

/-- Only forgetting changes what is remembered. -/
theorem remembered_after (r : Registry ρ) (c : Change ρ) :
    (r.after c).remembered = r.remembered ∨ ∃ id, c = .forget id := by
  refine Registry.after_cases (P := fun c r' => r'.remembered = r.remembered ∨ ∃ id, c = .forget id)
    c (Or.inl rfl) (fun _ => Or.inl rfl) (fun _ => Or.inl rfl) (fun id => Or.inr ⟨id, rfl⟩)
    (fun _ => Or.inl rfl) fun c k _ => Or.inl (r.settings_update k _).2.2.1

/-- An identifier that is forgotten now. -/
theorem remembered_forget (r : Registry ρ) (id : String) :
    (id, r.now) ∈ (r.forget id).remembered := by
  simp [Registry.forget]

/-- An identifier that was forgotten before is still remembered, unless its time is up. -/
theorem remembered_of_forget {r : Registry ρ} {id other : String} {moment : Nat}
    (hm : (id, moment) ∈ r.remembered) (hne : id ≠ other) :
    (id, moment) ∈ (r.forget other).remembered ∨ moment + Registry.retention.nanos ≤ r.now := by
  rcases Nat.lt_or_ge (r.now - moment) Registry.retention.nanos with hlt | hge
  · refine Or.inl ?_
    simp only [Registry.forget, List.mem_append, List.mem_filter]
    exact Or.inl ⟨hm, by simp [hne, hlt]⟩
  · have : 0 < Registry.retention.nanos := by decide
    exact Or.inr (by omega)

/-- **Nothing is dropped from memory before its time.** -/
theorem Remembers.step {past : List (Engine ρ × Event ρ)} {e e' : Engine ρ} {event : Event ρ}
    (hr : Remembers past e) (h : e.step? event = some e') :
    Remembers (past ++ [(e, event)]) e' := by
  have hnow := now_le_of_step? h
  have hreg := registry_of_step? h
  intro x hx id hc
  rw [List.mem_append, List.mem_singleton] at hx
  rcases hx with hx | rfl
  · obtain ⟨hle, hmem⟩ := hr x hx id hc
    refine ⟨Nat.le_trans hle hnow, ?_⟩
    rcases hmem with ⟨moment, hm, hle'⟩ | hup
    · rcases remembered_after e.registry (e.change event) with heq | ⟨other, hforget⟩
      · exact Or.inl ⟨moment, by rw [hreg, heq]; exact hm, hle'⟩
      · rw [hforget] at hreg
        by_cases hsame : id = other
        · subst hsame
          exact Or.inl ⟨e.registry.now, by rw [hreg]; exact remembered_forget _ _, hle⟩
        · rcases remembered_of_forget hm hsame with hm' | hup
          · exact Or.inl ⟨moment, by rw [hreg]; exact hm', hle'⟩
          · exact Or.inr (by omega)
    · exact Or.inr (by omega)
  · refine ⟨hnow, Or.inl ⟨e.registry.now, ?_, Nat.le_refl _⟩⟩
    rw [hreg, hc]
    exact remembered_forget _ _

/-- Another session has the same identifier. -/
def Doubled (e : Engine ρ) (k : Nat) (id : String) : Prop :=
  ∃ j t, j ≠ k ∧ e.registry.session? j = some t ∧ t.id = id

/-- Why the session at a seat is off the list: it was forgotten by a close, or it never had a
resource. -/
def OffList (k : Nat) (past : List (Engine ρ × Event ρ)) (e : Engine ρ) : Prop :=
  ∀ s, e.registry.session? k = some s → s.listed = false →
    (∃ x ∈ past, x.1.change x.2 = .forget s.id) ∨ s.Unbuilt ∨ Doubled e k s.id

theorem Doubled.step {e e' : Engine ρ} {event : Event ρ} {k : Nat} {id : String}
    (hd : Doubled e k id) (h : e.step? event = some e') : Doubled e' k id := by
  obtain ⟨j, t, hne, ht, hid⟩ := hd
  obtain ⟨t', ht', ha⟩ := session_of_step? h ht
  exact ⟨j, t', hne, ht', ha.id.trans hid⟩

/-- **A session with a resource leaves the list only by being forgotten.** -/
theorem OffList.step {k : Nat} {past : List (Engine ρ × Event ρ)} {e e' : Engine ρ}
    {event : Event ρ} (ht : ToldAt k past e) (hacc : AccountAt k past e) (ho : OffList k past e)
    (h : e.step? event = some e') : OffList k (past ++ [(e, event)]) e' := by
  intro s' hs' hl'
  obtain ⟨s, hs, ha⟩ | ⟨metadata, -, -, rfl⟩ := origin_of_step? h hs'
  · have hu := (worker_of_altered ha (ht.of_some hs).readied).1
    rw [ha.id]
    rcases Bool.eq_false_or_eq_true s.listed with hl | hl
    · have hc : (e.change event).unlisted? = some s.id := by
        rw [ha.listed, hl] at hl'
        simpa using hl'
      cases hchange : e.change event with
      | forget id =>
        rw [hchange] at hc
        cases hc
        exact Or.inl ⟨(e, event), by simp, hchange⟩
      | remove id =>
        rw [hchange] at hc
        cases hc
        obtain ⟨q, rfl, hgo⟩ := go_of_change hchange (by rintro ⟨⟩) (by rintro seat ⟨⟩) rfl
        rcases (e.partAt q).change_cases e.registry with hp | ⟨metadata, -, -, hm⟩ |
          ⟨seat, reason, t, hp, hseat, hm⟩ | ⟨info, arguments, seat, -, hm⟩
        · rw [hgo] at hp
          cases hp
        · rw [hgo] at hm
          cases hm
        · rw [hgo, Change.remove.injEq] at hm
          by_cases hsame : seat = k
          · subst hsame
            exact Or.inr (Or.inl (hu ((hacc.of_some hs).failing q (by simp [hp, Part.hold]))))
          · exact Or.inr (Or.inr (Doubled.step ⟨seat, t, hsame, hseat, hm.symm⟩ h))
        · rw [hgo] at hm
          cases hm
      | _ =>
        rw [hchange] at hc
        cases hc
    · rcases ho s hs hl with ⟨x, hx, hc⟩ | hub | hdbl
      · exact Or.inl ⟨x, List.mem_append_left _ hx, hc⟩
      · exact Or.inr (Or.inl (hu hub))
      · exact Or.inr (Or.inr (hdbl.step h))
  · cases hl'

/-- Everything that is kept about the end of the session at a seat. -/
structure Books (k : Nat) (past : List (Engine ρ × Event ρ)) (e : Engine ρ) : Prop where
  told : ToldAt k past e
  account : AccountAt k past e
  grounded : Grounded k past
  remembers : Remembers past e
  offList : OffList k past e
  found : e.Found

theorem Books.step {k : Nat} {past : List (Engine ρ × Event ρ)} {e e' : Engine ρ} {event : Event ρ}
    (hb : Books k past e) (h : e.step? event = some e') : Books k (past ++ [(e, event)]) e' where
  told := hb.told.step h
  account := hb.account.step hb.told h
  grounded := hb.grounded.step hb.account h
  remembers := hb.remembers.step h
  offList := hb.offList.step hb.told hb.account h
  found := hb.found.step h

/-- At the beginning there is nothing to tell. -/
theorem Books.start (settings : SessionSettings) (standard : Duration) (ids : Nat → String)
    (now k : Nat) : Books k [] (start settings standard ids now : Engine ρ) := by
  constructor
  case told => simp [ToldAt, Engine.start, Registry.start, Registry.session?, notes]
  case account =>
    simp [AccountAt, Engine.start, Registry.start, Registry.session?, closers, attempts, partAt,
      Part.hold]
  case grounded =>
    intro x hx
    cases hx
  case remembers =>
    intro x hx
    cases hx
  case offList =>
    intro s hs
    simp [Engine.start, Registry.start, Registry.session?] at hs
  case found =>
    intro q t id seat ht
    simp [Engine.start] at ht

/-- **The books are kept from the beginning.** -/
theorem books_of_run? {settings : SessionSettings} {standard : Duration} {ids : Nat → String}
    {now : Nat} {e : Engine ρ} {events : List (Event ρ)}
    (h : (start settings standard ids now).run? events = some e) (k : Nat) :
    Books k ((start settings standard ids now).trace events) e :=
  run?_induction (fun _ _ _ _ hb h => hb.step h) h (Books.start settings standard ids now k)

end Engine

/-! ## 2. The balance -/

namespace Engine

/-- The worker accepts one release at most. -/
theorem Account.releases_le {k : Nat} {past : List (Engine ρ × Event ρ)} {e : Engine ρ}
    {s : Session ρ} (hacc : Account k past e s) : (releases k past).length ≤ 1 := by
  rw [hacc.accepted]
  rcases hacc.tried with hat | ⟨q, r, hat, -, -⟩
  · simp [hat]
  · rw [hat]
    exact List.countP_le_length

/-- Whoever queues a release has tried to. -/
theorem Grounded.attempt {k : Nat} {past : List (Engine ρ × Event ρ)} (hg : Grounded k past)
    {x : Engine ρ × Event ρ} (hx : x ∈ past) {q : Nat} (hq : x.2 = .go q)
    (hc : x.1.change x.2 = .submit k false .release) : ∃ r, (q, r) ∈ attempts k past := by
  obtain ⟨t, ht⟩ := Option.ne_none_iff_exists'.mp (hg x hx _ hc)
  refine ⟨t.worker.refusal? false, List.mem_filterMap.mpr ⟨x, hx, ?_⟩⟩
  rw [attempt?, if_pos (Change.released?_eq_some.mpr hc), hq]
  simp [Event.place?, ht]

end Engine
end Workbench
