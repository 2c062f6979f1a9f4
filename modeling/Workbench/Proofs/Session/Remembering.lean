import Workbench.Proofs.Session.Closing
import Workbench.Proofs.Session.Stopping
import Workbench.Proofs.Session.Turns

/-!
# What a close of a known session answers

A close looks for its session on the list first, and among those that were closed lately after
that.  The session may leave the list between the two, and other sessions that are closed meanwhile
may push it out of memory.

* `Hands` is a start that answers with the identifier of its session; it does so only when the
  construction of the resource has gone well, and `Reports.step` says that this lasts;
* `Missed` says that a close that comes behind the start, and finds nothing on the list, comes
  behind the removal of the session;
* `AnswersCloses` puts together what is answered to closes and terminations.
-/

namespace Workbench

variable {ρ : Type}

/-! ## 1. What is handed out -/

namespace Engine

/-- A start answers with the identifier of its session. -/
def Hands (id : String) (x : Engine ρ × Event ρ) : Prop :=
  ∃ q stage r info, x.2 = .go q ∧ x.1.partAt q = .create stage ∧
    stage.step x.1.registry = .done r (.ok info) ∧ info.id = id

/-- The construction for a session with the identifier has come to its end, or not, as the worker
reports it. -/
def Reports (e : Engine ρ) (id : String) (r : Readiness) : Prop :=
  ∃ k s, e.registry.session? k = some s ∧ s.id = id ∧ s.worker.readiness = r

/-- The start of a session is answered when its resource is built. -/
theorem reports_of_hands {e : Engine ρ} {event : Event ρ} {id : String}
    (h : Hands id (e, event)) : Reports e id .ready := by
  obtain ⟨q, stage, r, info, -, -, hs, hid⟩ := h
  cases Creation.steps_of_step hs with
  | ready hsession hready => exact ⟨_, _, hsession, hid, hready⟩

/-- **How a construction has ended does not change any more.** -/
theorem Reports.step {past : List (Engine ρ × Event ρ)} {e e' : Engine ρ} {event : Event ρ}
    {id : String} {r : Readiness} (hf : Reports e id r) (hr : r ≠ .building)
    (ht : ∀ k, ToldAt k past e) (h : e.step? event = some e') : Reports e' id r := by
  obtain ⟨k, s, hs, hid, rfl⟩ := hf
  obtain ⟨s', hs', ha⟩ := session_of_step? h hs
  refine ⟨k, s', hs', ha.id.trans hid, ?_⟩
  cases hact : (e.change event).actionAt? k with
  | none => rw [ha.rests hact]
  | some a => exact ((ht k).of_some hs).readied.readiness_eq (ha.acts a hact) hr

/-- Where the identifiers differ, there is one report for each. -/
theorem Reports.eq {e : Engine ρ} {id : String} {r r' : Readiness} (h : Reports e id r)
    (h' : Reports e id r') (ho : Orderly e) : r = r' := by
  obtain ⟨k, s, hs, hid, rfl⟩ := h
  obtain ⟨k', s', hs', hid', rfl⟩ := h'
  obtain rfl := ho.named.seat_eq ho.distinct hs hs' (hid.trans hid'.symm)
  rw [hs] at hs'
  cases hs'
  rfl

/-- The sessions whose identifiers were handed out have their resource. -/
def Handed (past : List (Engine ρ × Event ρ)) (e : Engine ρ) : Prop :=
  ∀ x ∈ past, ∀ id, Hands id x → Reports e id .ready

theorem Handed.step {past : List (Engine ρ × Event ρ)} {e e' : Engine ρ} {event : Event ρ}
    (hh : Handed past e) (ht : ∀ k, ToldAt k past e) (h : e.step? event = some e') :
    Handed (past ++ [(e, event)]) e' := by
  intro x hx id hid
  rw [List.mem_append, List.mem_singleton] at hx
  rcases hx with hx | rfl
  · exact (hh x hx id hid).step (by rintro ⟨⟩) ht h
  · exact (reports_of_hands hid).step (by rintro ⟨⟩) ht h

/-- The construction for a session with the identifier has failed. -/
def Failed (e : Engine ρ) (id : String) : Prop := ∃ reason, Reports e id (.failed reason)

theorem Failed.step {past : List (Engine ρ × Event ρ)} {e e' : Engine ρ} {event : Event ρ}
    {id : String} (hf : Failed e id) (ht : ∀ k, ToldAt k past e) (h : e.step? event = some e') :
    Failed e' id := by
  obtain ⟨reason, hr⟩ := hf
  exact ⟨reason, hr.step (by rintro ⟨⟩) ht h⟩

/-- A session with the identifier was started. -/
def Known (e : Engine ρ) (id : String) : Prop := ∃ k s, e.registry.session? k = some s ∧ s.id = id

theorem Known.step {e e' : Engine ρ} {event : Event ρ} {id : String} (hk : Known e id)
    (h : e.step? event = some e') : Known e' id := by
  obtain ⟨k, s, hs, hid⟩ := hk
  obtain ⟨s', hs', ha⟩ := session_of_step? h hs
  exact ⟨k, s', hs', ha.id.trans hid⟩

end Engine

/-! ## 2. Closes that find nothing on the list -/

section Missing

variable {r r' : Registry ρ} {id : String}

/-- A close looks back when its session is not on the list. -/
theorem Closing.unlisted_of_step {stage stage' : Closing}
    (h : stage.step r id = .next r' stage') (hb : (Part.close stage').looksBack = true) :
    r.seat? id = none := by
  cases steps_of_step h with
  | missed hk => exact hk
  | _ => cases hb

theorem Termination.unlisted_of_step {stage stage' : Termination}
    (h : stage.step r id = .next r' stage') (hb : (Part.terminate id stage').looksBack = true) :
    r.seat? id = none := by
  cases steps_of_step h with
  | missed hk => exact hk
  | _ => cases hb

theorem Part.Initial.looksBack {p : Part} (h : p.Initial) : p.looksBack = false := by
  cases h <;> rfl

/-- **Who comes to look back has not found its session on the list.** -/
theorem Task.unlisted_of_go? {standard : Duration} {t t' : Task}
    (h : t.go? r standard = some (r', t')) (hid : t'.seeks? = some id)
    (hb : t'.part.looksBack = true) : r.seat? id = none := by
  rcases seeks_of_go? h hid with hi | ⟨-, ⟨s, s', -, hp', hs⟩ | ⟨s, s', -, hp', hs⟩⟩
  · rw [hi.looksBack] at hb
    cases hb
  · rw [hp'] at hb
    exact Closing.unlisted_of_step hs hb
  · rw [hp'] at hb
    exact Termination.unlisted_of_step hs hb

/-- Nobody gives up waiting to look back. -/
theorem Task.looksBack_of_expire? {t t' : Task} (h : t.expire? r = some (r', t'))
    (hid : t'.seeks? = some id) : t'.part.looksBack = false := by
  have hclose : ∀ {stage stage' : Closing}, stage.expire? = some stage' →
      (Part.close stage').looksBack = false := by
    intro stage stage' hs
    cases stage with
    | release seat stage =>
      obtain ⟨stage₁, -, rfl⟩ := Option.map_eq_some_iff.mp hs
      rfl
    | _ => cases hs
  cases lapses_of_expire? h with
  | close hs => exact hclose hs
  | callClose hs => exact hclose hs
  | _ => cases hid

end Missing

namespace Engine

/-- **A session that is not found on the list was forgotten**, or its start has failed. -/
theorem forgotten_of_unlisted {past : List (Engine ρ × Event ρ)} {e : Engine ρ} {id : String}
    (hoff : ∀ k, OffList k past e) (ho : Orderly e) (hk : Known e id)
    (hu : e.registry.seat? id = none) :
    (∃ x ∈ past, x.1.change x.2 = .forget id) ∨ Failed e id := by
  obtain ⟨k, s, hs, rfl⟩ := hk
  have hl : s.listed = false := by
    have := Registry.seat?_eq_none.mp hu k s hs
    simpa [Registry.holds] using this
  rcases hoff k s hs hl with hx | ⟨reason, hr⟩ | ⟨j, t, hne, ht, hid⟩
  · exact Or.inl hx
  · exact Or.inr ⟨reason, k, s, hs, rfl, hr⟩
  · exact absurd (ho.named.seat_eq ho.distinct ht hs hid) hne

/-- Whoever has come in after a session was started, and looks back for it, does so because it was
forgotten, or because its start has failed. -/
def Missed (past : List (Engine ρ × Event ρ)) (e : Engine ρ) : Prop :=
  ∀ x ∈ past, ∀ id, Known x.1 id → Known e id ∧
    ∀ q t, x.1.tasks.length ≤ q → e.tasks[q]? = some t → t.seeks? = some id →
      t.part.looksBack = true → (∃ y ∈ past, y.1.change y.2 = .forget id) ∨ Failed e id

/-- **Every event keeps that**: who finds nothing on the list comes behind the removal. -/
theorem Missed.step {past : List (Engine ρ × Event ρ)} {e e' : Engine ρ} {event : Event ρ}
    (hm : Missed past e) (ht : ∀ k, ToldAt k past e) (hoff : ∀ k, OffList k past e)
    (ho : Orderly e) (h : e.step? event = some e') : Missed (past ++ [(e, event)]) e' := by
  -- a task that has just come in has still to look
  have hfresh : ∀ {q : Nat} {t' : Task}, e'.tasks[q]? = some t' → t'.part.looksBack = true →
      e.tasks[q]? ≠ none := by
    intro q t' ht' hback hnone
    rw [(fresh_of_step? h hnone ht').part.looksBack] at hback
    cases hback
  intro x hx id hknown
  rw [List.mem_append, List.mem_singleton] at hx
  rcases hx with hx | rfl
  · obtain ⟨hk, hlook⟩ := hm x hx id hknown
    refine ⟨hk.step h, fun q t' hq ht' hseek hback => ?_⟩
    have hkeep : (∃ y ∈ past, y.1.change y.2 = .forget id) ∨ Failed e id →
        (∃ y ∈ past ++ [(e, event)], y.1.change y.2 = .forget id) ∨ Failed e' id := by
      rintro (⟨y, hy, hc⟩ | hf)
      · exact Or.inl ⟨y, List.mem_append_left _ hy, hc⟩
      · exact Or.inr (hf.step ht h)
    obtain ⟨t, htask⟩ := Option.ne_none_iff_exists'.mp (hfresh ht' hback)
    obtain ⟨t₁, ht₁, ⟨-, hturn⟩ | ⟨-, hlike⟩⟩ := task_of_step? h htask <;>
      rw [ht'] at ht₁ <;> cases ht₁
    · generalize e.change event = c at hturn
      cases hturn with
      | go hg =>
        exact hkeep (forgotten_of_unlisted hoff ho hk (Task.unlisted_of_go? hg hseek hback))
      | expire hg =>
        rw [Task.looksBack_of_expire? hg hseek] at hback
        cases hback
      | callOff => cases hseek
      | cutOff => cases hseek
      | refuse hg =>
        obtain ⟨-, -, metadata, ⟨-, rfl⟩ | ⟨c, -, rfl⟩⟩ := Task.of_refuse? hg <;> cases hseek
      | detour hg =>
        obtain ⟨_, _, -, ⟨-, rfl⟩ | ⟨_, -, rfl⟩⟩ := Task.of_detour? hg <;> cases hseek
    · rcases hlike with rfl | ⟨stage, calledOff, -, rfl⟩
      · exact hkeep (hlook q _ hq htask hseek hback)
      · cases hseek
  · refine ⟨Known.step hknown h, fun q t' hq ht' hseek hback => ?_⟩
    exact absurd (List.getElem?_eq_none hq) (hfresh ht' hback)

end Engine

/-! ## 3. The answers -/

/-- A close that has not found its session is answered from memory. -/
theorem Closing.late_of_done {r r' : Registry ρ} {id : String} {stage : Closing}
    {x : Except SessionError Unit} (h : stage.step r id = .done r' x) :
    (∃ k, stage.seat? = some k) ∨ x = late r id := by
  cases steps_of_step h with
  | remembered hr | unknown hr => exact Or.inr (by simp [late, hr])
  | _ => exact Or.inl ⟨_, rfl⟩

theorem Termination.late_of_done {r r' : Registry ρ} {id : String} {stage : Termination}
    {x : Except SessionError Unit} (h : stage.step r id = .done r' x) :
    (∃ k, stage.seat? = some k) ∨ x = Closing.late r id := by
  cases steps_of_step h with
  | remembered hr | unknown hr => exact Or.inr (by simp [Closing.late, hr])
  | _ => exact Or.inl ⟨_, rfl⟩

/-- **A close is answered from memory**, unless it has found its session. -/
theorem Task.late_of_go? {r r' : Registry ρ} {standard : Duration} {t : Task} {id : String}
    {a : Answer} (h : t.go? r standard = some (r', .finished a)) (hid : t.seeks? = some id) :
    (∃ k, t.found? = some (id, k)) ∨ a.error? = (Answer.closed (Closing.late r id)).error? := by
  rcases goes_of_seeks h hid with
    ⟨s, hp, ⟨s', -, hid', -⟩ | ⟨x, b, hs, hb, ha⟩⟩ |
    ⟨s, hp, ⟨s', -, hid', -⟩ | ⟨x, b, hs, hb, ha⟩⟩
  · cases hid'
  · cases hb
    rcases Closing.late_of_done hs with ⟨k, hk⟩ | rfl
    · exact Or.inl ⟨k, by rw [found?_of_close hid hp, hk]; rfl⟩
    · exact Or.inr ha
  · cases hid'
  · cases hb
    rcases Termination.late_of_done hs with ⟨k, hk⟩ | rfl
    · exact Or.inl ⟨k, by rw [found?_of_terminate hid hp, hk]; rfl⟩
    · exact Or.inr ha

namespace Engine

/-- Nobody is remembered who never was there. -/
def Memorable (e : Engine ρ) : Prop := ∀ id, e.registry.remembers id = true → Known e id

/-- Memory gains what is forgotten, and nothing else. -/
theorem remembers_forget {r : Registry ρ} {id other : String}
    (h : (r.forget other).remembers id = true) : id = other ∨ r.remembers id = true := by
  obtain ⟨⟨x, moment⟩, hx, he⟩ := List.any_eq_true.mp h
  obtain rfl : x = id := by simpa using he
  simp only [Registry.forget, List.mem_append, List.mem_filter, List.mem_singleton] at hx
  rcases hx with ⟨hx, -⟩ | hx
  · exact Or.inr (List.any_eq_true.mpr ⟨_, hx, by simp⟩)
  · cases hx
    exact Or.inl rfl

theorem Memorable.step {e e' : Engine ρ} {event : Event ρ} (hm : Memorable e) (hi : Informed e)
    (h : e.step? event = some e') : Memorable e' := by
  intro id hr
  have hreg := registry_of_step? h
  have hkeep : e.registry.remembers id = true → Known e' id := fun hold => (hm id hold).step h
  rcases remembered_after e.registry (e.change event) with heq | ⟨other, hforget⟩
  · refine hkeep ?_
    unfold Registry.remembers at hr ⊢
    rwa [hreg, heq] at hr
  · rw [hreg, hforget] at hr
    rcases remembers_forget hr with rfl | hold
    · have hu : (e.change event).unlisted? = some id := by rw [hforget]; rfl
      obtain ⟨k, s, hs, hid, -⟩ := hi.unlisted hu
      exact Known.step ⟨k, s, hs, hid⟩ h
    · exact hkeep hold

/-- What is kept to answer closes, from the beginning of a run. -/
structure Recalls (past : List (Engine ρ × Event ρ)) (e : Engine ρ) : Prop where
  books : ∀ k, Books k past e
  orderly : Orderly e
  handed : Handed past e
  missed : Missed past e
  memorable : Memorable e

theorem Recalls.step {past : List (Engine ρ × Event ρ)} {e e' : Engine ρ} {event : Event ρ}
    (hr : Recalls past e) (h : e.step? event = some e') : Recalls (past ++ [(e, event)]) e' where
  books k := (hr.books k).step h
  orderly := hr.orderly.step h
  handed := hr.handed.step (fun k => (hr.books k).told) h
  missed := hr.missed.step (fun k => (hr.books k).told) (fun k => (hr.books k).offList) hr.orderly h
  memorable := hr.memorable.step hr.orderly.informed h

theorem Recalls.start (settings : SessionSettings) (standard : Duration) {ids : Nat → String}
    (now : Nat) (hids : Function.Injective ids) :
    Recalls [] (start settings standard ids now : Engine ρ) where
  books := Books.start settings standard ids now
  orderly := Orderly.start settings standard now hids
  handed := by
    intro x hx
    cases hx
  missed := by
    intro x hx
    cases hx
  memorable := by
    intro id hr
    cases hr

/-- The identifier is in mind: it was not forgotten, or so lately that it is still remembered. -/
def InMind (past : List (Engine ρ × Event ρ)) (e : Engine ρ) (id : String) : Prop :=
  (∃ x ∈ past, x.1.change x.2 = .forget id) → Lately past e id

/-- The identifier is handed out sooner or later: it was already, or it is in some run from here. -/
def HandedOut (past : List (Engine ρ × Event ρ)) (e : Engine ρ) (id : String) : Prop :=
  ∃ later e', e.run? later = some e' ∧ ∃ x ∈ past ++ e.trace later, Hands id x

/-- What is answered to closes and terminations, whatever has happened. -/
structure AnswersCloses (past : List (Engine ρ × Event ρ)) (e : Engine ρ) : Prop where
  /-- Each takes eight turns at most, however the run goes on, and has a turn to take until it is
  answered. -/
  turns : ∀ q t id later e', e.tasks[q]? = some t → t.seeks? = some id → e.run? later = some e' →
    turnsOf q later ≤ 8 ∧
      (e'.answer? q ≠ none ∨ e'.step? (.go q) ≠ none ∨ e'.step? (.expire q) ≠ none)
  /-- None fails that has come in after the session was started, if its identifier is handed out,
  and as long as that is in mind. -/
  known : ∀ x ∈ past, ∀ id q t, Known x.1 id → x.1.tasks.length ≤ q → e.tasks[q]? = some t →
    t.seeks? = some id → HandedOut past e id → InMind past e id → ∀ event e',
    event.place? = some q → e.step? event = some e' → e'.failure? q = none
  /-- Who asks for a session that was never started is told that it is not there. -/
  unknown : ∀ q t id, e.tasks[q]? = some t → t.seeks? = some id → ¬ Known e id →
    ∀ event e', e.step? event = some e' → e'.answer? q ≠ none →
    e'.failure? q = some (SessionError.notFound id).toToolError

/-- A close that is under way has not been answered. -/
theorem answer?_of_seeks {e : Engine ρ} {q : Nat} {t : Task} {id : String}
    (ht : e.tasks[q]? = some t) (hid : t.seeks? = some id) : e.answer? q = none := by
  unfold answer?
  rw [ht]
  cases t with
  | finished a => cases hid
  | _ => rfl

/-- A close is answered in a step of its own. -/
theorem go_of_answer? {e e' : Engine ρ} {event : Event ρ} {q : Nat} {t : Task} {id : String}
    (ht : e.tasks[q]? = some t) (hid : t.seeks? = some id) (h : e.step? event = some e')
    (ha : e'.answer? q ≠ none) :
    ∃ a r', t.go? e.registry e.callTimeout = some (r', .finished a) ∧
      e'.failure? q = a.error? := by
  obtain ⟨t', ht', ⟨hp, hturn⟩ | ⟨hp, hlike⟩⟩ := task_of_step? h ht
  · generalize e.change event = c at hturn
    cases hturn with
    | @go _ _ r' hg =>
      rcases Task.turns_of_go? hg hid with ⟨hid', -⟩ | ⟨a, rfl⟩
      · exact absurd (answer?_of_seeks ht' hid') ha
      · exact ⟨a, r', hg, by simp [failure?, ht', Task.failure?]⟩
    | expire hg => exact absurd (answer?_of_seeks ht' (Task.turns_of_expire? hg hid).1) ha
    | callOff => cases hid
    | cutOff => cases hid
    | refuse hg =>
      obtain ⟨-, -, metadata, ⟨rfl, -⟩ | ⟨c, rfl, -⟩⟩ := Task.of_refuse? hg <;> cases hid
    | detour hg =>
      obtain ⟨_, _, -, ⟨rfl, -⟩ | ⟨_, rfl, -⟩⟩ := Task.of_detour? hg <;> cases hid
  · rcases hlike with rfl | ⟨stage, calledOff, rfl, -⟩
    · exact absurd (answer?_of_seeks ht' hid) ha
    · cases hid

/-- **An identifier is not handed out when the start of its session has failed.** -/
theorem Recalls.not_failed {past : List (Engine ρ × Event ρ)} {e : Engine ρ} {id : String}
    (hr : Recalls past e) (hout : HandedOut past e id) : ¬ Failed e id := by
  obtain ⟨later, e', hrun, x, hx, hhands⟩ := hout
  intro hf
  rcases List.mem_append.mp hx with hx | hx
  · obtain ⟨reason, hfailed⟩ := hf
    cases (hr.handed x hx id hhands).eq hfailed hr.orderly
  · -- the failure lasts until then
    obtain ⟨before, -, hbefore, -⟩ := before_of_mem_trace hx
    obtain ⟨hr', reason, hfailed⟩ := run?_induction
      (P := fun past e => Recalls past e ∧ Failed e id)
      (fun _ _ _ _ hP h => ⟨hP.1.step h, hP.2.step (fun k => (hP.1.books k).told) h⟩)
      hbefore ⟨hr, hf⟩
    cases (reports_of_hands hhands).eq hfailed hr'.orderly

/-- What is kept is enough to answer them. -/
theorem Recalls.answersCloses {past : List (Engine ρ × Event ρ)} {e : Engine ρ}
    (hr : Recalls past e) : AnswersCloses past e where
  turns q t id later e' ht hid hrun := by
    obtain ⟨t', ht', hend, hle⟩ := (brief_seeks id).turns_of_run? hrun ht (Or.inl hid)
    have hmost := (Task.turns_bounds hid).2
    refine ⟨by omega, ?_⟩
    rcases hend with hid' | ⟨a, rfl⟩
    · exact Or.inr (turn_of_seeks ht' hid')
    · exact Or.inl (by rw [answer?_of_finished ht']; rintro ⟨⟩)
  known x hx id q t hknown hq ht hid hout hmind event e' hp h := by
    cases hf : e'.failure? q with
    | none => rfl
    | some err =>
      obtain ⟨hback, hforgotten⟩ := looksBack_of_failure? ht hid hp h hf
      have hmissed := (hr.missed x hx id hknown).2 q t hq ht hid hback
      have hlately := hmind (hmissed.resolve_right (hr.not_failed hout))
      rw [(hr.books 0).remembers.of_lately hlately] at hforgotten
      cases hforgotten
  unknown q t id ht hid hunknown event e' h ha := by
    obtain ⟨a, r', hg, hf⟩ := go_of_answer? ht hid h ha
    rcases Task.late_of_go? hg hid with ⟨k, hk⟩ | hlate
    · exact absurd ⟨k, (hr.books 0).found q t id k ht hk⟩ hunknown
    · have hnot : e.registry.remembers id = false :=
        Bool.eq_false_iff.mpr fun hrem => hunknown (hr.memorable id hrem)
      rw [hf, hlate, Closing.late, if_neg (by simp [hnot])]
      rfl

/-- **Whatever is started, closed or swept at the same time**, whoever closes a session whose
identifier is handed out does not fail, and whoever closes one that never was is told so. -/
theorem answersCloses_of_run? {settings : SessionSettings} {standard : Duration}
    {ids : Nat → String} {now : Nat} {e : Engine ρ} {events : List (Event ρ)}
    (hids : Function.Injective ids)
    (h : (start settings standard ids now).run? events = some e) :
    AnswersCloses ((start settings standard ids now).trace events) e :=
  (run?_induction (fun _ _ _ _ hr h => hr.step h) h
    (Recalls.start settings standard now hids)).answersCloses

/-- Two sessions are terminated, one of them 299 seconds after the other; a close of the first comes
after that, and one of a session that nobody started. -/
def lateCloses : List (Event Nat) :=
  [.arrive (.create []), .go 0, .work 0 (.built 7), .go 0,
    .arrive (.create []), .go 1, .work 1 (.built 7), .go 1,
    .arrive (.terminate (strokes 0)), .go 2, .go 2, .go 2, .go 2, .go 2, .pass (.ofSeconds 299),
    .arrive (.terminate (strokes 1)), .go 3, .go 3, .go 3, .go 3, .go 3,
    .arrive (.close (strokes 0)), .go 4, .go 4, .arrive (.close "nobody"), .go 5, .go 5]

theorem answersCloses_lateCloses : ∃ (e : Engine Nat) (x : Engine Nat × Event Nat),
    let e₀ := start (.ofConfig SessionConfig.standard) (.ofSeconds 60) strokes 0
    e₀.run? lateCloses = some e ∧ AnswersCloses (e₀.trace lateCloses) e ∧
    (e₀.trace lateCloses)[3]? = some x ∧ Hands (strokes 0) x ∧
    e.answer? 4 ≠ none ∧ e.failure? 4 = none ∧
    e.failure? 5 = some (.sessionNotFound "nobody") :=
  ⟨_, _, rfl, answersCloses_of_run? strokes_injective rfl, rfl,
    ⟨0, .awaitReady 0, _, _, rfl, rfl, rfl, rfl⟩, by rintro ⟨⟩, rfl, rfl⟩

end Engine
end Workbench
