import Mathlib.Data.List.Forall2
import Workbench.Proofs.Reference.Machine
import Workbench.Proofs.Session.Patience
import Workbench.Proofs.Worker.InHand

/-!
# The registry and the reference machine

Between two calls, the registry has the same sessions as the reference machine: those that are live,
with nothing to be done on their workspaces, and those that are over.

* `Session.Mirrors` compares a session with what the machine has at its seat;
* `Registry.Mirrors` compares all of them, but for one that may be set aside while it is served;
* what a call looks up is found alike in both (`Registry.Mirrors.found`, `missing`, `gone`), and
  the listings are the same but for times (`Registry.Mirrors.infos`).
-/

namespace Workbench

/-! ## 1. One session -/

/-- A live session shows what the machine has of it. -/
structure Session.Shows (s : Session Workspace) (id : String) (x : LiveSession) : Prop where
  id : s.id = id
  metadata : s.metadata = x.metadata
  listed : s.listed = true
  isOpen : s.isClosed = false
  trusted : s.suspect = false
  reflects : s.Reflects x.workspace
  up : s.worker.IsUp

/-- A session is over, and nothing is left to be done for it. -/
structure Session.IsOver (s : Session Workspace) (id : String) : Prop where
  id : s.id = id
  unlisted : s.listed = false
  closed : s.isClosed = true
  spent : s.worker.Spent

/-- A session is what the machine has at its seat. -/
inductive Session.Mirrors (s : Session Workspace) : Seat → Prop where
  | live {id : String} {x : LiveSession} (h : s.Shows id x) (hr : s.worker.Rests x.workspace) :
      Mirrors s ⟨id, some x⟩
  | gone {id : String} (h : s.IsOver id) : Mirrors s ⟨id, none⟩

namespace Session

variable {s s' : Session Workspace} {id : String} {x : LiveSession}

/-- A snapshot of a session at rest is that of the machine, but for times. -/
theorem Shows.info (h : s.Shows id x) (hr : s.worker.Rests x.workspace) (now : Nat) :
    (s.info now).timeless = (x.info id).timeless := by
  have hstate := h.reflects.1
  have hattached := h.reflects.2
  have hpending := h.up.pending hr.waiting
  simp only [Workspace.label?, Option.isSome_map] at hstate hattached
  simp only [Session.info, LiveSession.info, SessionInfo.timeless, h.id, h.metadata, h.trusted,
    hstate, hattached, hpending]

/-- Only its worker differs. -/
theorem Shows.worker (h : s.Shows id x) {w : Worker Workspace Job JobAnswer} (hw : w.IsUp) :
    ({ s with worker := w } : Session Workspace).Shows id x :=
  ⟨h.id, h.metadata, h.listed, h.isOpen, h.trusted, h.reflects, hw⟩

/-- What a tool has done to the workspace is what the session notes of it. -/
theorem Shows.record (h : s.Shows id x) {v : Workspace} {info : ToolInfo} {answer : JobAnswer}
    (ht : x.workspace.ToldBy info v answer) (now : Nat) (arguments : Json) :
    (s.record now (.tool info arguments) answer).Shows id { x with workspace := v } := by
  obtain ⟨hid, hlisted, hworker, hclosed⟩ := record_fields s now (.tool info arguments) answer
  obtain ⟨-, hmetadata, hsuspect⟩ := record_kept s now (.tool info arguments) answer
  exact ⟨hid.trans h.id, hmetadata.trans h.metadata, hlisted.trans h.listed,
    hclosed.trans h.isOpen, hsuspect.trans h.trusted, reflects_record h.isOpen h.reflects ht,
    hworker ▸ h.up⟩

theorem Mirrors.id_eq {y : Seat} (h : s.Mirrors y) : s.id = y.id := by
  cases h with
  | live h hr => exact h.id
  | gone h => exact h.id

/-- Where no job is in hand, a step of the worker changes nothing that the machine knows of. -/
theorem Mirrors.step {y : Seat} (h : s.Mirrors y) {now : Nat}
    {m : Worker.Move Workspace JobAnswer} (hadv : s.advance? now m = some s')
    (hm : m.isFailure = false) (hbuilt : ∀ v, m = .built v → v = .empty) :
    s'.Mirrors y ∧ ∀ v a, m ≠ .finish v a := by
  obtain ⟨hid, hlisted, hworker, hclosed⟩ := advance?_fields hadv
  cases h with
  | live h hr =>
    obtain ⟨v, rfl, hempty, hrests⟩ := hr.step h.up hworker hm
    rcases advance?_cases hadv with ⟨_, _, _, _, _, hfinish, -⟩ | ⟨-, hs'⟩
    · cases hfinish
    · refine ⟨?_, by rintro _ _ ⟨⟩⟩
      rw [hs']
      refine .live (h.worker (h.up.step hworker hm)) ?_
      rw [hempty, ← hbuilt v rfl]
      exact hrests
  | gone h =>
    obtain ⟨hspent, -, -, hfinish⟩ := h.spent.step hworker
    exact ⟨.gone ⟨hid.trans h.id, hlisted.trans h.unlisted, hclosed.trans h.closed, hspent⟩,
      hfinish⟩

end Session

/-! ## 2. The registry -/

namespace Registry

/-- **The registry has what the machine has**, but for the session that is set aside; since some
moment, nothing that was forgotten has gone out of memory. -/
structure Mirrors (r : Registry Workspace) (m : Reference) (since : Nat) (aside : Option Nat) :
    Prop where
  settings : r.settings = m.settings
  ids : r.ids = m.ids
  distinct : Function.Injective m.ids
  length : r.sessions.length = m.seats.length
  named : ∀ k y, m.seats[k]? = some y → y.id = m.ids k
  sessions : ∀ k s y, aside ≠ some k → r.session? k = some s → m.seats[k]? = some y → s.Mirrors y
  begun : since ≤ r.now
  kept : ∀ k id, aside ≠ some k → m.seats[k]? = some ⟨id, none⟩ →
    ∃ moment, (id, moment) ∈ r.remembered ∧ since ≤ moment
  known : ∀ p ∈ r.remembered, ∃ y ∈ m.seats, y.id = p.1

theorem session?_put_of_ne {r : Registry Workspace} {j k : Nat} (s : Session Workspace)
    (hjk : k ≠ j) : (r.put k s).session? j = r.session? j := by
  simp only [put, session?, List.getElem?_set_ne hjk]

theorem session?_put_self {r : Registry Workspace} {k : Nat} {s₀ : Session Workspace}
    (h : r.session? k = some s₀) (s : Session Workspace) : (r.put k s).session? k = some s := by
  simp only [put, session?, List.getElem?_set_self (List.getElem?_eq_some_iff.mp h).1]

end Registry

namespace Reference

variable {m : Reference} {k : Nat}

theorem seat_of_live? {x : LiveSession} (h : m.live? k = some x) :
    ∃ id, m.seats[k]? = some ⟨id, some x⟩ := by
  obtain ⟨⟨id, live⟩, hy, hlive⟩ := Option.bind_eq_some_iff.mp h
  cases hlive
  exact ⟨id, hy⟩

theorem seat_put {y : Seat} (h : m.seats[k]? = some y) (x : Option LiveSession) (disk : Disk) :
    (m.put k x disk).seats[k]? = some ⟨y.id, x⟩ := by
  simp only [put, List.getElem?_modify_eq, h, Option.map_eq_map, Option.map_some]

theorem seat_put_of_ne {j : Nat} (hjk : k ≠ j) (x : Option LiveSession) (disk : Disk) :
    (m.put k x disk).seats[j]? = m.seats[j]? := by
  simp only [put, List.getElem?_modify_ne _ _ hjk]

/-- To a seat that has it already, putting it there again does nothing. -/
theorem put_self {id : String} {x : Option LiveSession} (h : m.seats[k]? = some ⟨id, x⟩) :
    m.put k x m.disk = m := by
  have hseats : (m.seats.modify k fun y => { y with live := x }) = m.seats := by
    refine List.ext_getElem? fun j => ?_
    by_cases hjk : k = j
    · subst hjk
      simp only [List.getElem?_modify_eq, h, Option.map_eq_map, Option.map_some]
    · simp only [List.getElem?_modify_ne _ _ hjk]
  simp only [put, hseats]

end Reference

namespace Registry.Mirrors

variable {r : Registry Workspace} {m : Reference} {since : Nat} {aside : Option Nat} {k : Nat}
  {s : Session Workspace} {id : String}

/-! ## 3. What is found -/

/-- Seats are told apart by their identifiers. -/
theorem seat_eq (h : r.Mirrors m since aside) {j k : Nat} {y z : Seat}
    (hy : m.seats[j]? = some y) (hz : m.seats[k]? = some z) (hid : y.id = z.id) : j = k :=
  h.distinct (by rw [← h.named j y hy, ← h.named k z hz, hid])

/-- Every session has its seat. -/
theorem seat_of_session (h : r.Mirrors m since aside) (hs : r.session? k = some s) :
    ∃ y, m.seats[k]? = some y := by
  have hlt : k < m.seats.length := h.length ▸ (List.getElem?_eq_some_iff.mp hs).1
  exact ⟨_, List.getElem?_eq_getElem hlt⟩

theorem session_of_seat (h : r.Mirrors m since aside) {y : Seat} (hy : m.seats[k]? = some y) :
    ∃ s, r.session? k = some s := by
  have hlt : k < r.sessions.length := h.length ▸ (List.getElem?_eq_some_iff.mp hy).1
  exact ⟨_, List.getElem?_eq_getElem hlt⟩

theorem seat_of_seat? (hk : m.seat? id = some k) : ∃ live, m.seats[k]? = some ⟨id, live⟩ := by
  obtain ⟨hlt, hid, -⟩ := List.findIdx?_eq_some_iff_getElem.mp hk
  exact ⟨_, by rw [List.getElem?_eq_getElem hlt, ← eq_of_beq hid]⟩

/-- Where no session is set aside, all of them are as the machine has them. -/
theorem seated (h : r.Mirrors m since none) {y : Seat} (hs : r.session? k = some s)
    (hy : m.seats[k]? = some y) : s.Mirrors y :=
  h.sessions k s y nofun hs hy

theorem unforgotten (h : r.Mirrors m since none) (hy : m.seats[k]? = some ⟨id, none⟩) :
    ∃ moment, (id, moment) ∈ r.remembered ∧ since ≤ moment :=
  h.kept k id nofun hy

/-- A listed session is live on the machine. -/
theorem seat?_of_holds (h : r.Mirrors m since none) (hs : r.session? k = some s)
    (hl : holds s id = true) : m.seat? id = some k ∧ ∃ x, m.live? k = some x := by
  obtain ⟨y, hy⟩ := h.seat_of_session hs
  have hmirrors := h.seated hs hy
  have hheld : s.listed = true ∧ s.id = id := by simpa [holds] using hl
  cases hmirrors with
  | gone hgone =>
    rw [hgone.unlisted] at hheld
    cases hheld.1
  | @live id' x hshows hr =>
    have hid : id' = id := hshows.id.symm.trans hheld.2
    subst hid
    refine ⟨?_, x, by simp only [Reference.live?, hy, Option.bind_some]⟩
    cases hk : m.seat? id' with
    | none =>
      have hno := List.findIdx?_eq_none_iff.mp hk _ (List.mem_of_getElem? hy)
      simp at hno
    | some j =>
      obtain ⟨live, hj⟩ := seat_of_seat? hk
      rw [h.seat_eq hj hy rfl]

/-- **A live session is found**, and nothing is to be done for it. -/
theorem found (h : r.Mirrors m since none) {x : LiveSession} (hk : m.seat? id = some k)
    (hx : m.live? k = some x) : r.seat? id = some k ∧ r.live? id = some k ∧
      ∃ s, r.session? k = some s ∧ s.Shows id x ∧ s.worker.Rests x.workspace := by
  obtain ⟨live, hy⟩ := seat_of_seat? hk
  obtain ⟨id', hy'⟩ := Reference.seat_of_live? hx
  rw [hy] at hy'
  cases hy'
  obtain ⟨s, hs⟩ := h.session_of_seat hy
  cases h.seated hs hy with
  | live hshows hr =>
    have hseat : r.seat? id = some k := by
      cases hseat : r.seat? id with
      | none =>
        have hno := Registry.seat?_eq_none.mp hseat k s hs
        simp [holds, hshows.listed, hshows.id] at hno
      | some j =>
        obtain ⟨t, ht, hl, hid⟩ := Registry.of_seat? hseat
        have hheld : holds t id = true := by simp [holds, hl, hid]
        have hj := (h.seat?_of_holds ht hheld).1
        rw [hk] at hj
        exact hj.symm
    refine ⟨hseat, ?_, s, hs, hshows, hr⟩
    simp [Registry.live?, hseat, hs, hshows.isOpen]

/-- A session that is over is not found. -/
theorem missing (h : r.Mirrors m since none) (hk : m.seat? id = some k)
    (hx : m.live? k = none) : r.seat? id = none ∧ r.remembers id = true := by
  constructor
  · refine Registry.seat?_eq_none.mpr fun j s hs => Bool.eq_false_iff.mpr fun hl => ?_
    obtain ⟨hj, x, hx'⟩ := h.seat?_of_holds hs hl
    rw [hk] at hj
    cases hj
    rw [hx] at hx'
    cases hx'
  · obtain ⟨live, hy⟩ := seat_of_seat? hk
    have hlive : live = none := by simpa [Reference.live?, hy] using hx
    obtain ⟨moment, hmem, -⟩ := h.unforgotten (hlive ▸ hy)
    exact List.any_eq_true.mpr ⟨(id, moment), hmem, by simp⟩

/-- An identifier that no session has is not found either, and nothing is known of it. -/
theorem gone (h : r.Mirrors m since none) (hk : m.seat? id = none) :
    r.seat? id = none ∧ r.remembers id = false := by
  constructor
  · refine Registry.seat?_eq_none.mpr fun j s hs => Bool.eq_false_iff.mpr fun hl => ?_
    have hj := (h.seat?_of_holds hs hl).1
    rw [hk] at hj
    cases hj
  · refine Bool.eq_false_iff.mpr fun hr => ?_
    obtain ⟨p, hp, hid⟩ := List.any_eq_true.mp hr
    obtain ⟨y, hy, hyid⟩ := h.known p hp
    have hno := List.findIdx?_eq_none_iff.mp hk y hy
    simp [hyid, eq_of_beq hid] at hno

/-- A session that is not live is not found among the open ones. -/
theorem live?_eq_none (h : r.seat? id = none) : r.live? id = none := by
  simp [Registry.live?, h]

/-! ## 4. What is listed -/

theorem infos_of_forall₂ {sessions : List (Session Workspace)} {seats : List Seat} (now : Nat)
    (h : List.Forall₂ Session.Mirrors sessions seats) :
    ((sessions.filter (·.listed)).map (·.info now)).map (·.timeless) =
      (seats.filterMap fun y => y.live.map fun x => x.info y.id).map (·.timeless) := by
  induction h with
  | nil => rfl
  | cons hs _ ih =>
    cases hs with
    | live hshows hr =>
      simp only [List.filter_cons, hshows.listed, if_true, List.map_cons, List.filterMap_cons,
        Option.map_some, ih, hshows.info hr now]
    | gone hgone =>
      simpa only [List.filter_cons, hgone.unlisted, Bool.false_eq_true, if_false,
        List.filterMap_cons, Option.map_none] using ih

theorem forall₂ (h : r.Mirrors m since none) :
    List.Forall₂ Session.Mirrors r.sessions m.seats := by
  refine List.forall₂_iff_get.mpr ⟨h.length, fun k hk hk' => ?_⟩
  exact h.seated (List.getElem?_eq_getElem hk) (List.getElem?_eq_getElem hk')

/-- **The listed sessions are those of the machine**, but for times. -/
theorem infos (h : r.Mirrors m since none) :
    r.infos.map (·.timeless) = m.infos.map (·.timeless) :=
  infos_of_forall₂ r.now h.forall₂

theorem length_infos (h : r.Mirrors m since none) : r.listed.length = m.infos.length := by
  have hlength := congrArg List.length h.infos
  simpa only [Registry.infos, List.length_map] using hlength

/-- There is room on the machine where there is room in the registry. -/
theorem isFull (h : r.Mirrors m since none) :
    r.isFull = decide (m.settings.maxConcurrent ≤ m.infos.length) := by
  have hopen : (r.listed.filter fun s => !s.isClosed) = r.listed := by
    refine List.filter_eq_self.mpr fun s hs => ?_
    obtain ⟨hmem, hl⟩ := List.mem_filter.mp hs
    obtain ⟨k, hk⟩ := List.getElem?_of_mem hmem
    obtain ⟨y, hy⟩ := h.seat_of_session hk
    cases h.seated hk hy with
    | live hshows hr => simp [hshows.isOpen]
    | gone hgone => simp [hgone.unlisted] at hl
  rw [Registry.isFull, hopen, h.length_infos, h.settings]

end Registry.Mirrors

/-- Statistics do not look at times. -/
theorem SessionStats.ofInfos_timeless (settings : SessionSettings) (infos : List SessionInfo) :
    ofInfos settings (infos.map (·.timeless)) = ofInfos settings infos := by
  simp only [ofInfos, List.length_map, List.countP_map]
  rfl

namespace Registry

/-- The statistics of the registry are those of its listed sessions. -/
theorem stats_eq (r : Registry Workspace) : r.stats = .ofInfos r.settings r.infos := by
  simp only [stats, SessionStats.ofInfos, infos, List.length_map, List.countP_map]
  rfl

/-- **A listing tells the same as that of the machine**, but for times. -/
theorem Mirrors.listing {r : Registry Workspace} {m : Reference} {since : Nat}
    (h : r.Mirrors m since none) :
    SameButTimes (.ok ⟨toString r.listed.length ++ " sessions", r.overview⟩)
      (.ok (Call.listing m.infos (.ofInfos m.settings m.infos))) := by
  have hlisting : (⟨toString r.listed.length ++ " sessions", r.overview⟩ : ToolOutput) =
      Call.listing r.infos (.ofInfos m.settings m.infos) := by
    have hstats : r.stats = .ofInfos m.settings m.infos := by
      rw [← SessionStats.ofInfos_timeless, ← h.infos, SessionStats.ofInfos_timeless, r.stats_eq,
        h.settings]
    rw [← hstats]
    simp only [Call.listing, overview, Registry.infos, List.length_map]
  rw [hlisting]
  exact .listing _ h.infos

/-! ## 5. Changes -/

/-- What stands in a list with one more entry. -/
theorem of_getElem?_concat {α : Type} {l : List α} {x y : α} {k : Nat}
    (h : (l ++ [x])[k]? = some y) : l[k]? = some y ∨ k = l.length ∧ y = x := by
  rcases Nat.lt_trichotomy k l.length with hlt | rfl | hgt
  · rw [List.getElem?_append_left hlt] at h
    exact .inl h
  · rw [List.getElem?_concat_length] at h
    exact .inr ⟨rfl, (Option.some.inj h).symm⟩
  · rw [List.getElem?_eq_none (by rw [List.length_append, List.length_singleton]; omega)] at h
    cases h

namespace Mirrors

variable {r : Registry Workspace} {m : Reference} {since : Nat} {aside : Option Nat} {j k : Nat}
  {s s' : Session Workspace}

/-- A session is set aside. -/
theorem setAside (h : r.Mirrors m since none) (k : Nat) : r.Mirrors m since (some k) :=
  { h with
    sessions := fun _ _ _ _ => h.seated
    kept := fun _ _ _ => h.unforgotten }

/-- A session that was set aside comes back. -/
theorem comeBack (h : r.Mirrors m since (some k)) {y : Seat} (hs : r.session? k = some s)
    (hy : m.seats[k]? = some y) (hmirrors : s.Mirrors y)
    (hkept : y.live = none → ∃ moment, (y.id, moment) ∈ r.remembered ∧ since ≤ moment) :
    r.Mirrors m since none :=
  { h with
    sessions := by
      intro j t z _ ht hz
      by_cases hjk : k = j
      · subst hjk
        rw [hs] at ht
        cases ht
        rw [hy] at hz
        cases hz
        exact hmirrors
      · exact h.sessions j t z (by simpa using hjk) ht hz
    kept := by
      intro j id _ hz
      by_cases hjk : k = j
      · subst hjk
        rw [hy] at hz
        cases hz
        exact hkept rfl
      · exact h.kept j id (by simpa using hjk) hz }

/-- A session is replaced, by one that does as well if it is not set aside. -/
theorem put (h : r.Mirrors m since aside) {s : Session Workspace}
    (hs : aside ≠ some j → ∀ y, m.seats[j]? = some y → s.Mirrors y) :
    (r.put j s).Mirrors m since aside :=
  { h with
    length := by simpa only [Registry.put, List.length_set] using h.length
    sessions := by
      intro i t y hi ht hy
      by_cases hij : j = i
      · subst hij
        obtain ⟨t₀, ht₀⟩ := h.session_of_seat hy
        rw [session?_put_self ht₀] at ht
        cases ht
        exact hs hi y hy
      · rw [session?_put_of_ne s hij] at ht
        exact h.sessions i t y hi ht hy }

/-- Of the session that is set aside, the machine may have anything. -/
theorem change (h : r.Mirrors m since (some k)) (x : Option LiveSession) (disk : Disk) :
    r.Mirrors (m.put k x disk) since (some k) :=
  { h with
    length := by simpa only [Reference.put, List.length_modify] using h.length
    named := by
      intro j y hy
      by_cases hjk : k = j
      · subst hjk
        cases hz : m.seats[k]? with
        | none => simp [Reference.put, hz] at hy
        | some z =>
          rw [Reference.seat_put hz] at hy
          cases hy
          exact h.named k z hz
      · rw [Reference.seat_put_of_ne hjk] at hy
        exact h.named j y hy
    sessions := by
      intro j t y hjk ht hy
      rw [Reference.seat_put_of_ne fun heq => hjk (congrArg some heq)] at hy
      exact h.sessions j t y hjk ht hy
    kept := by
      intro j id hjk hy
      rw [Reference.seat_put_of_ne fun heq => hjk (congrArg some heq)] at hy
      exact h.kept j id hjk hy
    known := by
      intro p hp
      obtain ⟨y, hy, hid⟩ := h.known p hp
      obtain ⟨j, hj⟩ := List.getElem?_of_mem hy
      by_cases hjk : k = j
      · subst hjk
        exact ⟨_, List.mem_of_getElem? (Reference.seat_put hj x disk), hid⟩
      · refine ⟨y, List.mem_of_getElem? (i := j) ?_, hid⟩
        rw [Reference.seat_put_of_ne hjk]
        exact hj }

/-- Time passes. -/
theorem pass (h : r.Mirrors m since aside) (time : Nat) :
    ({ r with now := r.now + time } : Registry Workspace).Mirrors m since aside :=
  { h with begun := Nat.le_add_right_of_le h.begun }

/-- A session is started. -/
theorem register (h : r.Mirrors m since none) (metadata : List (String × Json)) :
    (r.register metadata).Mirrors
      { m with seats := m.seats ++ [⟨m.ids m.seats.length, some ⟨metadata, .empty⟩⟩] } since
      none where
  settings := h.settings
  ids := h.ids
  distinct := h.distinct
  length := by simp only [Registry.register, List.length_append, h.length, List.length_singleton]
  named := by
    intro k y hy
    rcases of_getElem?_concat hy with hy | ⟨rfl, rfl⟩
    · exact h.named k y hy
    · rfl
  sessions := by
    intro k s y _ hs hy
    rcases of_getElem?_concat hs with hs | ⟨hk, rfl⟩ <;>
      rcases of_getElem?_concat hy with hy | ⟨hk', rfl⟩
    · exact h.seated hs hy
    · have hlt := (List.getElem?_eq_some_iff.mp hs).1
      rw [hk', h.length] at hlt
      exact absurd hlt (Nat.lt_irrefl _)
    · have hlt := (List.getElem?_eq_some_iff.mp hy).1
      rw [hk, h.length] at hlt
      exact absurd hlt (Nat.lt_irrefl _)
    · have hid : r.ids r.nextSeat = m.ids m.seats.length := by
        rw [Registry.nextSeat, h.ids, h.length]
      exact .live ⟨hid, rfl, rfl, rfl, rfl, ⟨rfl, rfl⟩, .spawn _⟩ ⟨rfl, rfl, rfl⟩
  begun := h.begun
  kept := by
    intro k id _ hy
    rcases of_getElem?_concat hy with hy | ⟨-, hy⟩
    · exact h.unforgotten hy
    · cases hy
  known := by
    intro p hp
    obtain ⟨y, hy, hid⟩ := h.known p hp
    exact ⟨y, List.mem_append_left _ hy, hid⟩

/-- The session that is set aside is forgotten; it is remembered as one that was closed, and so are
the others that were, as long as not much time has passed. -/
theorem forget (h : r.Mirrors m since (some k)) {y : Seat} (hs : r.session? k = some s)
    (hl : s.listed = true) (hy : m.seats[k]? = some y) (hid : s.id = y.id)
    (hnow : r.now < since + retention.nanos) :
    (r.forget s.id).Mirrors m since (some k) ∧
      (r.forget s.id).session? k = some { s with listed := false } ∧
      ∃ moment, (y.id, moment) ∈ (r.forget s.id).remembered ∧ since ≤ moment := by
  refine ⟨{ h with length := ?_, sessions := ?_, kept := ?_, known := ?_ }, ?_, ?_⟩
  case refine_1 => simpa only [Registry.forget, Registry.remove, List.length_map] using h.length
  case refine_2 =>
    intro j t z hjk ht hz
    obtain ⟨t₀, ht₀⟩ := h.session_of_seat hz
    have hmirrors := h.sessions j t₀ z hjk ht₀ hz
    have hother : holds t₀ s.id = false := by
      refine Bool.eq_false_iff.mpr fun hheld => hjk (congrArg some ?_)
      have hsame : t₀.id = s.id := by
        simp only [holds, Bool.and_eq_true, beq_iff_eq] at hheld
        exact hheld.2
      exact h.seat_eq hy hz (by rw [← hid, ← hsame, hmirrors.id_eq])
    have hafter := session?_after_of_some (.forget s.id) ht₀
    simp only [after, Change.alter, Change.unlisted?, hother] at hafter
    rw [ht] at hafter
    cases hafter
    exact hmirrors
  case refine_3 =>
    intro j id hjk hz
    obtain ⟨moment, hmem, hle⟩ := h.kept j id hjk hz
    have hne : id ≠ s.id := fun heq => hjk (congrArg some (h.seat_eq hy hz (hid ▸ heq.symm)))
    rcases Engine.remembered_of_forget hmem hne with hmem | hup
    · exact ⟨moment, hmem, hle⟩
    · omega
  case refine_4 =>
    intro p hp
    simp only [Registry.forget, List.mem_append, List.mem_filter, List.mem_singleton] at hp
    rcases hp with ⟨hp, -⟩ | rfl
    · exact h.known p hp
    · exact ⟨y, List.mem_of_getElem? hy, hid.symm⟩
  case refine_5 =>
    have hafter := session?_after_of_some (.forget s.id) hs
    simpa [after, Change.alter, Change.unlisted?, holds, hl] using hafter
  case refine_6 => exact ⟨r.now, hid ▸ Engine.remembered_forget r s.id, h.begun⟩

end Mirrors
end Registry
end Workbench
