import Workbench.Proofs.Worker.Trace

/-!
# The counters of a worker

The handle raises the count of what waits, the worker lowers it, and the limit of the queue is held
against it although some submissions do not mind the limit.  The counters are right all the same.

* `admitted` are the accepted operations of a trace, each with whether it minded the limit, and
  `unbegun` those of them that have not begun;
* `Metered` ties the count to them, and is kept by every action (`Metered.step`);
* `Counts` is what the counters tell, for every run (`run_counts`).

The count stays right when a crash or a failed construction leaves operations that never begin: they
are counted for ever.
-/

namespace Workbench
namespace Worker

open History

variable {ρ J A : Type}

/-! ## 1. Accepted operations -/

/-- The ticket of the operation that an action makes the worker accept, and whether the submission
minded the limit. -/
def admission? : Worker ρ J A × Action ρ J A → Option (Nat × Bool)
  | (w, .submit bounded _) =>
    match w.refusal? bounded with
    | none => some (w.replies.length, bounded)
    | some _ => none
  | _ => none

/-- The accepted operations of a trace, by their tickets. -/
def admitted (past : List (Worker ρ J A × Action ρ J A)) : List (Nat × Bool) :=
  past.filterMap admission?

/-- The accepted operations of a trace that have not begun. -/
def unbegun (past : List (Worker ρ J A × Action ρ J A)) : List (Nat × Bool) :=
  (admitted past).filter fun x => x.1 ∉ (begun (noted past)).map Prod.fst

theorem admitted_concat (past : List (Worker ρ J A × Action ρ J A))
    (x : Worker ρ J A × Action ρ J A) :
    admitted (past ++ [x]) = admitted past ++ (admission? x).toList := by
  unfold admitted
  rw [List.filterMap_append]
  cases h : admission? x <;> simp [h]

/-- The ticket is the one that is noted. -/
theorem admission?_map_fst (x : Worker ρ J A × Action ρ J A) :
    (admission? x).map Prod.fst = ((x.1.note? x.2).bind Note.accepted?).map Prod.fst := by
  obtain ⟨w, a⟩ := x
  cases a with
  | submit bounded j => cases hr : w.refusal? bounded <;> simp [admission?, note?, hr]
  | move m =>
    cases m with
    | start | finish | crash =>
      simp only [admission?, note?]
      split <;> rfl
    | _ => rfl
  | _ => rfl

theorem admitted_map_fst (past : List (Worker ρ J A × Action ρ J A)) :
    (admitted past).map Prod.fst = (accepted (noted past)).map Prod.fst := by
  unfold admitted accepted noted
  rw [List.map_filterMap, List.filterMap_filterMap, List.map_filterMap]
  exact congrArg (List.filterMap · past) (funext admission?_map_fst)

/-- In a list that is numbered from zero, the members with other numbers than the first ones stand
behind them. -/
theorem filter_of_numbered {α : Type} {l : List α} {f : α → Nat} {n : Nat}
    (h : l.map f = List.range n) (k : Nat) : l.filter (fun x => f x ∉ List.range k) = l.drop k := by
  have htake : ∀ x ∈ l.take k, f x ∈ List.range k := by
    intro x hx
    have hm : f x ∈ (List.range n).take k := by
      rw [← h, ← List.map_take]
      exact List.mem_map_of_mem hx
    rw [List.take_range] at hm
    exact List.mem_range.mpr (Nat.lt_of_lt_of_le (List.mem_range.mp hm) (Nat.min_le_left _ _))
  have hdrop : ∀ x ∈ l.drop k, f x ∉ List.range k := by
    intro x hx hk
    have hm : f x ∈ (List.range n).drop k := by
      rw [← h, ← List.map_drop]
      exact List.mem_map_of_mem hx
    rw [List.range_eq_range', List.drop_range', List.mem_range'_1] at hm
    have := List.mem_range.mp hk
    omega
  have hparts : l.filter (fun x => f x ∉ List.range k) =
      (l.take k).filter (fun x => f x ∉ List.range k) ++
        (l.drop k).filter fun x => f x ∉ List.range k := by
    rw [← List.filter_append, List.take_append_drop]
  rw [hparts, List.filter_eq_nil_iff.mpr (by simpa using htake), List.nil_append,
    List.filter_eq_self.mpr (by simpa using hdrop)]

section Order

variable {past : List (Worker ρ J A × Action ρ J A)} {w : Worker ρ J A}
  (h : InOrder (noted past) w)
include h

theorem admitted_tickets : (admitted past).map Prod.fst = List.range w.replies.length := by
  rw [admitted_map_fst, h.tickets]

theorem begun_tickets :
    (begun (noted past)).map Prod.fst = List.range (begun (noted past)).length :=
  numbered_of_prefix h.tickets h.begun_prefix

/-- **What has not begun was accepted last.** -/
theorem unbegun_eq_drop : unbegun past = (admitted past).drop (begun (noted past)).length := by
  unfold unbegun
  rw [begun_tickets h]
  exact filter_of_numbered (admitted_tickets h) _

theorem length_unbegun_add :
    (unbegun past).length + (begun (noted past)).length = (accepted (noted past)).length := by
  have hle := h.begun_prefix.length_le
  have hlen := congrArg List.length (admitted_map_fst past)
  rw [List.length_map, List.length_map] at hlen
  rw [unbegun_eq_drop h, List.length_drop]
  omega

end Order

/-! ## 2. The count of what waits -/

/-- The count is right, and the limit is kept by those who mind it. -/
structure Metered (limit : Nat) (past : List (Worker ρ J A × Action ρ J A)) (w : Worker ρ J A) :
    Prop where
  limit_eq : w.limit = limit
  pending_eq : w.pending = (unbegun past).length
  bounded_le : 0 < limit → (unbegun past).countP Prod.snd ≤ limit

namespace Metered

variable {limit : Nat} {past : List (Worker ρ J A × Action ρ J A)} {w w' : Worker ρ J A}

theorem spawn (limit : Nat) : Metered limit [] (Worker.spawn limit : Worker ρ J A) where
  limit_eq := rfl
  pending_eq := rfl
  bounded_le _ := Nat.zero_le _

/-- Nothing is accepted and nothing begins. -/
theorem quiet (h : Metered limit past w) {a : Action ρ J A} (ha : admission? (w, a) = none)
    (hb : begun (w.note? a).toList = []) (hl : w'.limit = w.limit)
    (hp : w'.pending = w.pending) : Metered limit (past ++ [(w, a)]) w' := by
  have hu : unbegun (past ++ [(w, a)]) = unbegun past := by
    have hn : begun (noted (past ++ [(w, a)])) = begun (noted past) := by
      rw [noted_concat, begun_append, hb, List.append_nil]
    unfold unbegun
    rw [hn, admitted_concat, ha, Option.toList_none, List.append_nil]
  constructor
  case limit_eq => rw [hl, h.limit_eq]
  case pending_eq => rw [hp, hu, h.pending_eq]
  case bounded_le => rw [hu]; exact h.bounded_le

/-- **One more operation waits**, and there was room for it if it minded the limit. -/
theorem accept (h : Metered limit past w) (ho : InOrder (noted past) w) {bounded : Bool} {j : J}
    (hr : w.refusal? bounded = none) :
    Metered limit (past ++ [(w, .submit bounded j)]) (w.accept j) := by
  have hfresh : w.replies.length ∉ (begun (noted past)).map Prod.fst := by
    rw [begun_tickets ho, List.mem_range, Nat.not_lt]
    have hlen := congrArg List.length ho.tickets
    rw [List.length_map, List.length_range] at hlen
    exact hlen ▸ ho.begun_prefix.length_le
  have hu : unbegun (past ++ [(w, .submit bounded j)]) =
      unbegun past ++ [(w.replies.length, bounded)] := by
    have hn : begun (noted (past ++ [(w, .submit bounded j)])) = begun (noted past) := by
      simp [note?, hr]
    unfold unbegun
    rw [hn, admitted_concat, List.filter_append]
    simp [admission?, hr, -List.mem_map, hfresh]
  constructor
  case limit_eq => exact h.limit_eq
  case pending_eq =>
    rw [hu, List.length_append, ← h.pending_eq]
    rfl
  case bounded_le =>
    intro hpos
    have hle := h.bounded_le hpos
    have hcount : (unbegun past).countP Prod.snd ≤ w.pending := by
      rw [h.pending_eq]
      exact List.countP_le_length
    rw [hu, List.countP_append]
    cases bounded with
    | false => simpa using hle
    | true =>
      -- The submission was not refused, so fewer operations waited than may.
      have hroom : w.pending < limit := by
        rw [← h.limit_eq] at hpos ⊢
        obtain ⟨hf, hc, -⟩ := connected_of_refusal? hr
        refine Nat.lt_of_not_le fun hfull => ?_
        simp [refusal?, hf, hc, hpos, hfull] at hr
      have hone : [(w.replies.length, true)].countP Prod.snd = 1 := rfl
      omega

/-- **One operation less waits.** -/
theorem began (h : Metered limit past w) (ho : InOrder (noted past) w) {r : ρ} {ticket : Nat}
    {j : J} {rest : List (QueueItem J)} (hp : w.phase = .resting r)
    (hq : w.queue = .job ticket j :: rest) :
    Metered limit (past ++ [(w, .move .start)])
      { w with
        phase := .running r ticket j, queue := rest, pending := w.pending - 1, busy := true } := by
  have hn : noted (past ++ [(w, .move .start)]) = noted past ++ [.began ticket j r] := by
    simp [note?, hp, hq]
  have hu : unbegun (past ++ [(w, .move .start)]) = (unbegun past).tail := by
    rw [unbegun_eq_drop (hn ▸ ho.began hp hq), unbegun_eq_drop ho, hn, admitted_concat,
      List.tail_drop]
    simp [admission?]
  constructor
  case limit_eq => exact h.limit_eq
  case pending_eq => rw [hu, List.length_tail, ← h.pending_eq]
  case bounded_le =>
    intro hpos
    rw [hu]
    exact Nat.le_trans (List.tail_sublist _).countP_le (h.bounded_le hpos)

/-- **Every action keeps the count right.** -/
theorem step (h : Metered limit past w) (ho : InOrder (noted past) w) {a : Action ρ J A}
    (hw : w.act? a = some w') : Metered limit (past ++ [(w, a)]) w' := by
  cases acts_of_act? hw with
  | refused hr => exact h.quiet (by simp [admission?, hr]) (by simp [note?, hr, begun]) rfl rfl
  | accepted hr => exact h.accept ho hr
  | shutDown | shutBefore | awaited | abandoned => exact h.quiet rfl rfl rfl rfl
  | moved hm =>
    cases hm with
    | start hp hq => exact h.began ho hp hq
    | finish hp => exact h.quiet rfl (by simp [note?, hp]) rfl rfl
    | crash hp => exact h.quiet rfl (by simp [note?, hp]) rfl rfl
    | _ => exact h.quiet rfl rfl rfl rfl

end Metered

/-- The count is right along every run. -/
theorem metered_along {limit : Nat} {w : Worker ρ J A} {actions : List (Action ρ J A)}
    (h : (spawn limit).run? actions = some w) :
    Metered limit ((spawn limit).trace actions) w :=
  (run?_along (P := fun past w => Told (noted past) w ∧ Metered limit past w)
    (fun past w a w' hP hw => ⟨by simpa using hP.1.step hw, hP.2.step hP.1.order hw⟩) h
    ⟨Told.spawn limit, .spawn limit⟩).2

/-! ## 3. What the counters tell -/

/-- What the counters of a worker tell of the operations of its trace. -/
structure Counts (limit : Nat) (past : List (Worker ρ J A × Action ρ J A)) (w : Worker ρ J A) :
    Prop where
  /-- The count is that of the accepted operations that have not begun. -/
  pending_eq : w.pending = (unbegun past).length
  /-- An operation that begins was counted, so the count can be lowered. -/
  pending_start : ∀ w', w.advance? .start = some w' → w'.pending + 1 = w.pending
  /-- The worker is idle exactly when every accepted operation has ended. -/
  isIdle_iff : w.isIdle = true ↔
    ∀ x ∈ accepted (noted past), x ∈ (ended (noted past)).map Prod.fst
  /-- Only operations that did not mind the limit can make the queue longer than it. -/
  pending_le : 0 < limit → w.pending ≤ limit + (unbegun past).countP fun x => !x.2

/-- The accepted operations are as many as have ended, if each of them has. -/
theorem InOrder.length_accepted_le {notes : List (Note ρ J A)} {w : Worker ρ J A}
    (h : InOrder notes w) (hall : ∀ x ∈ accepted notes, x ∈ (ended notes).map Prod.fst) :
    (accepted notes).length ≤ (ended notes).length := by
  refine Nat.le_of_not_lt fun hlt => ?_
  -- The first operation that is too many has the number of the ended ones as its ticket.
  have hticket : (accepted notes)[(ended notes).length].1 = (ended notes).length := by
    have hlen := congrArg List.length h.tickets
    rw [List.length_map, List.length_range] at hlen
    have hi : ((accepted notes).map Prod.fst)[(ended notes).length]? =
        some (ended notes).length := by rw [h.tickets, List.getElem?_range (hlen ▸ hlt)]
    simpa [List.getElem?_eq_getElem hlt] using hi
  obtain ⟨e, he, heq⟩ := List.mem_map.mp (hall _ (List.getElem_mem hlt))
  have hi := getElem?_of_numbered h.ended_tickets he
  have hlt' := (List.getElem?_eq_some_iff.mp hi).1
  rw [heq, hticket] at hlt'
  exact Nat.lt_irrefl _ hlt'

/-- A worker is idle when all that was accepted has ended. -/
theorem Metered.isIdle_iff {limit : Nat} {past : List (Worker ρ J A × Action ρ J A)}
    {w : Worker ρ J A} (h : Metered limit past w) (ho : InOrder (noted past) w)
    (hc : w.Counted) :
    w.isIdle = true ↔ ∀ x ∈ accepted (noted past), x ∈ (ended (noted past)).map Prod.fst := by
  have hlen := length_unbegun_add ho
  have hpre := ho.begun_prefix
  have hidle : w.isIdle = true ↔ w.pending = 0 ∧ w.underway = [] := by
    have hb := hc.busy
    unfold isIdle
    cases hbusy : w.busy <;> simp_all
  rw [hidle, h.pending_eq]
  constructor
  · rintro ⟨hzero, hu⟩ x hx
    have hbegun : begun (noted past) = accepted (noted past) :=
      hpre.eq_of_length (by omega)
    rw [← hbegun, ho.begun_eq, hu, List.append_nil] at hx
    exact hx
  · intro hall
    have hle : (accepted (noted past)).length ≤ (ended (noted past)).length :=
      ho.length_accepted_le hall
    have hbegun := congrArg List.length ho.begun_eq
    rw [List.length_append, List.length_map] at hbegun
    have hlast := hpre.length_le
    exact ⟨by omega, List.length_eq_zero_iff.mp (by omega)⟩

/-- **Whatever happens to a worker**, and whoever submits, the counters are right: what waits is
counted, the count is never lowered below zero, the worker is idle when all is done, and the limit
holds for those who mind it. -/
theorem run_counts {limit : Nat} {w : Worker ρ J A} {actions : List (Action ρ J A)}
    (h : (spawn limit).run? actions = some w) :
    Counts limit ((spawn limit).trace actions) w := by
  obtain ⟨ht, hcounted⟩ := told_along h
  have hm := metered_along h
  constructor
  case pending_eq => exact hm.pending_eq
  case pending_start =>
    intro w' hw
    cases advance_of_advance? hw with
    | start hp hq =>
      have hcount := hcounted.pending (by rw [hp]; rfl)
      simp only [waiting, hq, List.filterMap_cons, operation?, List.length_cons] at hcount
      simp only
      omega
  case isIdle_iff => exact hm.isIdle_iff ht.order hcounted
  case pending_le =>
    intro hpos
    have hle := hm.bounded_le hpos
    have hsplit : (unbegun ((spawn limit).trace actions)).length =
        (unbegun ((spawn limit).trace actions)).countP Prod.snd +
          (unbegun ((spawn limit).trace actions)).countP fun x => !x.2 := by
      simpa using List.length_eq_countP_add_countP Prod.snd
    rw [hm.pending_eq, hsplit]
    exact Nat.add_le_add_right hle _

/-- A queue of one place: it is full for the second operation, not for the third, which does not
mind the limit; when the first has begun, the queue is still full. -/
def crowdedRun : List (Action Nat Nat Nat) :=
  [.submit true 5, .submit true 6, .submit false 7, .submit false 8, .move (.built 1),
    .move .start, .submit true 9, .shutdown]

theorem run_counts_crowdedRun : ∃ w : Worker Nat Nat Nat, (spawn 1).run? crowdedRun = some w ∧
    Counts 1 ((spawn 1).trace crowdedRun) w ∧ w.pending = 2 ∧
    unbegun ((spawn 1).trace crowdedRun) = [(1, false), (2, false)] :=
  ⟨_, rfl, run_counts rfl, rfl, rfl⟩

end Worker
end Workbench
