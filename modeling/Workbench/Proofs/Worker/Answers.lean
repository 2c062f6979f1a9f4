import Workbench.Proofs.Worker.History

/-!
# What callers get from a worker

A caller who waits for an operation without a deadline gets what the operation answered, if it ran
to its end, and an error if it did not.  This module says which of the two it is, from the history
of the worker alone.

* `Answered`: the replies are those of the operations that ended, and behind them nothing yet, or
  nothing for ever once the queue is gone;
* `Fated`: the worker runs on until an operation crashes or the construction fails, or it has
  drained its queue after its handle was given up;
* `Doomed`: the operation crashed, or came after one that did, or there was no resource;
* `Told` is all of it together, and is kept by every action (`Told.step`); what it means for the
  callers is `Serves`.
-/

namespace Workbench
namespace Worker

open History

variable {ρ J A : Type}

/-! ## 1. Answers -/

/-- The reply that an operation leaves behind when it ends. -/
def replyOf : Option A → Reply A
  | some a => .value a
  | none => .lost

/-- The reply to an operation that has not ended. -/
def openReply (w : Worker ρ J A) : Reply A := if w.phase.listens then .waiting else .lost

/-- The replies follow the history: first those of the operations that ended, in their order, then
those of the others. -/
def Answered (notes : List (Note ρ J A)) (w : Worker ρ J A) : Prop :=
  w.replies = (ended notes).map (fun e => replyOf e.2) ++
    List.replicate (w.replies.length - (ended notes).length) w.openReply

/-- Giving up a queue loses the answers of all that has not begun. -/
theorem loseQueued_eq (queue : List (QueueItem J)) (l : List (Reply A)) (m : Nat)
    (h : (queue.filterMap operation?).map Prod.fst = List.range' l.length m) :
    loseQueued queue (l ++ List.replicate m .waiting) = l ++ List.replicate m .lost := by
  induction queue generalizing l m with
  | nil =>
    cases m with
    | zero => rfl
    | succ m => simp [List.range'_succ] at h
  | cons item rest ih =>
    cases item with
    | stop => exact ih l m h
    | job ticket j =>
      cases m with
      | zero => simp [operation?] at h
      | succ m =>
        simp only [List.filterMap_cons, operation?, List.map_cons, List.range'_succ,
          List.cons.injEq] at h
        obtain ⟨rfl, hrest⟩ := h
        have hset : (l ++ List.replicate (m + 1) (Reply.waiting : Reply A)).set l.length Reply.lost
            = (l ++ [Reply.lost]) ++ List.replicate m Reply.waiting := by
          simp [List.replicate_succ]
        have hl := ih (l ++ [Reply.lost]) m (by simpa using hrest)
        rw [← hset] at hl
        exact hl.trans (by simp [List.replicate_succ])

/-- What waits has the tickets that are left. -/
theorem InOrder.waiting_tickets {notes : List (Note ρ J A)} {w : Worker ρ J A}
    (h : InOrder notes w) (hl : w.phase.listens = true) (hu : w.underway = []) :
    w.waiting.map Prod.fst =
      List.range' (ended notes).length (w.replies.length - (ended notes).length) := by
  have hb : begun notes = (ended notes).map Prod.fst := by rw [h.begun_eq, hu, List.append_nil]
  have ht := h.tickets
  rw [h.accepted_eq hl, hb, List.map_append, List.map_map] at ht
  have hd := congrArg (List.drop (ended notes).length) ht
  rw [List.drop_left' (by simp)] at hd
  rw [hd, List.range_eq_range', List.drop_range']
  simp

/-- An action that ends no operation keeps the answers, if it touches no reply and the queue
stays. -/
theorem Answered.kept {notes notes' : List (Note ρ J A)} {w w' : Worker ρ J A}
    (ha : Answered notes w) (he : ended notes' = ended notes) (hr : w'.replies = w.replies)
    (hl : w'.phase.listens = w.phase.listens) : Answered notes' w' := by
  unfold Answered openReply
  rw [he, hr, hl]
  exact ha

/-- An accepted operation has a reply that is open, behind all the others. -/
theorem Answered.accept {notes : List (Note ρ J A)} {w : Worker ρ J A} (h : InOrder notes w)
    (ha : Answered notes w) {bounded : Bool} (hr : w.refusal? bounded = none) (j : J) :
    Answered (notes ++ [.accepted w.replies.length j]) (w.accept j) := by
  have hl := (connected_of_refusal? hr).2.2
  have hn := h.length_ended_le
  unfold Answered openReply at ha ⊢
  simp only [ended_append, ended_singleton, Note.ended?, Option.toList_none, List.append_nil]
  rw [show (w.accept j).phase.listens = true from hl]
  rw [hl] at ha
  rw [show (w.accept j).replies = w.replies ++ [Reply.waiting] from rfl, List.length_append,
    List.length_singleton, Nat.sub_add_comm hn, if_pos rfl, List.replicate_succ',
    ← List.append_assoc]
  exact congrArg (· ++ [Reply.waiting]) ha

/-- **The end of an operation fills its reply**, which is the first that is open. -/
theorem Answered.finished {notes : List (Note ρ J A)} {w w' : Worker ρ J A} (h : InOrder notes w)
    (ha : Answered notes w) {r₀ r : ρ} {ticket : Nat} {j : J} {result : Option A}
    (hp : w.phase = .running r₀ ticket j)
    (hr : w'.replies = w.replies.set ticket (replyOf result)) (hl : w'.phase.listens = true) :
    Answered (notes ++ [.ended ticket j r result]) w' := by
  obtain ⟨rfl, hlt⟩ := h.ticket_of_running hp
  obtain ⟨m, hm⟩ := Nat.exists_eq_add_of_lt hlt
  have hw : w.replies = (ended notes).map (fun e => replyOf e.2) ++
      Reply.waiting :: List.replicate m Reply.waiting := by
    have := ha
    unfold Answered openReply at this
    rw [hp, hm, show (ended notes).length + m + 1 - (ended notes).length = m + 1 by omega] at this
    exact this
  have hw' : w'.replies = (ended notes).map (fun e => replyOf e.2) ++
      replyOf result :: List.replicate m Reply.waiting := by
    rw [hr, hw, List.set_append_right _ _ (by simp)]
    simp
  unfold Answered openReply
  rw [hl, hw']
  simp [show (ended notes).length + (m + 1) - ((ended notes).length + 1) = m by omega]

/-- **A worker that gives up its queue** loses the answers that are open, and no others. -/
theorem Answered.hungUp {notes : List (Note ρ J A)} {w w' : Worker ρ J A} (h : InOrder notes w)
    (ha : Answered notes w) {r : Option ρ} (hp : w.phase = .leaving r)
    (hr : w'.replies = loseQueued w.queue w.replies) (hl : w'.phase.listens = false) :
    Answered notes w' := by
  have hw : w.replies = (ended notes).map (fun e => replyOf e.2) ++
      List.replicate (w.replies.length - (ended notes).length) Reply.waiting := by
    have := ha
    unfold Answered openReply at this
    rw [hp] at this
    exact this
  have ht := h.waiting_tickets (by rw [hp]; rfl) (by simp [underway, hp])
  unfold Answered openReply
  rw [hl, hr, length_loseQueued]
  rw [hw] at ht ⊢
  rw [loseQueued_eq _ _ _ (by simpa [waiting] using ht)]
  simp

/-- **Every action keeps the answers.** -/
theorem Answered.step {notes : List (Note ρ J A)} {w w' : Worker ρ J A} {a : Action ρ J A}
    (h : InOrder notes w) (ha : Answered notes w) (hw : w.act? a = some w') :
    Answered (notes ++ (w.note? a).toList) w' := by
  cases acts_of_act? hw with
  | refused hr => simpa [note?, hr] using ha
  | accepted hr => simpa [note?, hr] using ha.accept h hr _
  | shutDown _ | shutBefore _ | awaited | abandoned _ => exact ha.kept (by simp [note?]) rfl rfl
  | moved hm =>
    cases hm with
    | built hp => exact ha.kept (by simp [note?]) rfl (by rw [hp]; rfl)
    | buildFailed hp => exact ha.kept (by simp [note?]) rfl (by rw [hp]; rfl)
    | start hp hq => exact ha.kept (by simp [note?, hp, hq]) rfl (by rw [hp]; rfl)
    | finish hp =>
      simp only [note?, hp, Option.toList_some]
      exact ha.finished h hp rfl rfl
    | crash hp =>
      simp only [note?, hp, Option.toList_some]
      exact ha.finished h hp rfl rfl
    | poison hp => exact ha.kept (by simp [note?]) rfl (by rw [hp]; rfl)
    | takeStop hp hq => exact ha.kept (by simp [note?]) rfl (by rw [hp]; rfl)
    | notice hp hq hc => exact ha.kept (by simp [note?]) rfl (by rw [hp]; rfl)
    | hangUp hp =>
      simp only [note?, Option.toList_none, List.append_nil]
      exact ha.hungUp h hp rfl rfl
    | hangUpUnbuilt hp =>
      simp only [note?, Option.toList_none, List.append_nil]
      exact ha.hungUp h hp rfl rfl
    | discard hp => exact ha.kept (by simp [note?]) rfl (by rw [hp]; rfl)

/-- An operation that ended has its own answer. -/
theorem Answered.reply_of_ended {notes : List (Note ρ J A)} {w : Worker ρ J A}
    (h : InOrder notes w) (ha : Answered notes w) {ticket : Nat} {j : J} {result : Option A}
    (he : ((ticket, j), result) ∈ ended notes) : w.reply ticket = replyOf result := by
  have hi := getElem?_of_numbered h.ended_tickets he
  have hlt : ticket < (ended notes).length := (List.getElem?_eq_some_iff.mp hi).1
  unfold reply
  rw [ha, List.getElem?_append_left (by simpa using hlt), List.getElem?_map, hi]
  rfl

/-- The operations that have not ended have the later tickets. -/
theorem InOrder.length_ended_le_ticket {notes : List (Note ρ J A)} {w : Worker ρ J A}
    (h : InOrder notes w) {ticket : Nat} {j : J} (hj : (ticket, j) ∈ accepted notes)
    (he : (ticket, j) ∉ (ended notes).map Prod.fst) : (ended notes).length ≤ ticket := by
  refine Nat.le_of_not_lt fun hc => he ?_
  have hi := getElem?_of_numbered h.tickets hj
  have hk : ticket < ((ended notes).map Prod.fst).length := by simpa using hc
  have hi' := List.prefix_iff_getElem?.mp h.ended_prefix ticket hk
  rw [hi, Option.some.injEq] at hi'
  rw [hi']
  exact List.getElem_mem hk

/-- An operation that has not ended is still open, or lost with the queue. -/
theorem Answered.reply_of_open {notes : List (Note ρ J A)} {w : Worker ρ J A}
    (h : InOrder notes w) (ha : Answered notes w) {ticket : Nat} {j : J}
    (hj : (ticket, j) ∈ accepted notes) (he : (ticket, j) ∉ (ended notes).map Prod.fst) :
    w.reply ticket = w.openReply := by
  have hlt := h.lt_of_accepted hj
  have hge := h.length_ended_le_ticket hj he
  unfold reply
  rw [ha, List.getElem?_append_right (by simpa using hge), List.getElem?_replicate,
    if_pos (by simp only [List.length_map]; omega)]
  rfl

/-- Only an operation that ran to its end has a value. -/
theorem Answered.ended_of_value {notes : List (Note ρ J A)} {w : Worker ρ J A}
    (h : InOrder notes w) (ha : Answered notes w) {ticket : Nat} {j : J} {a : A}
    (hj : (ticket, j) ∈ accepted notes) (hv : w.reply ticket = .value a) :
    ((ticket, j), some a) ∈ ended notes := by
  by_cases he : (ticket, j) ∈ (ended notes).map Prod.fst
  · obtain ⟨⟨x, result⟩, hr, rfl⟩ := List.mem_map.mp he
    rw [ha.reply_of_ended h hr] at hv
    cases result with
    | none => cases hv
    | some b =>
      cases hv
      exact hr
  · rw [ha.reply_of_open h hj he, openReply] at hv
    split at hv <;> cases hv

/-! ## 2. How a worker comes to its end -/

/-- There was no failed construction and no crash. -/
def Sound (notes : List (Note ρ J A)) : Prop :=
  .unbuilt ∉ notes ∧ ∀ e ∈ ended notes, e.2 ≠ none

/-- The operation that ended last crashed, and it is the only one. -/
def Crashed (notes : List (Note ρ J A)) : Prop :=
  .unbuilt ∉ notes ∧ ∃ before x, ended notes = before ++ [(x, none)] ∧ ∀ e ∈ before, e.2 ≠ none

/-- There never was a resource. -/
def Unbuilt (notes : List (Note ρ J A)) : Prop := .unbuilt ∈ notes ∧ ended notes = []

/-- All that was accepted has run, and nothing more can be accepted. -/
def Drained (notes : List (Note ρ J A)) (w : Worker ρ J A) : Prop :=
  Sound notes ∧ (ended notes).map Prod.fst = accepted notes ∧ w.connected = false

/-- The worker is known to have faulted, and did: there was no resource, or an operation crashed. -/
def Faulted (notes : List (Note ρ J A)) (w : Worker ρ J A) : Prop :=
  (Unbuilt notes ∨ Crashed notes) ∧ w.isFaulted = true

/-- Where the worker stands tells what it went through. -/
def Fated (notes : List (Note ρ J A)) (w : Worker ρ J A) : Prop :=
  match w.phase with
  | .building => Sound notes ∧ ended notes = [] ∧ w.isFaulted = false
  | .resting _ => Sound notes ∧ w.isFaulted = false
  | .running _ _ _ => Sound notes ∧ w.isFaulted = false
  | .crashed _ => Crashed notes ∧ w.isFaulted = false
  | .leaving none => Faulted notes w
  | .leaving (some _) => Faulted notes w ∨ Drained notes w ∧ w.isFaulted = false
  | .discarding _ => Faulted notes w ∨ Drained notes w ∧ w.isFaulted = false
  | .ended _ => Faulted notes w ∨ Drained notes w ∧ w.isFaulted = false

section Quiet

/- Notes on neither an end nor a failed construction change no verdict. -/
variable {notes more : List (Note ρ J A)} (he : ended more = []) (hu : .unbuilt ∉ more)
include he hu

theorem sound_append : Sound (notes ++ more) ↔ Sound notes := by
  simp [Sound, he, hu]

theorem crashed_append : Crashed (notes ++ more) ↔ Crashed notes := by
  simp [Crashed, he, hu]

theorem unbuilt_append : Unbuilt (notes ++ more) ↔ Unbuilt notes := by
  simp [Unbuilt, he, hu]

theorem Faulted.append {w w' : Worker ρ J A} (h : Faulted notes w)
    (hf : w'.isFaulted = w.isFaulted) : Faulted (notes ++ more) w' := by
  refine ⟨?_, hf ▸ h.2⟩
  rw [unbuilt_append he hu, crashed_append he hu]
  exact h.1

/-- Once the handle is given up, nothing more is accepted. -/
theorem Drained.append {w w' : Worker ρ J A} (h : Drained notes w)
    (hc : w.connected = false → accepted more = [] ∧ w'.connected = false) :
    Drained (notes ++ more) w' := by
  obtain ⟨hs, ha, hw⟩ := h
  obtain ⟨hm, hw'⟩ := hc hw
  exact ⟨(sound_append he hu).mpr hs, by simpa [he, hm] using ha, hw'⟩

/-- An action that leaves the worker where it is changes nothing in its fate. -/
theorem Fated.append {w w' : Worker ρ J A} (h : Fated notes w) (hp : w'.phase = w.phase)
    (hf : w'.isFaulted = w.isFaulted)
    (hc : w.connected = false → accepted more = [] ∧ w'.connected = false) :
    Fated (notes ++ more) w' := by
  have hd : (Faulted notes w ∨ Drained notes w ∧ w.isFaulted = false) →
      Faulted (notes ++ more) w' ∨ Drained (notes ++ more) w' ∧ w'.isFaulted = false := by
    rintro (hd | ⟨hd, hn⟩)
    · exact Or.inl (hd.append he hu hf)
    · exact Or.inr ⟨hd.append he hu hc, hf ▸ hn⟩
  unfold Fated at h ⊢
  rw [hp]
  cases hw : w.phase with
  | building =>
    rw [hw] at h
    exact ⟨(sound_append he hu).mpr h.1, by simp [h.2.1, he], hf ▸ h.2.2⟩
  | resting r =>
    rw [hw] at h
    exact ⟨(sound_append he hu).mpr h.1, hf ▸ h.2⟩
  | running r ticket j =>
    rw [hw] at h
    exact ⟨(sound_append he hu).mpr h.1, hf ▸ h.2⟩
  | crashed r =>
    rw [hw] at h
    exact ⟨(crashed_append he hu).mpr h.1, hf ▸ h.2⟩
  | leaving r =>
    rw [hw] at h
    cases r with
    | none => exact h.append he hu hf
    | some r => exact hd h
  | discarding r =>
    rw [hw] at h
    exact hd h
  | ended said =>
    rw [hw] at h
    exact hd h

end Quiet

theorem Fated.spawn (limit : Nat) : Fated [] (spawn limit : Worker ρ J A) :=
  ⟨⟨by simp, by simp [ended]⟩, rfl, rfl⟩

/-- Nobody but the worker itself makes it fault. -/
theorem isFaulted_shutdown (w : Worker ρ J A) : w.shutdown.isFaulted = w.isFaulted := by
  unfold shutdown
  split
  · cases hh : w.health <;> (unfold isFaulted; rw [hh]; rfl)
  · rfl

/-- A worker that rests with nothing to do has done all that was accepted. -/
theorem InOrder.ended_of_resting {notes : List (Note ρ J A)} {w : Worker ρ J A}
    (h : InOrder notes w) {r : ρ} (hp : w.phase = .resting r) (hw : w.waiting = []) :
    (ended notes).map Prod.fst = accepted notes := by
  rw [h.accepted_eq (by rw [hp]; rfl), h.begun_eq, hw]
  simp [underway, hp]

/-- **Every action keeps the worker to its fate.** -/
theorem Fated.step {notes : List (Note ρ J A)} {w w' : Worker ρ J A} {a : Action ρ J A}
    (h : InOrder notes w) (hf : Fated notes w) (hw : w.act? a = some w') :
    Fated (notes ++ (w.note? a).toList) w' := by
  cases acts_of_act? hw with
  | refused hr => simpa [note?, hr] using hf
  | accepted hr =>
    refine hf.append (by simp [note?, hr]) (by simp [note?, hr]) rfl rfl fun hc => ?_
    rw [(connected_of_refusal? hr).2.1] at hc
    cases hc
  | shutDown hc =>
    have hfaulted := w.isFaulted_shutdown
    simp only [shutdown, hc, if_true] at hfaulted
    exact hf.append (by simp [note?, ended]) (by simp [note?]) rfl hfaulted
      fun _ => ⟨by simp [note?, accepted], rfl⟩
  | shutBefore _ | awaited =>
    exact hf.append (by simp [note?, ended]) (by simp [note?]) rfl rfl
      fun hc => ⟨by simp [note?, accepted], hc⟩
  | abandoned _ =>
    exact hf.append (by simp [note?, ended]) (by simp [note?]) rfl rfl
      fun _ => ⟨by simp [note?, accepted], rfl⟩
  | moved hm =>
    cases hm with
    | built hp =>
      simp only [Fated, hp] at hf
      exact ⟨(sound_append (by simp [note?]) (by simp [note?])).mpr hf.1, hf.2.2⟩
    | buildFailed hp =>
      simp only [Fated, hp] at hf
      exact ⟨Or.inl ⟨by simp [note?], by simp [note?, hf.2.1]⟩, rfl⟩
    | start hp hq =>
      simp only [Fated, hp] at hf
      exact ⟨(sound_append (by simp [note?, hp, hq]) (by simp [note?, hp, hq])).mpr hf.1, hf.2⟩
    | finish hp =>
      simp only [Fated, hp] at hf
      simp only [note?, hp, Option.toList_some]
      refine ⟨⟨by simp [hf.1.1], fun e he => ?_⟩, hf.2⟩
      simp only [ended_append, ended_singleton, List.mem_append] at he
      rcases he with he | he
      · exact hf.1.2 e he
      · simp_all
    | crash hp =>
      simp only [Fated, hp] at hf
      simp only [note?, hp, Option.toList_some]
      exact ⟨⟨by simp [hf.1.1], ended notes, _, by simp; rfl, hf.1.2⟩, hf.2⟩
    | poison hp =>
      simp only [Fated, hp] at hf
      simp only [note?, Option.toList_none, List.append_nil]
      exact Or.inl ⟨Or.inr hf.1, rfl⟩
    | takeStop hp hq =>
      simp only [Fated, hp] at hf
      simp only [note?, Option.toList_none, List.append_nil]
      obtain ⟨rfl, hc⟩ := h.stop_last [] _ hq
      exact Or.inr ⟨⟨hf.1, h.ended_of_resting hp (by simp [waiting, hq, operation?]), hc⟩, hf.2⟩
    | notice hp hq hc =>
      simp only [Fated, hp] at hf
      simp only [note?, Option.toList_none, List.append_nil]
      exact Or.inr ⟨⟨hf.1, h.ended_of_resting hp (by simp [waiting, hq]), hc⟩, hf.2⟩
    | hangUp hp =>
      simp only [Fated, hp] at hf
      simp only [note?, Option.toList_none, List.append_nil]
      exact hf
    | hangUpUnbuilt hp =>
      simp only [Fated, hp] at hf
      simp only [note?, Option.toList_none, List.append_nil]
      exact Or.inl hf
    | discard hp =>
      simp only [Fated, hp] at hf
      simp only [note?, Option.toList_none, List.append_nil]
      exact hf

/-- A history knows at most one disaster. -/
theorem Fated.verdict {notes : List (Note ρ J A)} {w : Worker ρ J A} (hf : Fated notes w) :
    Sound notes ∨ Crashed notes ∨ Unbuilt notes := by
  have hd : (Faulted notes w ∨ Drained notes w ∧ w.isFaulted = false) →
      Sound notes ∨ Crashed notes ∨ Unbuilt notes := by
    rintro (⟨hu | hc, -⟩ | ⟨⟨hs, -⟩, -⟩)
    · exact Or.inr (Or.inr hu)
    · exact Or.inr (Or.inl hc)
    · exact Or.inl hs
  unfold Fated at hf
  split at hf
  · exact Or.inl hf.1
  · exact Or.inl hf.1
  · exact Or.inl hf.1
  · exact Or.inr (Or.inl hf.1)
  · exact hd (Or.inl hf)
  · exact hd hf
  · exact hd hf
  · exact hd hf

/-- A worker without a queue has faulted, or has drained it. -/
theorem Fated.of_deaf {notes : List (Note ρ J A)} {w : Worker ρ J A} (hf : Fated notes w)
    (hl : w.phase.listens = false) :
    Faulted notes w ∨ Drained notes w ∧ w.isFaulted = false := by
  cases hp : w.phase with
  | building => simp [hp, Phase.listens] at hl
  | resting r => simp [hp, Phase.listens] at hl
  | running r ticket j => simp [hp, Phase.listens] at hl
  | crashed r => simp [hp, Phase.listens] at hl
  | leaving r => simp [hp, Phase.listens] at hl
  | discarding r => simpa [Fated, hp] using hf
  | ended said => simpa [Fated, hp] using hf

/-! ## 3. Operations without an answer -/

/-- The operation crashed, or it is behind one that did, or there is no resource for it. -/
def Doomed (notes : List (Note ρ J A)) (ticket : Nat) (j : J) : Prop :=
  ((ticket, j), none) ∈ ended notes ∨ (∃ x, (x, none) ∈ ended notes ∧ x.1 < ticket) ∨
    .unbuilt ∈ notes

/-- An operation ends once. -/
theorem InOrder.result_unique {notes : List (Note ρ J A)} {w : Worker ρ J A} (h : InOrder notes w)
    {x : Nat × J} {result result' : Option A} (hr : (x, result) ∈ ended notes)
    (hr' : (x, result') ∈ ended notes) : result = result' := by
  have h₁ := getElem?_of_numbered h.ended_tickets hr
  have h₂ := getElem?_of_numbered h.ended_tickets hr'
  simp only at h₁ h₂
  rw [h₁] at h₂
  cases h₂
  rfl

section Verdicts

variable {notes : List (Note ρ J A)} {w : Worker ρ J A} (h : InOrder notes w) (hf : Fated notes w)
include h hf

/-- The crash is the last thing that ended. -/
theorem ticket_le_of_crash {x : Nat × J} (hx : (x, none) ∈ ended notes) :
    (ended notes).length ≤ x.1 + 1 := by
  rcases hf.verdict with hs | hc | hu
  · exact absurd rfl (hs.2 _ hx)
  · obtain ⟨-, before, y, he, hb⟩ := hc
    have hx' := hx
    rw [he, List.mem_append, List.mem_singleton] at hx'
    rcases hx' with hx' | hx'
    · exact absurd rfl (hb _ hx')
    · obtain rfl : x = y := congrArg Prod.fst hx'
      have hi := congrArg (fun l => l[before.length]?) h.ended_tickets
      simp only [he, List.map_append, List.length_append, List.map_singleton] at hi
      simp only [List.length_singleton, List.getElem?_range (Nat.lt_succ_self _)] at hi
      rw [List.getElem?_append_right (by simp)] at hi
      simp only [List.length_map, Nat.sub_self, List.getElem?_cons_zero, Option.some.injEq] at hi
      rw [he, hi]
      simp
  · rw [hu.2] at hx
    cases hx

/-- An operation that gave a value was not doomed. -/
theorem not_doomed_of_value {ticket : Nat} {j : J} {a : A}
    (hv : ((ticket, j), some a) ∈ ended notes) : ¬ Doomed notes ticket j := by
  have hi := getElem?_of_numbered h.ended_tickets hv
  have hlt : ticket < (ended notes).length := (List.getElem?_eq_some_iff.mp hi).1
  rintro (hc | ⟨x, hx, hxt⟩ | hu)
  · have := h.result_unique hv hc
    cases this
  · have := ticket_le_of_crash h hf hx
    omega
  · rcases hf.verdict with hs | hc | hb
    · exact hs.1 hu
    · exact hc.1 hu
    · rw [hb.2] at hv
      cases hv

/-- **An operation that lost its answer was doomed.** -/
theorem doomed_of_lost (ha : Answered notes w) {ticket : Nat} {j : J}
    (hj : (ticket, j) ∈ accepted notes) (hl : w.reply ticket = .lost) : Doomed notes ticket j := by
  by_cases he : (ticket, j) ∈ (ended notes).map Prod.fst
  · obtain ⟨⟨x, result⟩, hr, rfl⟩ := List.mem_map.mp he
    have hreply := ha.reply_of_ended h hr
    rw [hl] at hreply
    cases result with
    | none => exact Or.inl hr
    | some a => cases hreply
  · have hreply := ha.reply_of_open h hj he
    rw [hl] at hreply
    have hdeaf : w.phase.listens = false := by
      unfold openReply at hreply
      split at hreply
      · cases hreply
      · simpa using ‹¬ w.phase.listens = true›
    have hge := h.length_ended_le_ticket hj he
    rcases hf.of_deaf hdeaf with ⟨hu | hc, -⟩ | ⟨⟨-, hd, -⟩, -⟩
    · exact Or.inr (Or.inr hu.1)
    · obtain ⟨-, before, x, hx, -⟩ := hc
      have hmem : (x, none) ∈ ended notes := by simp [hx]
      have hi := getElem?_of_numbered h.ended_tickets hmem
      have hlt : x.1 < (ended notes).length := (List.getElem?_eq_some_iff.mp hi).1
      exact Or.inr (Or.inl ⟨x, hmem, by omega⟩)
    · rw [hd] at he
      exact absurd hj he

end Verdicts

/-! ## 4. The end of the work -/

/-- The worker has nothing to do: no step of its own is due. -/
def Settled (w : Worker ρ J A) : Prop := ∀ m, w.advance? m = none

/-- What a worker has still to do, if nobody calls: two steps for each entry of the queue, and those
that end it. -/
def load (w : Worker ρ J A) : Nat :=
  2 * w.queue.length +
    match w.phase with
    | .building => 5
    | .resting _ => 4
    | .running _ _ _ => 5
    | .crashed _ => 3
    | .leaving _ => 2
    | .discarding _ => 1
    | .ended _ => 0

/-- **Each step of the worker takes from its load.** -/
theorem load_advance? {w w' : Worker ρ J A} {m : Move ρ A} (h : w.advance? m = some w') :
    w'.load < w.load := by
  cases advance_of_advance? h with
  | built hp => simp [load, hp]
  | buildFailed hp => simp [load, hp]
  | start hp hq =>
    simp only [load, hp, hq, List.length_cons]
    omega
  | finish hp => simp [load, hp]
  | crash hp => simp [load, hp]
  | poison hp => simp [load, hp]
  | takeStop hp hq =>
    simp only [load, hp, hq, List.length_cons]
    omega
  | notice hp hq hc => simp [load, hp]
  | hangUp hp =>
    simp only [load, hp, List.length_nil]
    omega
  | hangUpUnbuilt hp =>
    simp only [load, hp, List.length_nil]
    omega
  | discard hp => simp [load, hp]

/-- Left alone, a worker comes to rest. -/
theorem length_moves_le_load {w w' : Worker ρ J A} {moves : List (Move ρ A)}
    (h : w.run? (moves.map .move) = some w') : moves.length + w'.load ≤ w.load := by
  induction moves generalizing w with
  | nil =>
    cases h
    simp
  | cons m rest ih =>
    simp only [List.map_cons, run?] at h
    split at h
    · rename_i w₁ hw
      have h₁ := load_advance? hw
      have h₂ := ih h
      simp only [List.length_cons]
      omega
    · cases h

/-- A worker with nothing to do waits for its handle, or has ended. -/
theorem Settled.cases {w : Worker ρ J A} (h : Settled w) :
    (∃ r, w.phase = .resting r ∧ w.queue = [] ∧ w.connected = true) ∨
      ∃ said, w.phase = .ended said := by
  cases hp : w.phase with
  | building =>
    have := h (.buildFailed "")
    simp [advance?, hp] at this
  | resting r =>
    refine Or.inl ⟨r, rfl, ?_⟩
    cases hq : w.queue with
    | nil =>
      have := h .notice
      simpa [advance?, hp, hq] using this
    | cons item rest =>
      cases item with
      | job ticket j =>
        have := h .start
        simp [advance?, hp, hq] at this
      | stop =>
        have := h .takeStop
        simp [advance?, hp, hq] at this
  | running r ticket j =>
    have := h (.crash r)
    simp [advance?, hp] at this
  | crashed r =>
    have := h .poison
    simp [advance?, hp] at this
  | leaving r =>
    have := h .hangUp
    simp [advance?, hp] at this
  | discarding r =>
    have := h (.discard false)
    simp [advance?, hp] at this
  | ended said => exact Or.inr ⟨said, rfl⟩

/-- **A worker with nothing to do has answered every operation.** -/
theorem Settled.reply_ne_waiting {notes : List (Note ρ J A)} {w : Worker ρ J A} (hs : Settled w)
    (h : InOrder notes w) (ha : Answered notes w) {ticket : Nat} {j : J}
    (hj : (ticket, j) ∈ accepted notes) : w.reply ticket ≠ .waiting := by
  intro hreply
  by_cases he : (ticket, j) ∈ (ended notes).map Prod.fst
  · obtain ⟨⟨x, result⟩, hr, rfl⟩ := List.mem_map.mp he
    rw [ha.reply_of_ended h hr] at hreply
    cases result <;> cases hreply
  · rcases hs.cases with ⟨r, hp, hq, -⟩ | ⟨said, hp⟩
    · rw [h.ended_of_resting hp (by simp [waiting, hq])] at he
      exact he hj
    · rw [ha.reply_of_open h hj he] at hreply
      simp [openReply, hp, Phase.listens] at hreply

/-! ## 5. What the history tells of a worker -/

/-- The construction is over when it was told how it ended, and a worker without a resource has
faulted. -/
def Readied (w : Worker ρ J A) : Prop :=
  (w.phase = .building → w.readiness = .building) ∧
    ∀ reason, w.readiness = .failed reason → w.isFaulted = true

theorem Readied.step {w w' : Worker ρ J A} {a : Action ρ J A} (h : Readied w)
    (hw : w.act? a = some w') : Readied w' := by
  obtain ⟨hb, hf⟩ := h
  cases acts_of_act? hw with
  | shutDown hc =>
    have hfaulted := w.isFaulted_shutdown
    simp only [shutdown, hc, if_true] at hfaulted
    exact ⟨hb, fun reason hr => hfaulted.trans (hf reason hr)⟩
  | refused _ | accepted _ | shutBefore _ | awaited | abandoned _ => exact ⟨hb, hf⟩
  | moved hm =>
    cases hm with
    | built hp => exact ⟨by rintro ⟨⟩, by rintro reason ⟨⟩⟩
    | buildFailed hp => exact ⟨by rintro ⟨⟩, fun _ _ => rfl⟩
    | poison hp => exact ⟨by rintro ⟨⟩, fun _ _ => rfl⟩
    | start hp hq => exact ⟨by rintro ⟨⟩, hf⟩
    | finish hp => exact ⟨by rintro ⟨⟩, hf⟩
    | crash hp => exact ⟨by rintro ⟨⟩, hf⟩
    | takeStop hp hq => exact ⟨by rintro ⟨⟩, hf⟩
    | notice hp hq hc => exact ⟨by rintro ⟨⟩, hf⟩
    | hangUp hp => exact ⟨by rintro ⟨⟩, hf⟩
    | hangUpUnbuilt hp => exact ⟨by rintro ⟨⟩, hf⟩
    | discard hp => exact ⟨by rintro ⟨⟩, hf⟩

/-- How the construction ended does not change any more. -/
theorem Readied.readiness_eq {w w' : Worker ρ J A} {a : Action ρ J A} (h : Readied w)
    (hw : w.act? a = some w') (hr : w.readiness ≠ .building) : w'.readiness = w.readiness := by
  cases acts_of_act? hw with
  | moved hm =>
    cases hm with
    | built hp => exact absurd (h.1 hp) hr
    | buildFailed hp => exact absurd (h.1 hp) hr
    | _ => rfl
  | _ => rfl

/-- Only a handle that is given up is not connected any more. -/
theorem connected_act? {w w' : Worker ρ J A} {a : Action ρ J A} (hw : w.act? a = some w')
    (hs : a ≠ .shutdown) (ha : a ≠ .abandon) : w'.connected = w.connected := by
  cases acts_of_act? hw with
  | shutDown _ => exact absurd rfl hs
  | abandoned _ => exact absurd rfl ha
  | moved hm => cases hm <;> rfl
  | _ => rfl

/-- A handle that was given up stays so. -/
theorem disconnected_act? {w w' : Worker ρ J A} {a : Action ρ J A} (hw : w.act? a = some w')
    (hc : w.connected = false) : w'.connected = false := by
  cases acts_of_act? hw with
  | shutDown _ | abandoned _ => rfl
  | moved hm => cases hm <;> exact hc
  | _ => exact hc

/-- If the construction is noted to have failed, the worker says so. -/
def Owned (notes : List (Note ρ J A)) (w : Worker ρ J A) : Prop :=
  .unbuilt ∈ notes → ∃ reason, w.readiness = .failed reason

theorem Owned.step {notes : List (Note ρ J A)} {w w' : Worker ρ J A} {a : Action ρ J A}
    (ho : Owned notes w) (h : Readied w) (hw : w.act? a = some w') :
    Owned (notes ++ (w.note? a).toList) w' := by
  intro hu
  rcases List.mem_append.mp hu with hu | hu
  · obtain ⟨reason, hr⟩ := ho hu
    exact ⟨reason, (h.readiness_eq hw (by rw [hr]; rintro ⟨⟩)).trans hr⟩
  · cases a with
    | submit bounded j =>
      cases hr : w.refusal? bounded <;> simp [note?, hr] at hu
    | shutdown => simp [note?] at hu
    | awaitEnd => simp [note?] at hu
    | abandon => simp [note?] at hu
    | move m =>
      cases advance_of_advance? hw with
      | buildFailed hp => exact ⟨_, rfl⟩
      | start hp hq => simp [note?, hp, hq] at hu
      | finish hp => simp [note?, hp] at hu
      | crash hp => simp [note?, hp] at hu
      | _ => simp [note?] at hu

/-- What the history tells of a worker is true. -/
structure Told (notes : List (Note ρ J A)) (w : Worker ρ J A) : Prop where
  order : InOrder notes w
  answers : Answered notes w
  fate : Fated notes w
  readied : Readied w
  owned : Owned notes w

theorem Told.spawn (limit : Nat) : Told [] (spawn limit : Worker ρ J A) where
  order := InOrder.spawn limit
  answers := rfl
  fate := Fated.spawn limit
  readied := ⟨fun _ => rfl, by rintro reason ⟨⟩⟩
  owned := by rintro ⟨⟩

theorem Told.step {notes : List (Note ρ J A)} {w w' : Worker ρ J A} {a : Action ρ J A}
    (h : Told notes w) (hw : w.act? a = some w') : Told (notes ++ (w.note? a).toList) w' where
  order := h.order.step hw
  answers := h.answers.step h.order hw
  fate := h.fate.step h.order hw
  readied := h.readied.step hw
  owned := h.owned.step h.readied hw

/-- A worker that has ended does not listen. -/
theorem deaf_of_hasEnded {w : Worker ρ J A} (h : w.hasEnded = true) : w.phase.listens = false := by
  unfold hasEnded at h
  split at h
  · rename_i crashed hp
    rw [hp]
    rfl
  · cases h

/-- **A crash ends it all**: nothing begins after it. -/
theorem Told.last_of_crash {notes : List (Note ρ J A)} {w : Worker ρ J A} (h : Told notes w)
    {x : Nat × J} (hx : (x, none) ∈ ended notes) : ∃ before, begun notes = before ++ [x] := by
  have hu : w.underway = [] := by
    unfold underway
    split
    · rename_i r ticket j hp
      have hf := h.fate
      unfold Fated at hf
      rw [hp] at hf
      exact absurd rfl (hf.1.2 _ hx)
    · rfl
  rcases h.fate.verdict with hs | ⟨-, before, y, he, hb⟩ | hn
  · exact absurd rfl (hs.2 _ hx)
  · refine ⟨before.map Prod.fst, ?_⟩
    rw [h.order.begun_eq, hu, he]
    rw [he, List.mem_append, List.mem_singleton] at hx
    rcases hx with hx | hx
    · exact absurd rfl (hb _ hx)
    · cases hx
      simp
  · rw [hn.2] at hx
    cases hx

/-- **What has become of an operation when the worker has ended**: it has run, unless one in front
of it crashed or there was no resource. -/
theorem Told.ran_of_hasEnded {notes : List (Note ρ J A)} {w : Worker ρ J A} (h : Told notes w)
    (hend : w.hasEnded = true) {ticket : Nat} {j : J} (hj : (ticket, j) ∈ accepted notes) :
    (ticket, j) ∈ begun notes ∨ (∃ x, (x, none) ∈ ended notes ∧ x.1 < ticket) ∨
      ∃ reason, w.readiness = .failed reason := by
  have hb : ∀ {x}, x ∈ (ended notes).map Prod.fst → x ∈ begun notes := by
    intro x hx
    rw [h.order.begun_eq]
    exact List.mem_append_left _ hx
  by_cases he : (ticket, j) ∈ (ended notes).map Prod.fst
  · exact Or.inl (hb he)
  · have hlost : w.reply ticket = .lost := by
      rw [h.answers.reply_of_open h.order hj he, openReply, deaf_of_hasEnded hend]
      rfl
    rcases doomed_of_lost h.order h.fate h.answers hj hlost with hc | hx | hu
    · exact Or.inl (hb (List.mem_map.mpr ⟨_, hc, rfl⟩))
    · exact Or.inr (Or.inl hx)
    · exact Or.inr (Or.inr (h.owned hu))

/-! ## 6. What a worker does for its callers -/

/-- What a worker does for its callers, as told by its history. -/
structure Serves (notes : List (Note ρ J A)) (w : Worker ρ J A) : Prop where
  /-- Operations begin in the order in which they were accepted. -/
  begun_prefix : begun notes <+: accepted notes
  /-- Each operation begins at most once. -/
  begun_nodup : (begun notes).Nodup
  /-- No operation begins while another is running, and each begins on the resource as it was
  left. -/
  serial : Serial notes
  /-- There is one resource. -/
  built_le : (built notes).length ≤ 1
  /-- Who waits for an operation gets what it answered, if it ran to its end. -/
  value_iff : ∀ ticket j a, (ticket, j) ∈ accepted notes →
    (w.outcome? ticket = some (.ok a) ↔ ((ticket, j), some a) ∈ ended notes)
  /-- There is no error but for operations that crashed or came too late. -/
  error_doomed : ∀ ticket j e, (ticket, j) ∈ accepted notes →
    w.outcome? ticket = some (.error e) → e = .faulted ∧ Doomed notes ticket j
  /-- No operation gives both a value and an error. -/
  doomed_no_value : ∀ ticket j a, Doomed notes ticket j → (ticket, j) ∈ accepted notes →
    w.outcome? ticket ≠ some (.ok a)
  /-- Left alone, the worker comes to rest. -/
  rests : ∀ (moves : List (Move ρ A)) w', w.run? (moves.map .move) = some w' → moves.length ≤ w.load
  /-- At rest, everybody has an answer, and the doomed have their error. -/
  settled : Settled w → ∀ ticket j, (ticket, j) ∈ accepted notes →
    w.outcome? ticket ≠ none ∧
      (w.outcome? ticket = some (.error .faulted) ↔ Doomed notes ticket j)
  /-- Without a failure, a worker that has ended has run all that was accepted. -/
  drained : w.hasEnded = true → Sound notes → (ended notes).map Prod.fst = accepted notes

theorem Told.serves {notes : List (Note ρ J A)} {w : Worker ρ J A} (ht : Told notes w) :
    Serves notes w := by
  obtain ⟨h, ha, hf, -, -⟩ := ht
  have hvalue : ∀ ticket j a, (ticket, j) ∈ accepted notes →
      (w.outcome? ticket = some (.ok a) ↔ ((ticket, j), some a) ∈ ended notes) := by
    intro ticket j a hj
    rw [outcome?_eq_ok]
    exact ⟨ha.ended_of_value h hj, fun he => by rw [ha.reply_of_ended h he, replyOf]⟩
  have herror : ∀ ticket j e, (ticket, j) ∈ accepted notes →
      w.outcome? ticket = some (.error e) → e = .faulted ∧ Doomed notes ticket j := by
    intro ticket j e hj ho
    obtain ⟨rfl, hlost⟩ := outcome?_eq_error.mp ho
    exact ⟨rfl, doomed_of_lost h hf ha hj hlost⟩
  have hdoomed : ∀ ticket j a, Doomed notes ticket j → (ticket, j) ∈ accepted notes →
      w.outcome? ticket ≠ some (.ok a) := fun ticket j a hd hj ho =>
    not_doomed_of_value h hf ((hvalue ticket j a hj).mp ho) hd
  constructor
  case begun_prefix => exact h.begun_prefix
  case begun_nodup =>
    have hn := numbered_of_prefix h.tickets h.begun_prefix
    exact List.Pairwise.of_map Prod.fst (fun a b hne he => hne (congrArg Prod.fst he))
      (hn ▸ List.nodup_range)
  case serial => exact h.serial
  case built_le => exact h.built_le
  case value_iff => exact hvalue
  case error_doomed => exact herror
  case doomed_no_value => exact hdoomed
  case rests =>
    intro moves w' hw
    have := length_moves_le_load hw
    omega
  case settled =>
    intro hs ticket j hj
    have hn : w.outcome? ticket ≠ none := fun ho =>
      hs.reply_ne_waiting h ha hj (outcome?_eq_none.mp ho)
    refine ⟨hn, fun ho => (herror ticket j _ hj ho).2, fun hd => ?_⟩
    cases ho : w.outcome? ticket with
    | none => exact absurd ho hn
    | some o =>
      cases o with
      | ok a => exact absurd ho (hdoomed ticket j a hd hj)
      | error e => rw [(herror ticket j e hj ho).1]
  case drained =>
    intro he hs
    rcases hf.of_deaf (deaf_of_hasEnded he) with ⟨hu | hc, -⟩ | ⟨⟨-, hd, -⟩, -⟩
    · exact absurd hu.1 hs.1
    · obtain ⟨-, before, x, hx, -⟩ := hc
      exact absurd rfl (hs.2 (x, none) (by simp [hx]))
    · exact hd

/-- **Whatever happens to a worker**, and in whatever order, it runs its operations in the order of
their acceptance, one at a time and on one resource, and each caller gets the answer of its own
operation, or the error if there is none. -/
theorem run_serves {limit : Nat} {w : Worker ρ J A} {actions : List (Action ρ J A)}
    (h : (spawn limit).run? actions = some w) : Serves ((spawn limit).history actions) w := by
  have := run?_induction (P := Told) (fun _ _ _ _ hP hw => hP.step hw) h (Told.spawn limit)
  exact Told.serves (by simpa using this)

/-- Three operations on a counter: the first adds its number, the second crashes, and the third is
accepted before the crash is known.  The handle is given up when the worker has gone. -/
def crashRun : List (Action Nat Nat Nat) :=
  [.submit true 5, .move (.built 1), .submit true 0, .move .start, .move (.finish 6 6),
    .move .start, .move (.crash 6), .submit false 2, .move .poison, .move .hangUp, .shutdown,
    .move (.discard false)]

theorem run_serves_crashRun : ∃ w : Worker Nat Nat Nat, (spawn 2).run? crashRun = some w ∧
    Serves ((spawn 2).history crashRun) w ∧
    accepted ((spawn 2).history crashRun) = [(0, 5), (1, 0), (2, 2)] ∧
    w.outcome? 0 = some (.ok 6) ∧ w.outcome? 1 = some (.error .faulted) ∧
    w.outcome? 2 = some (.error .faulted) :=
  ⟨_, rfl, run_serves rfl, rfl, rfl, rfl, rfl⟩

end Worker
end Workbench
