import Workbench.Worker.Basic

/-!
# The history of a worker

What a worker did cannot be read off its state: an operation that has left the queue is seen only in
its answer.  So a run is told once more as the list of what is noted on the way, in the order in
which it happens.

* `Advance` lists the steps of a worker, each with the phase and the queue in which it is due, and
  `Acts` what any action can do to it (`acts_of_act?`);
* `Note` is what is noted of an action, `Worker.history` all that is noted along a run;
* `InOrder` ties the history to the queue and the resource of the worker, and is kept by every
  action (`InOrder.step`).

An operation is known by its ticket and itself together, since one operation may be submitted many
times.
-/

namespace Workbench
namespace Worker

variable {ρ J A : Type}

/-! ## 1. The steps of a worker, and what others do to it -/

/-- The steps of a worker, each with the phase and the queue in which it is due. -/
inductive Advance (w : Worker ρ J A) : Move ρ A → Worker ρ J A → Prop where
  | built {r : ρ} (hp : w.phase = .building) :
      Advance w (.built r) { w with phase := .resting r, readiness := .ready }
  | buildFailed {reason : String} (hp : w.phase = .building) :
      Advance w (.buildFailed reason)
        { w with phase := .leaving none, readiness := .failed reason, health := .faulted }
  | start {r : ρ} {ticket : Nat} {j : J} {rest : List (QueueItem J)} (hp : w.phase = .resting r)
      (hq : w.queue = .job ticket j :: rest) :
      Advance w .start
        { w with
          phase := .running r ticket j, queue := rest, pending := w.pending - 1, busy := true }
  | finish {r₀ r : ρ} {ticket : Nat} {j : J} {a : A} (hp : w.phase = .running r₀ ticket j) :
      Advance w (.finish r a)
        { w with phase := .resting r, busy := false, replies := w.replies.set ticket (.value a) }
  | crash {r₀ r : ρ} {ticket : Nat} {j : J} (hp : w.phase = .running r₀ ticket j) :
      Advance w (.crash r)
        { w with phase := .crashed r, busy := false, replies := w.replies.set ticket .lost }
  | poison {r : ρ} (hp : w.phase = .crashed r) :
      Advance w .poison { w with phase := .leaving (some r), health := .faulted }
  | takeStop {r : ρ} {rest : List (QueueItem J)} (hp : w.phase = .resting r)
      (hq : w.queue = .stop :: rest) :
      Advance w .takeStop { w with phase := .leaving (some r), queue := rest }
  | notice {r : ρ} (hp : w.phase = .resting r) (hq : w.queue = []) (hc : w.connected = false) :
      Advance w .notice { w with phase := .leaving (some r) }
  | hangUp {r : ρ} (hp : w.phase = .leaving (some r)) :
      Advance w .hangUp
        { w with phase := .discarding r, queue := [], replies := loseQueued w.queue w.replies }
  | hangUpUnbuilt (hp : w.phase = .leaving none) :
      Advance w .hangUp
        { w with phase := .ended true, queue := [], replies := loseQueued w.queue w.replies }
  | discard {r : ρ} {crashed : Bool} (hp : w.phase = .discarding r) :
      Advance w (.discard crashed) { w with phase := .ended (!crashed || w.isFaulted) }

/-- **A worker makes no other steps**, and none in another phase. -/
theorem advance_of_advance? {w w' : Worker ρ J A} {m : Move ρ A} (h : w.advance? m = some w') :
    Advance w m w' := by
  cases m with
  | built r =>
    simp only [advance?] at h
    split at h <;> cases h
    exact .built ‹_›
  | buildFailed reason =>
    simp only [advance?] at h
    split at h <;> cases h
    exact .buildFailed ‹_›
  | start =>
    simp only [advance?] at h
    split at h <;> cases h
    exact .start ‹_› ‹_›
  | finish r a =>
    simp only [advance?] at h
    split at h <;> cases h
    exact .finish ‹_›
  | crash r =>
    simp only [advance?] at h
    split at h <;> cases h
    exact .crash ‹_›
  | poison =>
    simp only [advance?] at h
    split at h <;> cases h
    exact .poison ‹_›
  | takeStop =>
    simp only [advance?] at h
    split at h <;> cases h
    exact .takeStop ‹_› ‹_›
  | notice =>
    simp only [advance?] at h
    split at h
    · split at h <;> cases h
      exact .notice ‹_› ‹_› (by simpa using ‹¬ w.connected = true›)
    · cases h
  | hangUp =>
    simp only [advance?] at h
    split at h
    · rename_i r hp
      cases h
      cases r with
      | none => exact .hangUpUnbuilt hp
      | some r => exact .hangUp hp
    · cases h
  | discard crashed =>
    simp only [advance?] at h
    split at h <;> cases h
    exact .discard ‹_›

/-- What an action can do to a worker, and in which case. -/
inductive Acts (w : Worker ρ J A) : Action ρ J A → Worker ρ J A → Prop where
  | refused {bounded : Bool} {j : J} {e : WorkerError} (hr : w.refusal? bounded = some e) :
      Acts w (.submit bounded j) w
  | accepted {bounded : Bool} {j : J} (hr : w.refusal? bounded = none) :
      Acts w (.submit bounded j) (w.accept j)
  | shutDown (hc : w.connected = true) :
      Acts w .shutdown
        { w with
          connected := false
          health := if w.health == .running then .closed else w.health
          queue := if w.phase.listens then w.queue ++ [.stop] else w.queue }
  | shutBefore (hc : w.connected = false) : Acts w .shutdown w
  | awaited : Acts w .awaitEnd w.awaitEnd
  | abandoned (hc : w.connected = true) : Acts w .abandon w.abandon
  | moved {m : Move ρ A} {w' : Worker ρ J A} (h : Advance w m w') : Acts w (.move m) w'

/-- **An action does nothing else.** -/
theorem acts_of_act? {w w' : Worker ρ J A} {a : Action ρ J A} (hw : w.act? a = some w') :
    Acts w a w' := by
  cases a with
  | submit bounded j =>
    simp only [act?, submit_eq, Option.some.injEq] at hw
    split at hw
    · exact hw ▸ .refused ‹_›
    · exact hw ▸ .accepted ‹_›
  | shutdown =>
    simp only [act?, shutdown, Option.some.injEq] at hw
    split at hw
    · exact hw ▸ .shutDown ‹_›
    · exact hw ▸ .shutBefore (by simpa using ‹¬ w.connected = true›)
  | awaitEnd =>
    cases hw
    exact .awaited
  | abandon =>
    simp only [act?] at hw
    split at hw <;> cases hw
    exact .abandoned ‹_›
  | move m => exact .moved (advance_of_advance? hw)

/-- No answer goes missing when the queue is given up. -/
theorem length_loseQueued (queue : List (QueueItem J)) (replies : List (Reply A)) :
    (loseQueued queue replies).length = replies.length := by
  unfold loseQueued
  induction queue generalizing replies with
  | nil => rfl
  | cons item rest ih =>
    rw [List.foldl_cons, ih]
    cases item <;> simp

/-- An operation that is not refused finds a handle that is connected and a worker that listens. -/
theorem connected_of_refusal? {w : Worker ρ J A} {bounded : Bool} (h : w.refusal? bounded = none) :
    w.isFaulted = false ∧ w.connected = true ∧ w.phase.listens = true := by
  unfold refusal? at h
  split at h
  · cases h
  · split at h
    · cases h
    · split at h
      · cases h
      · split at h
        · cases h
        · simp_all

/-! ## 2. What is noted -/

/-- What is noted of an action. -/
inductive Note (ρ J A : Type) where
  /-- The construction gave a resource. -/
  | built (r : ρ)
  /-- The construction failed or crashed. -/
  | unbuilt
  | accepted (ticket : Nat) (j : J)
  /-- An operation began, on the resource as it was. -/
  | began (ticket : Nat) (j : J) (r : ρ)
  /-- An operation ended, with what it left and answered; a crash has no answer. -/
  | ended (ticket : Nat) (j : J) (r : ρ) (result : Option A)
  deriving DecidableEq, Repr

namespace Note

/-- The resource, as a construction gave it or an operation left it. -/
@[simp] def left? : Note ρ J A → Option ρ
  | built r => some r
  | ended _ _ r _ => some r
  | _ => none

@[simp] def built? : Note ρ J A → Option ρ
  | built r => some r
  | _ => none

@[simp] def accepted? : Note ρ J A → Option (Nat × J)
  | accepted ticket j => some (ticket, j)
  | _ => none

@[simp] def began? : Note ρ J A → Option (Nat × J)
  | began ticket j _ => some (ticket, j)
  | _ => none

@[simp] def ended? : Note ρ J A → Option ((Nat × J) × Option A)
  | ended ticket j _ result => some ((ticket, j), result)
  | _ => none

end Note

namespace History

/-- The resources that constructions gave. -/
def built (notes : List (Note ρ J A)) : List ρ := notes.filterMap Note.built?

/-- The accepted operations, in the order of their acceptance. -/
def accepted (notes : List (Note ρ J A)) : List (Nat × J) := notes.filterMap Note.accepted?

/-- The operations that began, in the order of their beginnings. -/
def begun (notes : List (Note ρ J A)) : List (Nat × J) := notes.filterMap Note.began?

/-- The operations that ended, with their answers, in the order of their ends. -/
def ended (notes : List (Note ρ J A)) : List ((Nat × J) × Option A) :=
  notes.filterMap Note.ended?

/-- The resource as it was left last. -/
def handed (notes : List (Note ρ J A)) : Option ρ := (notes.filterMap Note.left?).getLast?

@[simp] theorem built_singleton (n : Note ρ J A) : built [n] = n.built?.toList := by
  cases n <;> rfl

@[simp] theorem accepted_singleton (n : Note ρ J A) : accepted [n] = n.accepted?.toList := by
  cases n <;> rfl

@[simp] theorem begun_singleton (n : Note ρ J A) : begun [n] = n.began?.toList := by
  cases n <;> rfl

@[simp] theorem ended_singleton (n : Note ρ J A) : ended [n] = n.ended?.toList := by
  cases n <;> rfl

@[simp] theorem built_append (notes more : List (Note ρ J A)) :
    built (notes ++ more) = built notes ++ built more := List.filterMap_append

@[simp] theorem accepted_append (notes more : List (Note ρ J A)) :
    accepted (notes ++ more) = accepted notes ++ accepted more := List.filterMap_append

@[simp] theorem begun_append (notes more : List (Note ρ J A)) :
    begun (notes ++ more) = begun notes ++ begun more := List.filterMap_append

@[simp] theorem ended_append (notes more : List (Note ρ J A)) :
    ended (notes ++ more) = ended notes ++ ended more := List.filterMap_append

/-- What one more note says of the resource. -/
@[simp] theorem handed_concat (notes : List (Note ρ J A)) (n : Note ρ J A) :
    handed (notes ++ [n]) = n.left?.or (handed notes) := by
  unfold handed
  cases n <;> simp

end History

open History

/-- What is noted of an action that is due. -/
def note? (w : Worker ρ J A) : Action ρ J A → Option (Note ρ J A)
  | .submit bounded j =>
    match w.refusal? bounded with
    | none => some (.accepted w.replies.length j)
    | some _ => none
  | .move (.built r) => some (.built r)
  | .move (.buildFailed _) => some .unbuilt
  | .move .start =>
    match w.phase, w.queue with
    | .resting r, .job ticket j :: _ => some (.began ticket j r)
    | _, _ => none
  | .move (.finish r a) =>
    match w.phase with
    | .running _ ticket j => some (.ended ticket j r (some a))
    | _ => none
  | .move (.crash r) =>
    match w.phase with
    | .running _ ticket j => some (.ended ticket j r none)
    | _ => none
  | _ => none

/-- All that is noted along a run, as far as its actions are due. -/
def history (w : Worker ρ J A) : List (Action ρ J A) → List (Note ρ J A)
  | [] => []
  | a :: rest =>
    match w.act? a with
    | some w' => (w.note? a).toList ++ w'.history rest
    | none => []

/-- **What every action keeps, every run keeps.**  The property may speak of the history and of the
worker together. -/
theorem run?_induction {P : List (Note ρ J A) → Worker ρ J A → Prop}
    (step : ∀ notes w a w', P notes w → w.act? a = some w' → P (notes ++ (w.note? a).toList) w')
    {notes : List (Note ρ J A)} {w w' : Worker ρ J A} {actions : List (Action ρ J A)}
    (h : w.run? actions = some w') (hP : P notes w) : P (notes ++ w.history actions) w' := by
  induction actions generalizing notes w with
  | nil =>
    cases h
    simpa [history] using hP
  | cons a rest ih =>
    simp only [run?] at h
    split at h
    · rename_i w₁ hw
      have h₁ := ih h (step notes w a w₁ hP hw)
      simpa only [history, hw, List.append_assoc] using h₁
    · cases h

/-! ## 3. The order of operations -/

/-- The operation of an entry of the queue. -/
def operation? : QueueItem J → Option (Nat × J)
  | .job ticket j => some (ticket, j)
  | .stop => none

/-- The operations that wait. -/
def waiting (w : Worker ρ J A) : List (Nat × J) := w.queue.filterMap operation?

/-- The operation that is running, if there is one. -/
def underway (w : Worker ρ J A) : List (Nat × J) :=
  match w.phase with
  | .running _ ticket j => [(ticket, j)]
  | _ => []

/-- What waits after the worker was asked to stop. -/
theorem waiting_shutdown (w : Worker ρ J A) : w.shutdown.waiting = w.waiting := by
  unfold shutdown
  split
  · cases hl : w.phase.listens <;> simp [waiting, operation?]
  · rfl

theorem underway_shutdown (w : Worker ρ J A) : w.shutdown.underway = w.underway := by
  unfold shutdown
  split <;> rfl

/-- What waits after one more operation was accepted. -/
theorem waiting_accept (w : Worker ρ J A) (j : J) :
    (w.accept j).waiting = w.waiting ++ [(w.replies.length, j)] := by
  simp [waiting, accept, operation?]

/-- Where an entry stands in a list with one more entry at its end. -/
theorem concat_eq_append_cons {α : Type} {l before after : List α} {x y : α}
    (h : l ++ [y] = before ++ x :: after) :
    (after = [] ∧ l = before ∧ y = x) ∨ ∃ kept, after = kept ++ [y] ∧ l = before ++ x :: kept := by
  rcases List.eq_nil_or_concat after with rfl | ⟨kept, z, rfl⟩
  · obtain ⟨h₁, h₂⟩ := List.append_inj' h rfl
    exact Or.inl ⟨rfl, h₁, List.head_eq_of_cons_eq h₂⟩
  · have h' : l ++ [y] = (before ++ x :: kept) ++ [z] := by simpa using h
    obtain ⟨h₁, h₂⟩ := List.append_inj' h' rfl
    obtain rfl := List.head_eq_of_cons_eq h₂
    exact Or.inr ⟨kept, by simp, h₁⟩

/-- Operations begin one at a time: whenever one begins, all that began before have ended, and it
begins on the resource as the last of them, or the construction, left it. -/
def Serial (notes : List (Note ρ J A)) : Prop :=
  ∀ before ticket j r after, notes = before ++ .began ticket j r :: after →
    begun before = (ended before).map Prod.fst ∧ handed before = some r

/-- A note on anything but a beginning keeps the operations apart, and so does one on a beginning
that finds all others ended. -/
theorem Serial.concat {notes : List (Note ρ J A)} (h : Serial notes) {n : Note ρ J A}
    (hn : ∀ ticket j r, n = .began ticket j r →
      begun notes = (ended notes).map Prod.fst ∧ handed notes = some r) :
    Serial (notes ++ [n]) := by
  intro before ticket j r after he
  rcases concat_eq_append_cons he with ⟨-, rfl, rfl⟩ | ⟨kept, -, hk⟩
  · exact hn ticket j r rfl
  · exact h before ticket j r kept hk

/-- The history of a worker, its queue and its resource agree on the order of things. -/
structure InOrder (notes : List (Note ρ J A)) (w : Worker ρ J A) : Prop where
  /-- Tickets count the accepted operations. -/
  tickets : (accepted notes).map Prod.fst = List.range w.replies.length
  /-- What has begun has ended or is running. -/
  begun_eq : begun notes = (ended notes).map Prod.fst ++ w.underway
  begun_prefix : begun notes <+: accepted notes
  /-- What has not begun waits, as long as the queue is there. -/
  accepted_eq : w.phase.listens = true → accepted notes = begun notes ++ w.waiting
  /-- The request to stop is the last entry of the queue, and comes from the handle's end. -/
  stop_last : ∀ before after, w.queue = before ++ .stop :: after →
    after = [] ∧ w.connected = false
  handed_eq : ∀ r, w.phase.resource? = some r → handed notes = some r
  built_le : (built notes).length ≤ 1
  not_built : w.phase = .building → built notes = []
  serial : Serial notes

theorem InOrder.spawn (limit : Nat) : InOrder [] (spawn limit : Worker ρ J A) where
  tickets := rfl
  begun_eq := rfl
  begun_prefix := List.prefix_rfl
  accepted_eq _ := rfl
  stop_last before after h := by simp [Worker.spawn] at h
  handed_eq r h := by simp [Worker.spawn, Phase.resource?] at h
  built_le := Nat.zero_le _
  not_built _ := rfl
  serial before ticket j r after h := by simp at h

/-- **An accepted operation goes to the end of the queue**, with the next ticket. -/
theorem InOrder.accept {notes : List (Note ρ J A)} {w : Worker ρ J A} (h : InOrder notes w)
    {bounded : Bool} (hr : w.refusal? bounded = none) (j : J) :
    InOrder (notes ++ [.accepted w.replies.length j]) (w.accept j) := by
  obtain ⟨-, hc, hl⟩ := connected_of_refusal? hr
  constructor
  case tickets => simp [h.tickets, Worker.accept, List.range_succ]
  case begun_eq => simpa [underway, Worker.accept] using h.begun_eq
  case begun_prefix => simpa using h.begun_prefix.trans (List.prefix_append _ _)
  case accepted_eq =>
    intro _
    rw [waiting_accept]
    simp [h.accepted_eq hl]
  case stop_last =>
    intro before after hq
    rcases concat_eq_append_cons hq with ⟨-, -, hx⟩ | ⟨kept, rfl, hk⟩
    · cases hx
    · rw [(h.stop_last before kept hk).2] at hc
      cases hc
  case handed_eq =>
    intro r hr
    simpa using h.handed_eq r hr
  case built_le => simpa using h.built_le
  case not_built =>
    intro hp
    simpa using h.not_built hp
  case serial => exact h.serial.concat fun _ _ _ he => by cases he

/-- An action that is not noted keeps the order, if it starts no operation, makes no resource, and
puts nothing behind a request to stop. -/
theorem InOrder.silent {notes : List (Note ρ J A)} {w w' : Worker ρ J A} (h : InOrder notes w)
    (hn : w'.replies.length = w.replies.length) (hu : w'.underway = w.underway)
    (hl : w'.phase.listens = true → w.phase.listens = true ∧ w'.waiting = w.waiting)
    (hs : ∀ before after, w'.queue = before ++ .stop :: after → after = [] ∧ w'.connected = false)
    (hr : ∀ r, w'.phase.resource? = some r → w.phase.resource? = some r)
    (hb : w'.phase = .building → w.phase = .building) : InOrder notes w' where
  tickets := by rw [hn]; exact h.tickets
  begun_eq := by rw [hu]; exact h.begun_eq
  begun_prefix := h.begun_prefix
  accepted_eq hp := by rw [(hl hp).2]; exact h.accepted_eq (hl hp).1
  stop_last := hs
  handed_eq r hp := h.handed_eq r (hr r hp)
  built_le := h.built_le
  not_built hp := h.not_built (hb hp)
  serial := h.serial

/-- **The request to stop goes behind everything else.** -/
theorem InOrder.shutDown {notes : List (Note ρ J A)} {w : Worker ρ J A} (h : InOrder notes w)
    (hc : w.connected = true) :
    InOrder notes
      { w with
        connected := false
        health := if w.health == .running then .closed else w.health
        queue := if w.phase.listens then w.queue ++ [.stop] else w.queue } := by
  have hq : ∀ before after, w.queue ++ [.stop] = before ++ .stop :: after → after = [] := by
    intro before after he
    rcases concat_eq_append_cons he with ⟨rfl, -, -⟩ | ⟨kept, -, hk⟩
    · rfl
    · rw [(h.stop_last before kept hk).2] at hc
      cases hc
  have hwaiting := waiting_shutdown w
  simp only [Worker.shutdown, hc, if_true] at hwaiting
  refine h.silent rfl rfl (fun hl => ⟨hl, hwaiting⟩) (fun before after he => ⟨?_, rfl⟩)
    (fun r hr => hr) id
  cases hl : w.phase.listens with
  | true =>
    simp only [hl, if_true] at he
    exact hq before after he
  | false =>
    simp only [hl, Bool.false_eq_true, if_false] at he
    exact (h.stop_last before after he).1

/-- **The construction gives the resource** on which the operations work from then on. -/
theorem InOrder.built {notes : List (Note ρ J A)} {w : Worker ρ J A} (h : InOrder notes w) {r : ρ}
    (hp : w.phase = .building) :
    InOrder (notes ++ [.built r]) { w with phase := .resting r, readiness := .ready } := by
  constructor
  case tickets => simpa using h.tickets
  case begun_eq => simpa [underway, hp] using h.begun_eq
  case begun_prefix => simpa using h.begun_prefix
  case accepted_eq =>
    intro _
    simpa [waiting] using h.accepted_eq (by rw [hp]; rfl)
  case stop_last => exact h.stop_last
  case handed_eq =>
    intro r' hr
    simpa [Phase.resource?] using hr
  case built_le => simp [h.not_built hp]
  case not_built =>
    intro hp'
    cases hp'
  case serial => exact h.serial.concat fun _ _ _ he => by cases he

/-- A construction that fails leaves nothing to work on. -/
theorem InOrder.unbuilt {notes : List (Note ρ J A)} {w : Worker ρ J A} (h : InOrder notes w)
    {reason : String} (hp : w.phase = .building) :
    InOrder (notes ++ [.unbuilt])
      { w with phase := .leaving none, readiness := .failed reason, health := .faulted } := by
  constructor
  case tickets => simpa using h.tickets
  case begun_eq => simpa [underway, hp] using h.begun_eq
  case begun_prefix => simpa using h.begun_prefix
  case accepted_eq =>
    intro _
    simpa [waiting] using h.accepted_eq (by rw [hp]; rfl)
  case stop_last => exact h.stop_last
  case handed_eq =>
    intro r' hr
    cases hr
  case built_le => simpa using h.built_le
  case not_built =>
    intro hp'
    cases hp'
  case serial => exact h.serial.concat fun _ _ _ he => by cases he

/-- **The first operation of the queue begins** when no other is running. -/
theorem InOrder.began {notes : List (Note ρ J A)} {w : Worker ρ J A} (h : InOrder notes w) {r : ρ}
    {ticket : Nat} {j : J} {rest : List (QueueItem J)} (hp : w.phase = .resting r)
    (hq : w.queue = .job ticket j :: rest) :
    InOrder (notes ++ [.began ticket j r])
      { w with
        phase := .running r ticket j, queue := rest, pending := w.pending - 1, busy := true } := by
  have hu : begun notes = (ended notes).map Prod.fst := by
    have := h.begun_eq
    simpa [underway, hp] using this
  have ha : accepted notes = begun notes ++ (ticket, j) :: rest.filterMap operation? := by
    have := h.accepted_eq (by rw [hp]; rfl)
    simpa [waiting, hq, operation?] using this
  have hh : handed notes = some r := h.handed_eq r (by rw [hp]; rfl)
  constructor
  case tickets => simpa using h.tickets
  case begun_eq => simp [underway, hu]
  case begun_prefix =>
    refine ⟨rest.filterMap operation?, ?_⟩
    simp [ha]
  case accepted_eq =>
    intro _
    simp [ha, waiting]
  case stop_last =>
    intro before after he
    refine h.stop_last (.job ticket j :: before) after ?_
    rw [hq, show rest = before ++ .stop :: after from he]
    rfl
  case handed_eq =>
    intro r' hr
    cases hr
    simpa using hh
  case built_le => simpa using h.built_le
  case not_built =>
    intro hp'
    cases hp'
  case serial =>
    refine h.serial.concat fun t i r' he => ?_
    cases he
    exact ⟨hu, hh⟩

/-- **The running operation ends**, and leaves the resource to what comes after it. -/
theorem InOrder.finished {notes : List (Note ρ J A)} {w w' : Worker ρ J A} (h : InOrder notes w)
    {r₀ r : ρ} {ticket : Nat} {j : J} (result : Option A) (hp : w.phase = .running r₀ ticket j)
    (hn : w'.replies.length = w.replies.length) (hq : w'.queue = w.queue)
    (hc : w'.connected = w.connected) (hp' : w'.phase = .resting r ∨ w'.phase = .crashed r) :
    InOrder (notes ++ [.ended ticket j r result]) w' := by
  have hb : begun notes = (ended notes).map Prod.fst ++ [(ticket, j)] := by
    have := h.begun_eq
    simpa [underway, hp] using this
  have hu : w'.underway = [] := by
    rcases hp' with hp' | hp' <;> simp [underway, hp']
  constructor
  case tickets => simpa [hn] using h.tickets
  case begun_eq => simp [hu, hb]
  case begun_prefix => simpa using h.begun_prefix
  case accepted_eq =>
    intro _
    have := h.accepted_eq (by rw [hp]; rfl)
    simpa [waiting, hq] using this
  case stop_last =>
    rw [hq, hc]
    exact h.stop_last
  case handed_eq =>
    intro r' hr
    have hr' : r = r' := by
      rcases hp' with hp' | hp' <;> simpa [hp', Phase.resource?] using hr
    simp [hr']
  case built_le => simpa using h.built_le
  case not_built => rcases hp' with hp' | hp' <;> simp [hp']
  case serial => exact h.serial.concat fun _ _ _ he => by cases he

/-- **Every action keeps the order.** -/
theorem InOrder.step {notes : List (Note ρ J A)} {w w' : Worker ρ J A} {a : Action ρ J A}
    (h : InOrder notes w) (hw : w.act? a = some w') :
    InOrder (notes ++ (w.note? a).toList) w' := by
  cases acts_of_act? hw with
  | refused hr => simpa [note?, hr] using h
  | accepted hr => simpa [note?, hr] using h.accept hr _
  | shutDown hc => simpa [note?] using h.shutDown hc
  | shutBefore _ => simpa [note?] using h
  | awaited =>
    simp only [note?, Option.toList_none, List.append_nil]
    exact h.silent rfl rfl (fun hl => ⟨hl, rfl⟩) h.stop_last (fun r hr => hr) id
  | abandoned _ =>
    simp only [note?, Option.toList_none, List.append_nil]
    exact h.silent rfl rfl (fun hl => ⟨hl, rfl⟩)
      (fun before after he => ⟨(h.stop_last before after he).1, rfl⟩) (fun r hr => hr) id
  | moved hm =>
    cases hm with
    | built hp => exact h.built hp
    | buildFailed hp => exact h.unbuilt hp
    | start hp hq => simpa [note?, hp, hq] using h.began hp hq
    | @finish r₀ r _ _ a hp =>
      simp only [note?, hp, Option.toList_some]
      exact h.finished (some a) hp (by simp) rfl rfl (Or.inl rfl)
    | crash hp =>
      simp only [note?, hp, Option.toList_some]
      exact h.finished none hp (by simp) rfl rfl (Or.inr rfl)
    | poison hp =>
      simp only [note?, Option.toList_none, List.append_nil]
      exact h.silent rfl (by simp [underway, hp]) (fun _ => ⟨by rw [hp]; rfl, rfl⟩) h.stop_last
        (fun r hr => by simpa [hp, Phase.resource?] using hr) (fun hb => by cases hb)
    | takeStop hp hq =>
      simp only [note?, Option.toList_none, List.append_nil]
      have hs := (h.stop_last [] _ hq).1
      exact h.silent rfl (by simp [underway, hp])
        (fun _ => ⟨by rw [hp]; rfl, by simp [waiting, hq, hs, List.filterMap_cons, operation?]⟩)
        (by simp [hs])
        (fun r hr => by simpa [hp, Phase.resource?] using hr) (fun hb => by cases hb)
    | notice hp hq hc =>
      simp only [note?, Option.toList_none, List.append_nil]
      exact h.silent rfl (by simp [underway, hp]) (fun _ => ⟨by rw [hp]; rfl, rfl⟩) h.stop_last
        (fun r hr => by simpa [hp, Phase.resource?] using hr) (fun hb => by cases hb)
    | hangUp hp =>
      simp only [note?, Option.toList_none, List.append_nil]
      exact h.silent (length_loseQueued _ _) (by simp [underway, hp]) (fun hl => by cases hl)
        (by simp) (fun r hr => by simpa [hp, Phase.resource?] using hr) (fun hb => by cases hb)
    | hangUpUnbuilt hp =>
      simp only [note?, Option.toList_none, List.append_nil]
      exact h.silent (length_loseQueued _ _) (by simp [underway, hp]) (fun hl => by cases hl)
        (by simp) (fun r hr => by cases hr) (fun hb => by cases hb)
    | discard hp =>
      simp only [note?, Option.toList_none, List.append_nil]
      exact h.silent rfl (by simp [underway, hp]) (fun hl => by cases hl) h.stop_last
        (fun r hr => by cases hr) (fun hb => by cases hb)

/-! ## 4. Tickets -/

/-- In a list that is numbered from zero, every member stands at its number. -/
theorem getElem?_of_numbered {α : Type} {l : List α} {f : α → Nat} {n : Nat}
    (h : l.map f = List.range n) {x : α} (hx : x ∈ l) : l[f x]? = some x := by
  obtain ⟨i, hi⟩ := List.getElem?_of_mem hx
  have hm : (List.range n)[i]? = some (f x) := by rw [← h, List.getElem?_map, hi]; rfl
  obtain ⟨hlt, he⟩ := List.getElem?_eq_some_iff.mp hm
  rw [List.getElem_range] at he
  rw [← he, hi]

/-- The beginning of a list that is numbered from zero. -/
theorem numbered_of_prefix {α : Type} {l m : List α} {f : α → Nat} {n : Nat}
    (h : m.map f = List.range n) (hl : l <+: m) : l.map f = List.range l.length := by
  have hp : l.map f <+: List.range n := h ▸ hl.map f
  have hle : l.length ≤ n := by simpa using hp.length_le
  rw [List.prefix_iff_eq_take.mp hp, List.take_range, List.length_map, Nat.min_eq_left hle]

namespace InOrder

variable {notes : List (Note ρ J A)} {w : Worker ρ J A}

/-- What has ended was accepted. -/
theorem ended_prefix (h : InOrder notes w) : (ended notes).map Prod.fst <+: accepted notes :=
  (List.prefix_append _ _).trans (h.begun_eq ▸ h.begun_prefix)

/-- The ended operations have the first tickets. -/
theorem ended_tickets (h : InOrder notes w) :
    (ended notes).map (fun e => e.1.1) = List.range (ended notes).length := by
  have := numbered_of_prefix h.tickets h.ended_prefix
  rw [List.map_map, List.length_map] at this
  exact this

theorem length_ended_le (h : InOrder notes w) : (ended notes).length ≤ w.replies.length := by
  have h₁ := h.ended_prefix.length_le
  have h₂ := congrArg List.length h.tickets
  simp only [List.length_map, List.length_range] at h₁ h₂
  omega

theorem lt_of_accepted (h : InOrder notes w) {ticket : Nat} {j : J}
    (hj : (ticket, j) ∈ accepted notes) : ticket < w.replies.length := by
  have hm : ticket ∈ (accepted notes).map Prod.fst := List.mem_map_of_mem hj
  rw [h.tickets] at hm
  exact List.mem_range.mp hm

/-- The running operation has been accepted. -/
theorem accepted_of_running (h : InOrder notes w) {r : ρ} {ticket : Nat} {j : J}
    (hp : w.phase = .running r ticket j) : (ticket, j) ∈ accepted notes := by
  refine h.begun_prefix.subset ?_
  rw [h.begun_eq]
  simp only [underway, hp, List.mem_append, List.mem_singleton, or_true]

/-- The running operation is the first that has not ended. -/
theorem ticket_of_running (h : InOrder notes w) {r : ρ} {ticket : Nat} {j : J}
    (hp : w.phase = .running r ticket j) :
    ticket = (ended notes).length ∧ ticket < w.replies.length := by
  have hb : begun notes = (ended notes).map Prod.fst ++ [(ticket, j)] := by
    have := h.begun_eq
    simpa [underway, hp] using this
  have hn : (begun notes).map Prod.fst = List.range (begun notes).length :=
    numbered_of_prefix h.tickets h.begun_prefix
  have hk : (List.range ((ended notes).length + 1))[(ended notes).length]? = some ticket := by
    rw [hb] at hn
    simp only [List.length_append, List.length_map, List.length_singleton] at hn
    rw [← hn]
    simp
  refine ⟨?_, h.lt_of_accepted (h.accepted_of_running hp)⟩
  simpa using hk.symm

end InOrder

end Worker
end Workbench
