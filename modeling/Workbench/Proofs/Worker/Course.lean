import Workbench.Proofs.Worker.Trace

/-!
# The course of a worker

A worker builds its resource once, and drops it once, whatever happens in between and in whichever
way it comes to its end.  There are many ways: it was shut down, its handle was dropped, an
operation crashed, and in each of them the drop of the resource may crash as well.

* `moves` are the worker's own steps in a run; `Rounds` and `Exit` are the parts they are made of:
  the construction and the operations that ran to their ends, and the way out;
* `Course` says for each phase which steps lie behind the worker, and is kept by every action
  (`Course.step`);
* `endAnswer?` is what is said to who asks whether the worker has ended;
* `Lives` is what follows for the resource, for every run (`run_lives`).
-/

namespace Workbench
namespace Worker

open History

variable {ρ J A : Type}

/-! ## 1. The steps of a run -/

namespace Move

/-- The step ends the construction. -/
def constructs : Move ρ A → Bool
  | built _ => true
  | buildFailed _ => true
  | _ => false

/-- The step drops the resource. -/
def discards : Move ρ A → Bool
  | discard _ => true
  | _ => false

end Move

/-- The worker's own step in an action, if it is one. -/
def Action.move? : Action ρ J A → Option (Move ρ A)
  | move m => some m
  | _ => none

/-- The worker's own steps in a run. -/
def moves (actions : List (Action ρ J A)) : List (Move ρ A) := actions.filterMap Action.move?

theorem moves_concat (actions : List (Action ρ J A)) (a : Action ρ J A) :
    moves (actions ++ [a]) = moves actions ++ a.move?.toList := by
  unfold moves
  rw [List.filterMap_append]
  cases h : a.move? <;> simp [h]

/-- The resource was built, and operations ran to their ends, one after the other. -/
inductive Rounds : List (Move ρ A) → Prop where
  | built (r : ρ) : Rounds [.built r]
  | round {l : List (Move ρ A)} (r : ρ) (a : A) : Rounds l → Rounds (l ++ [.start, .finish r a])

/-- The ways out: the request to stop is taken, nobody is there any more, or an operation
crashes. -/
inductive Exit : List (Move ρ A) → Prop where
  | stop : Exit [.takeStop]
  | alone : Exit [.notice]
  | crash (r : ρ) : Exit [.start, .crash r, .poison]

/-- The steps that lie behind a worker, by its phase. -/
def Course (l : List (Move ρ A)) : Phase ρ J → Prop
  | .building => l = []
  | .resting _ => Rounds l
  | .running _ _ _ => ∃ served, Rounds served ∧ l = served ++ [.start]
  | .crashed r => ∃ served, Rounds served ∧ l = served ++ [.start, .crash r]
  | .leaving none => ∃ reason, l = [.buildFailed reason]
  | .leaving (some _) => ∃ served exit, Rounds served ∧ Exit exit ∧ l = served ++ exit
  | .discarding _ => ∃ served exit, Rounds served ∧ Exit exit ∧ l = served ++ exit ++ [.hangUp]
  | .ended _ => (∃ reason, l = [.buildFailed reason, .hangUp]) ∨
      ∃ served exit crashed, Rounds served ∧ Exit exit ∧
        l = served ++ exit ++ [.hangUp, .discard crashed]

/-- Only the worker's own steps change its phase. -/
theorem phase_act? {w w' : Worker ρ J A} {a : Action ρ J A} (hw : w.act? a = some w')
    (ha : a.move? = none) : w'.phase = w.phase := by
  cases acts_of_act? hw with
  | moved hm => cases ha
  | _ => rfl

/-- **Every action keeps the worker on its course.** -/
theorem Course.step {l : List (Move ρ A)} {w w' : Worker ρ J A} (h : Course l w.phase)
    {a : Action ρ J A} (hw : w.act? a = some w') : Course (l ++ a.move?.toList) w'.phase := by
  cases acts_of_act? hw with
  | moved hm =>
    cases hm with
    | built hp =>
      simp only [Course, hp] at h
      subst h
      exact .built _
    | buildFailed hp =>
      simp only [Course, hp] at h
      subst h
      exact ⟨_, rfl⟩
    | start hp hq =>
      simp only [Course, hp] at h
      exact ⟨l, h, rfl⟩
    | finish hp =>
      simp only [Course, hp] at h
      obtain ⟨served, hs, rfl⟩ := h
      simpa [Course, Action.move?] using hs.round _ _
    | crash hp =>
      simp only [Course, hp] at h
      obtain ⟨served, hs, rfl⟩ := h
      exact ⟨served, hs, List.append_assoc _ _ _⟩
    | poison hp =>
      simp only [Course, hp] at h
      obtain ⟨served, hs, rfl⟩ := h
      exact ⟨served, _, hs, .crash _, List.append_assoc _ _ _⟩
    | takeStop hp hq =>
      simp only [Course, hp] at h
      exact ⟨l, _, h, .stop, rfl⟩
    | notice hp hq hc =>
      simp only [Course, hp] at h
      exact ⟨l, _, h, .alone, rfl⟩
    | hangUp hp =>
      simp only [Course, hp] at h
      obtain ⟨served, exit, hs, he, rfl⟩ := h
      exact ⟨served, exit, hs, he, rfl⟩
    | hangUpUnbuilt hp =>
      simp only [Course, hp] at h
      obtain ⟨reason, rfl⟩ := h
      exact Or.inl ⟨reason, rfl⟩
    | discard hp =>
      simp only [Course, hp] at h
      obtain ⟨served, exit, hs, he, rfl⟩ := h
      exact Or.inr ⟨served, exit, _, hs, he, List.append_assoc _ _ _⟩
  | _ =>
    rw [phase_act? hw rfl]
    simpa [Action.move?] using h

theorem course_of_run? {limit : Nat} {w : Worker ρ J A} {actions : List (Action ρ J A)}
    (h : (spawn limit).run? actions = some w) : Course (moves actions) w.phase := by
  have := run?_along (P := fun past w => Course (moves (past.map Prod.snd)) w.phase)
    (fun past w a w' hP hw => by simpa [moves_concat] using Course.step hP hw) h rfl
  rwa [actions_trace h] at this

/-! ## 2. The resource -/

/-- The steps neither end a construction nor drop a resource. -/
def Kept (l : List (Move ρ A)) : Prop := ∀ m ∈ l, m.constructs = false ∧ m.discards = false

/-- The resource was built and has not been dropped since. -/
def Held (l : List (Move ρ A)) : Prop := ∃ r kept, Kept kept ∧ l = .built r :: kept

theorem Held.append {l more : List (Move ρ A)} (h : Held l) (hm : Kept more) :
    Held (l ++ more) := by
  obtain ⟨r, kept, hk, rfl⟩ := h
  exact ⟨r, kept ++ more, List.forall_mem_append.mpr ⟨hk, hm⟩, rfl⟩

theorem Rounds.held {l : List (Move ρ A)} (h : Rounds l) : Held l := by
  induction h with
  | built r => exact ⟨r, [], by simp [Kept], rfl⟩
  | round r a _ ih => exact ih.append (by simp [Kept, Move.constructs, Move.discards])

theorem Exit.kept {l : List (Move ρ A)} (h : Exit l) : Kept l := by
  cases h <;> simp [Kept, Move.constructs, Move.discards]

/-- What the steps behind a worker say of its resource. -/
inductive Stands : List (Move ρ A) → Phase ρ J → Prop where
  | building : Stands [] .building
  | unbuilt (reason : String) {more : List (Move ρ A)} {p : Phase ρ J} (hm : more <+: [.hangUp])
      (hp : p.resource? = none) : Stands (.buildFailed reason :: more) p
  | held {l : List (Move ρ A)} {p : Phase ρ J} (hl : Held l) (hp : p.resource?.isSome = true) :
      Stands l p
  | dropped {l : List (Move ρ A)} (crashed said : Bool) (hl : Held l) :
      Stands (l ++ [.discard crashed]) (.ended said)

/-- **A worker on its course** has its resource from the construction to the drop. -/
theorem Course.stands {l : List (Move ρ A)} {p : Phase ρ J} (h : Course l p) : Stands l p := by
  have hhangUp : Kept [(.hangUp : Move ρ A)] := by simp [Kept, Move.constructs, Move.discards]
  cases p with
  | building =>
    obtain rfl := h
    exact .building
  | resting r => exact .held (Rounds.held h) rfl
  | running r ticket j =>
    obtain ⟨served, hs, rfl⟩ := h
    exact .held (hs.held.append (by simp [Kept, Move.constructs, Move.discards])) rfl
  | crashed r =>
    obtain ⟨served, hs, rfl⟩ := h
    exact .held (hs.held.append (by simp [Kept, Move.constructs, Move.discards])) rfl
  | leaving r =>
    cases r with
    | none =>
      obtain ⟨reason, rfl⟩ := h
      exact .unbuilt reason List.nil_prefix rfl
    | some r =>
      obtain ⟨served, exit, hs, he, rfl⟩ := h
      exact .held (hs.held.append he.kept) rfl
  | discarding r =>
    obtain ⟨served, exit, hs, he, rfl⟩ := h
    exact .held ((hs.held.append he.kept).append hhangUp) rfl
  | ended said =>
    rcases h with ⟨reason, rfl⟩ | ⟨served, exit, crashed, hs, he, rfl⟩
    · exact .unbuilt reason List.prefix_rfl rfl
    · have hl := Stands.dropped (J := J) crashed said ((hs.held.append he.kept).append hhangUp)
      simpa using hl

/-- A list of steps with a drop at its end has no other. -/
theorem Held.eq_of_discard {l before after : List (Move ρ A)} {crashed crashed' : Bool}
    (h : Held l) (he : l ++ [.discard crashed] = before ++ .discard crashed' :: after) :
    after = [] ∧ before = l := by
  obtain ⟨r, kept, hk, rfl⟩ := h
  rcases concat_eq_append_cons he with ⟨rfl, hb, -⟩ | ⟨kept', -, hb⟩
  · exact ⟨rfl, hb.symm⟩
  · -- The other drop would stand among the steps that are none.
    have hmem : (.discard crashed' : Move ρ A) ∈ .built r :: kept := by simp [hb]
    rcases List.mem_cons.mp hmem with hm | hm
    · cases hm
    · cases (hk _ hm).2

/-- Nothing is dropped while the resource is held. -/
theorem Held.discards {l : List (Move ρ A)} (h : Held l) : ∀ m ∈ l, m.discards = false := by
  obtain ⟨r, kept, hk, rfl⟩ := h
  intro m hm
  rcases List.mem_cons.mp hm with rfl | hm
  · rfl
  · exact (hk m hm).2

section Stands

variable {l : List (Move ρ A)} {p : Phase ρ J} (h : Stands l p)
include h

/-- **The construction comes first**, and once. -/
theorem Stands.constructs (hne : l ≠ []) :
    ∃ m rest, l = m :: rest ∧ m.constructs = true ∧ ∀ x ∈ rest, x.constructs = false := by
  have hheld : ∀ {l more : List (Move ρ A)}, Held l → (∀ x ∈ more, x.constructs = false) →
      ∃ m rest, l ++ more = m :: rest ∧ m.constructs = true ∧ ∀ x ∈ rest, x.constructs = false := by
    rintro l more ⟨r, kept, hk, rfl⟩ hmore
    exact ⟨.built r, kept ++ more, rfl, rfl,
      List.forall_mem_append.mpr ⟨fun x hx => (hk x hx).1, hmore⟩⟩
  cases h with
  | building => exact absurd rfl hne
  | unbuilt reason hm hp =>
    refine ⟨_, _, rfl, rfl, fun x hx => ?_⟩
    obtain rfl := List.mem_singleton.mp (hm.subset hx)
    rfl
  | held hl hp =>
    rw [← List.append_nil l]
    exact hheld hl (by simp)
  | dropped crashed said hl => exact hheld hl (by simp [Move.constructs])

/-- **Without a resource nothing runs and nothing is dropped.** -/
theorem Stands.of_unbuilt {reason : String} (hu : .buildFailed reason ∈ l) :
    .start ∉ l ∧ ∀ m ∈ l, m.discards = false := by
  have hheld : ∀ {l : List (Move ρ A)}, Held l → .buildFailed reason ∉ l := by
    rintro l ⟨r, kept, hk, rfl⟩ hmem
    rcases List.mem_cons.mp hmem with hm | hm
    · cases hm
    · cases (hk _ hm).1
  cases h with
  | building => cases hu
  | @unbuilt reason' more _ hm hp =>
    have hrest : ∀ m ∈ Move.buildFailed reason' :: more, m ≠ .start ∧ m.discards = false := by
      intro m hmem
      rcases List.mem_cons.mp hmem with rfl | hmem
      · exact ⟨by simp, rfl⟩
      · obtain rfl := List.mem_singleton.mp (hm.subset hmem)
        exact ⟨by simp, rfl⟩
    exact ⟨fun hs => (hrest _ hs).1 rfl, fun m hmem => (hrest m hmem).2⟩
  | held hl hp => exact absurd hu (hheld hl)
  | dropped crashed said hl =>
    rcases List.mem_append.mp hu with hm | hm
    · exact absurd hm (hheld hl)
    · simp at hm

/-- **The drop is the last step**, and the only one of its kind. -/
theorem Stands.of_discard {before after : List (Move ρ A)} {crashed : Bool}
    (he : l = before ++ .discard crashed :: after) :
    after = [] ∧ (∀ m ∈ before, m.discards = false) ∧ ∃ said, p = .ended said := by
  cases h with
  | building => simp at he
  | unbuilt reason hm hp =>
    have hnone := ((Stands.unbuilt reason hm hp).of_unbuilt List.mem_cons_self).2
    have := hnone (.discard crashed) (by simp [he])
    cases this
  | held hl hp =>
    have := hl.discards (.discard crashed) (by simp [he])
    cases this
  | dropped crashed' said hl =>
    obtain ⟨rfl, rfl⟩ := hl.eq_of_discard he
    exact ⟨rfl, hl.discards, said, rfl⟩

/-- **The worker has its resource** from the construction to the drop. -/
theorem Stands.resource?_iff : p.resource?.isSome = true ↔
    (∃ r, .built r ∈ l) ∧ ∀ m ∈ l, m.discards = false := by
  cases h with
  | building => simp [Phase.resource?]
  | unbuilt reason hm hp =>
    rw [hp]
    constructor
    · rintro ⟨⟩
    · rintro ⟨⟨r, hr⟩, -⟩
      rcases List.mem_cons.mp hr with hr | hr
      · cases hr
      · have := List.mem_singleton.mp (hm.subset hr)
        cases this
  | held hl hp =>
    obtain ⟨r, kept, -, he⟩ := id hl
    exact ⟨fun _ => ⟨⟨r, by simp [he]⟩, hl.discards⟩, fun _ => hp⟩
  | dropped crashed said hl =>
    constructor
    · rintro ⟨⟩
    · rintro ⟨-, hd⟩
      have := hd (.discard crashed) (by simp)
      cases this

/-- **A resource that is gone was dropped once.** -/
theorem Stands.countP_discards {r : ρ} (hr : .built r ∈ l) (hp : p.resource? = none) :
    l.countP Move.discards = 1 := by
  have hnot : ¬ ∀ m ∈ l, m.discards = false := by
    intro hall
    have := h.resource?_iff.mpr ⟨⟨r, hr⟩, hall⟩
    simp [hp] at this
  obtain ⟨m, hm, hd⟩ : ∃ m ∈ l, m.discards = true := by simpa using hnot
  cases m with
  | discard crashed =>
    obtain ⟨before, after, rfl⟩ := List.append_of_mem hm
    obtain ⟨rfl, hbefore, -⟩ := h.of_discard rfl
    rw [List.countP_append, List.countP_eq_zero.mpr (by simpa using hbefore)]
    rfl
  | _ => cases hd

end Stands

/-! ## 3. The end -/

theorem hasEnded_iff {w : Worker ρ J A} : w.hasEnded = true ↔ ∃ said, w.phase = .ended said := by
  cases hp : w.phase <;> simp [hasEnded, hp]

/-- The word of the end: whether the worker has said that it has ended, or has gone without a word;
nothing as long as it is there. -/
def endWord? (w : Worker ρ J A) : Option Bool :=
  match w.phase with
  | .ended said => some said
  | _ => none

/-- What is said to who asks whether the worker has ended, as soon as there is something to say.
Only the first who asks waits for the word, and to him it is all the same what it is. -/
def endAnswer? (w : Worker ρ J A) (first : Bool) : Option Bool :=
  if first then w.endWord?.map fun _ => true else some true

/-- Who waits for the end as the first learns of it when the worker has ended. -/
theorem endAnswer?_first (w : Worker ρ J A) :
    w.endAnswer? true = if w.hasEnded then some true else none := by
  cases hp : w.phase <;> simp [endAnswer?, endWord?, hasEnded, hp]

section Ended

variable {w w' : Worker ρ J A} {said : Bool} (hp : w.phase = .ended said)
include hp

/-- A worker that has ended makes no more steps, and nothing is seen to change but that its handle
is shut down. -/
theorem ended_act? {a : Action ρ J A} (hw : w.act? a = some w') :
    a.move? = none ∧ w'.phase = .ended said ∧ w'.isFaulted = w.isFaulted := by
  have hmove : a.move? = none := by
    cases acts_of_act? hw with
    | moved hm => cases hm <;> simp_all
    | _ => rfl
  refine ⟨hmove, (phase_act? hw hmove).trans hp, ?_⟩
  cases acts_of_act? hw with
  | shutDown hc => cases hh : w.health <;> simp only [isFaulted, hh] <;> rfl
  | moved hm => cases hmove
  | _ => rfl

theorem ended_run? {actions : List (Action ρ J A)} (hw : w.run? actions = some w') :
    moves actions = [] ∧ w'.phase = .ended said ∧ w'.isFaulted = w.isFaulted := by
  have hkept := run?_along
    (P := fun past v => moves (past.map Prod.snd) = [] ∧ v.phase = .ended said ∧
      v.isFaulted = w.isFaulted)
    (fun past v a v' hP hv => by
      obtain ⟨hm, hp', hf⟩ := ended_act? hP.2.1 hv
      exact ⟨by simpa [moves_concat, hm] using hP.1, hp', hf.trans hP.2.2⟩) hw ⟨rfl, hp, rfl⟩
  rwa [actions_trace hw] at hkept

end Ended

/-- A crash while the resource is dropped leaves nothing behind but that the worker goes without a
word, and not even this if it has faulted before. -/
theorem discard_crashed {w w₁ w₂ : Worker ρ J A} (h₁ : w.advance? (.discard true) = some w₁)
    (h₂ : w.advance? (.discard false) = some w₂) :
    w₁ = { w₂ with phase := w₁.phase } ∧ (w.isFaulted = true → w₁ = w₂) := by
  cases advance_of_advance? h₁ with
  | discard hp =>
    simp only [advance?, hp, Option.some.injEq] at h₂
    subst h₂
    refine ⟨rfl, fun hf => ?_⟩
    rw [hf]
    rfl

/-- **A worker that is left alone comes to its end**, if its handle is gone or it has faulted. -/
theorem Settled.hasEnded {notes : List (Note ρ J A)} {w : Worker ρ J A} (hs : Settled w)
    (hf : Fated notes w) (h : w.connected = false ∨ w.isFaulted = true) : w.hasEnded = true := by
  rcases hs.cases with ⟨r, hp, -, hc⟩ | ⟨said, hp⟩
  · simp only [Fated, hp] at hf
    rcases h with h | h
    · simp [hc] at h
    · simp [hf.2] at h
  · exact hasEnded_iff.mpr ⟨said, hp⟩

/-! ## 4. One life -/

/-- What becomes of the resource of a worker, and who learns of it. -/
structure Lives (actions : List (Action ρ J A)) (notes : List (Note ρ J A)) (w : Worker ρ J A) :
    Prop where
  /-- The construction is the first step of the worker, and the only one of its kind. -/
  built_once : moves actions ≠ [] → ∃ m rest, moves actions = m :: rest ∧ m.constructs = true ∧
    ∀ x ∈ rest, x.constructs = false
  /-- If it fails, no operation is started and no resource is dropped. -/
  unbuilt : ∀ reason, .buildFailed reason ∈ moves actions →
    .start ∉ moves actions ∧ ∀ m ∈ moves actions, m.discards = false
  /-- There is a resource from the construction to the drop. -/
  held_iff : w.phase.resource?.isSome = true ↔
    (∃ r, .built r ∈ moves actions) ∧ ∀ m ∈ moves actions, m.discards = false
  /-- The drop is the last step of the worker, and then everything that was started has ended. -/
  dropped_last : ∀ before crashed after, moves actions = before ++ .discard crashed :: after →
    after = [] ∧ (∀ m ∈ before, m.discards = false) ∧ begun notes = (ended notes).map Prod.fst
  /-- The ways in which a worker comes to its end. -/
  ways : w.hasEnded = true → (∃ reason, moves actions = [.buildFailed reason, .hangUp]) ∨
    ∃ served exit crashed, Rounds served ∧ Exit exit ∧
      moves actions = served ++ exit ++ [.hangUp, .discard crashed]
  /-- On each of them, a resource that was built is dropped once. -/
  dropped_once : w.hasEnded = true → (∃ r, .built r ∈ moves actions) →
    (moves actions).countP Move.discards = 1
  /-- Behind the end there is nothing. -/
  nothing_after : w.hasEnded = true → ∀ more w', w.run? more = some w' →
    moves more = [] ∧ w'.hasEnded = true
  /-- The end does come when the handle is gone or the worker has faulted. -/
  ends : Settled w → w.connected = false ∨ w.isFaulted = true → w.hasEnded = true
  /-- Whoever asks for the end learns of it. -/
  answered : w.hasEnded = true → ∀ first, w.endAnswer? first = some true
  /-- Whether the drop crashes makes no difference, but for the word of the worker if it has not
  faulted. -/
  drop_crashed : ∀ w₁ w₂, w.advance? (.discard true) = some w₁ →
    w.advance? (.discard false) = some w₂ →
    w₁ = { w₂ with phase := w₁.phase } ∧ (w.isFaulted = true → w₁ = w₂)
  /-- A worker does not fault by dropping its resource, nor at any time after it. -/
  drop_harmless : ∀ crashed w₁ more w', w.advance? (.discard crashed) = some w₁ →
    w₁.run? more = some w' → w'.isFaulted = w.isFaulted

/-- **Whatever happens to a worker**, it builds its resource once and before anything else, and on
every way to its end it drops it once and after everything else; the end becomes known even if the
drop crashes. -/
theorem run_lives {limit : Nat} {w : Worker ρ J A} {actions : List (Action ρ J A)}
    (h : (spawn limit).run? actions = some w) :
    Lives actions ((spawn limit).history actions) w := by
  have hcourse := course_of_run? h
  have hstands := hcourse.stands
  obtain ⟨horder, -, hfate, -, -⟩ : Told ((spawn limit).history actions) w :=
    noted_trace _ actions ▸ (told_along h).1
  constructor
  case built_once => exact hstands.constructs
  case unbuilt => exact fun reason hu => hstands.of_unbuilt hu
  case held_iff => exact hstands.resource?_iff
  case dropped_last =>
    intro before crashed after he
    obtain ⟨hlast, hbefore, said, hp⟩ := hstands.of_discard he
    refine ⟨hlast, hbefore, ?_⟩
    rw [horder.begun_eq, underway, hp, List.append_nil]
  case ways =>
    intro hend
    obtain ⟨said, hp⟩ := hasEnded_iff.mp hend
    simpa only [Course, hp] using hcourse
  case dropped_once =>
    rintro hend ⟨r, hr⟩
    obtain ⟨said, hp⟩ := hasEnded_iff.mp hend
    exact hstands.countP_discards hr (by rw [hp]; rfl)
  case nothing_after =>
    intro hend more w' hw
    obtain ⟨said, hp⟩ := hasEnded_iff.mp hend
    obtain ⟨hm, hp', -⟩ := ended_run? hp hw
    exact ⟨hm, hasEnded_iff.mpr ⟨said, hp'⟩⟩
  case ends => exact fun hs hc => hs.hasEnded hfate hc
  case answered =>
    intro hend first
    cases first with
    | true => rw [endAnswer?_first, if_pos hend]
    | false => rfl
  case drop_crashed => exact fun w₁ w₂ h₁ h₂ => discard_crashed h₁ h₂
  case drop_harmless =>
    intro crashed w₁ more w' h₁ hw
    cases advance_of_advance? h₁ with
    | discard hp => exact (ended_run? rfl hw).2.2

/-- The worker is shut down, and the drop crashes. -/
def stoppedRun : List (Action Nat Nat Nat) :=
  [.submit true 5, .move (.built 1), .move .start, .shutdown, .move (.finish 6 6),
    .move .takeStop, .move .hangUp, .move (.discard true)]

/-- The handle is dropped. -/
def leftRun : List (Action Nat Nat Nat) :=
  [.move (.built 1), .abandon, .move .notice, .move .hangUp, .move (.discard false)]

/-- An operation crashes, and so does the drop. -/
def twiceCrashedRun : List (Action Nat Nat Nat) :=
  [.move (.built 1), .submit true 5, .submit true 6, .move .start, .move (.crash 1),
    .move .poison, .move .hangUp, .move (.discard true)]

theorem run_lives_ways :
    (∃ w : Worker Nat Nat Nat, (spawn 0).run? stoppedRun = some w ∧
      Lives stoppedRun ((spawn 0).history stoppedRun) w ∧
      w.hasEnded = true ∧ w.isFaulted = false) ∧
    (∃ w : Worker Nat Nat Nat, (spawn 0).run? leftRun = some w ∧
      Lives leftRun ((spawn 0).history leftRun) w ∧ w.hasEnded = true) ∧
    ∃ w : Worker Nat Nat Nat, (spawn 0).run? twiceCrashedRun = some w ∧
      Lives twiceCrashedRun ((spawn 0).history twiceCrashedRun) w ∧
      w.hasEnded = true ∧ w.isFaulted = true :=
  ⟨⟨_, rfl, run_lives rfl, rfl, rfl⟩, ⟨_, rfl, run_lives rfl, rfl⟩,
    ⟨_, rfl, run_lives rfl, rfl, rfl⟩⟩

end Worker
end Workbench
