import Workbench.Proofs.Session.Latecomers

/-!
# How many turns a task takes

A close, a termination and a sweep wait for a worker in the middle of their work, but never longer
than for a limited time.  So each of them comes to its end after a number of turns that can be told
beforehand, whatever the other tasks do meanwhile.

* `Part.turns` is this number, and `Brief` are the kinds of tasks of which each turn lowers it
  (`brief_seeks`, `brief_sweeps`);
* `Brief.turns_of_run?` says what follows for a run;
* `turn_of_seeks` and `turn_of_sweep` say that such a task has always a turn to take.
-/

namespace Workbench

variable {ρ : Type}

/-! ## 1. The turns of each stage -/

/-- How many turns a release takes from a stage on, at most. -/
def Release.turns : Release → Nat
  | queue => 6
  | awaitAnswer _ => 5
  | shutdown => 4
  | beginAwaitEnd => 3
  | awaitEnd => 2
  | forget => 1

/-- How many turns a close takes from a stage on, at most. -/
def Closing.turns : Closing → Nat
  | lookup => 8
  | lookBack => 1
  | begin _ => 7
  | release _ stage => stage.turns

/-- How many turns a termination takes from a stage on, at most. -/
def Termination.turns : Termination → Nat
  | lookup => 5
  | lookBack => 1
  | begin _ => 4
  | forget _ _ => 3
  | queue _ => 2
  | shutdown _ => 1

/-- How many turns a sweep takes from a stage on, at most, if it knows already at whom it has to
look: two for each verdict, and those of the release. -/
def Sweep.turns : Sweep → Nat
  | scan => 0
  | judge rest _ => 1 + 8 * rest.length
  | weigh _ rest _ => 7 + (1 + 8 * rest.length)
  | release _ stage rest _ => stage.turns + (1 + 8 * rest.length)

/-- How many turns a close, a termination or a sweep still takes, at most. -/
def Part.turns : Part → Nat
  | close stage => stage.turns
  | terminate _ stage => stage.turns
  | sweep stage => stage.turns
  | _ => 0

theorem Release.turns_bounds (stage : Release) : 0 < stage.turns ∧ stage.turns ≤ 6 := by
  cases stage <;> simp [turns]

theorem Closing.turns_bounds (stage : Closing) : 0 < stage.turns ∧ stage.turns ≤ 8 := by
  cases stage with
  | release seat stage =>
    have := stage.turns_bounds
    simp only [turns]
    omega
  | _ => simp [turns]

theorem Termination.turns_bounds (stage : Termination) : 0 < stage.turns ∧ stage.turns ≤ 8 := by
  cases stage <;> simp [turns]

/-- A close has a turn to take until it is answered, and eight at most. -/
theorem Task.turns_bounds {t : Task} {id : String} (h : t.seeks? = some id) :
    0 < t.part.turns ∧ t.part.turns ≤ 8 := by
  rcases parts_of_seeks? h with ⟨stage, hp, -⟩ | ⟨stage, hp, -⟩ <;> rw [hp]
  · exact stage.turns_bounds
  · exact stage.turns_bounds

section Turns

variable {r r' : Registry ρ} {id : String}

theorem Release.turns_of_step {seat : Nat} {stage stage' : Release}
    (h : stage.step r seat = .next r' stage') : stage'.turns < stage.turns := by
  cases steps_of_step h <;> simp [turns]

theorem Release.turns_of_expire? {stage stage' : Release} (h : stage.expire? = some stage') :
    stage'.turns < stage.turns := by
  cases stage with
  | awaitAnswer ticket =>
    cases h
    simp [turns]
  | awaitEnd =>
    cases h
    simp [turns]
  | _ => cases h

/-- A release that has to wait does so for a limited time. -/
theorem Release.expire?_of_wait {seat : Nat} {stage : Release} (h : stage.step r seat = .wait) :
    ∃ stage', stage.expire? = some stage' := by
  cases steps_of_step h with
  | unanswered _ _ | lives _ _ => exact ⟨_, rfl⟩

theorem Closing.turns_of_step {stage stage' : Closing} (h : stage.step r id = .next r' stage') :
    stage'.turns < stage.turns := by
  cases steps_of_step h with
  | found _ | missed _ | won _ _ => simp [turns, Release.turns]
  | releases hs => exact Release.turns_of_step hs

theorem Closing.turns_of_expire? {stage stage' : Closing} (h : stage.expire? = some stage') :
    stage'.turns < stage.turns := by
  cases stage with
  | release seat stage =>
    obtain ⟨stage₁, hs, rfl⟩ := Option.map_eq_some_iff.mp h
    exact Release.turns_of_expire? hs
  | _ => cases h

theorem Closing.expire?_of_wait {stage : Closing} (h : stage.step r id = .wait) :
    ∃ stage', stage.expire? = some stage' := by
  cases steps_of_step h with
  | waits hs =>
    obtain ⟨stage', hs'⟩ := Release.expire?_of_wait hs
    exact ⟨_, by rw [expire?, hs', Option.map_some]⟩

theorem Termination.turns_of_step {stage stage' : Termination}
    (h : stage.step r id = .next r' stage') : stage'.turns < stage.turns := by
  cases steps_of_step h <;> simp [turns]

/-- A termination waits for nothing. -/
theorem Termination.step_ne_wait (stage : Termination) : stage.step r id ≠ .wait := by
  intro h
  cases steps_of_step h

/-- Each verdict and each turn of a release takes a sweep nearer to its end. -/
theorem Sweep.turns_of_step {stage stage' : Sweep} (h : stage.step r = .next r' stage')
    (hscan : stage ≠ scan) : stage'.turns < stage.turns ∧ stage' ≠ scan := by
  cases steps_of_step h with
  | scanned => exact absurd rfl hscan
  | vacant _ | spared _ _ | vanished _ | acquitted _ _ => exact ⟨by simp [turns], by rintro ⟨⟩⟩
  | condemned _ _ | convicted _ _ =>
    refine ⟨?_, by rintro ⟨⟩⟩
    simp only [turns, Release.turns, List.length_cons]
    omega
  | releases hs => exact ⟨Nat.add_lt_add_right (Release.turns_of_step hs) _, by rintro ⟨⟩⟩
  | @released _ stage _ _ _ _ _ _ | @lost _ stage _ _ _ _ _ =>
    have hpos := stage.turns_bounds.1
    refine ⟨?_, by rintro ⟨⟩⟩
    simp only [turns]
    omega

/-- A look at the worker is a turn as well. -/
theorem Sweep.turns_of_detour? {stage stage' : Sweep} {way : Sweep.Detour}
    (h : stage.detour? r way = some stage') (hscan : stage ≠ scan) :
    stage'.turns < stage.turns ∧ stage' ≠ scan := by
  cases detours_of_detour? h with
  | ordered _ => exact absurd rfl hscan
  | glanced _ _ _ _ _ =>
    refine ⟨?_, by rintro ⟨⟩⟩
    simp only [turns, List.length_cons]
    omega

theorem Sweep.turns_of_expire? {stage stage' : Sweep} (h : stage.expire? = some stage') :
    stage'.turns < stage.turns ∧ stage' ≠ scan := by
  cases stage with
  | release k stage rest closed =>
    obtain ⟨stage₁, hs, rfl⟩ := Option.map_eq_some_iff.mp h
    exact ⟨Nat.add_lt_add_right (Release.turns_of_expire? hs) _, by rintro ⟨⟩⟩
  | _ => cases h

theorem Sweep.expire?_of_wait {stage : Sweep} (h : stage.step r = .wait) :
    ∃ stage', stage.expire? = some stage' := by
  cases steps_of_step h with
  | waits hs =>
    obtain ⟨stage', hs'⟩ := Release.expire?_of_wait hs
    exact ⟨_, by rw [expire?, hs', Option.map_some]⟩

end Turns

namespace Task

section Going

variable {r r' : Registry ρ} {standard : Duration} {t t' : Task} {id : String}

/-- **A close goes on with fewer turns to take, or is answered.** -/
theorem turns_of_go? (h : t.go? r standard = some (r', t')) (hid : t.seeks? = some id) :
    (t'.seeks? = some id ∧ t'.part.turns < t.part.turns) ∨ ∃ a, t' = .finished a := by
  rcases goes_of_seeks h hid with
    ⟨s, hp, ⟨s', hs, hid', hp'⟩ | ⟨x, a, -, rfl, -⟩⟩ |
    ⟨s, hp, ⟨s', hs, hid', hp'⟩ | ⟨x, a, -, rfl, -⟩⟩
  · rw [hp, hp']
    exact Or.inl ⟨hid', Closing.turns_of_step hs⟩
  · exact Or.inr ⟨a, rfl⟩
  · rw [hp, hp']
    exact Or.inl ⟨hid', Termination.turns_of_step hs⟩
  · exact Or.inr ⟨a, rfl⟩

/-- To give up waiting is a turn as well. -/
theorem turns_of_expire? (h : t.expire? r = some (r', t')) (hid : t.seeks? = some id) :
    t'.seeks? = some id ∧ t'.part.turns < t.part.turns := by
  cases lapses_of_expire? h with
  | close hs => exact ⟨hid, Closing.turns_of_expire? hs⟩
  | callClose hs => exact ⟨hid, Closing.turns_of_expire? hs⟩
  | _ => cases hid

end Going
end Task

/-! ## 2. Tasks that come to their end -/

namespace Engine

/-- A kind of tasks in which each turn takes a task nearer to its end. -/
structure Brief (ρ : Type) (P : Task → Prop) : Prop where
  turn : ∀ {r : Registry ρ} {standard : Duration} {t t' : Task} {c : Change ρ}, P t →
    Turn r standard t t' c → P t' ∧ t'.part.turns < t.part.turns
  like : ∀ {t t' : Task}, P t → Like t t' → t' = t

/-- The turns of the task at a place in a list of events. -/
def turnsOf (q : Nat) (events : List (Event ρ)) : Nat := events.countP (·.place? == some q)

/-- **Such a task takes its turns and no more**, however long the run goes on. -/
theorem Brief.turns_of_run? {P : Task → Prop} (hb : Brief ρ P) {e e' : Engine ρ} {q : Nat}
    {t : Task} {events : List (Event ρ)} (h : e.run? events = some e')
    (ht : e.tasks[q]? = some t) (hP : P t) :
    ∃ t', e'.tasks[q]? = some t' ∧ P t' ∧ turnsOf q events + t'.part.turns ≤ t.part.turns := by
  induction events generalizing e t with
  | nil =>
    cases h
    exact ⟨t, ht, hP, by simp [turnsOf]⟩
  | cons event rest ih =>
    simp only [run?] at h
    split at h
    · rename_i e₁ he₁
      obtain ⟨t₁, ht₁, ⟨hp, hturn⟩ | ⟨hp, hlike⟩⟩ := task_of_step? he₁ ht
      · obtain ⟨hP₁, hlt⟩ := hb.turn hP hturn
        obtain ⟨t', ht', hP', hle⟩ := ih h ht₁ hP₁
        refine ⟨t', ht', hP', ?_⟩
        simp only [turnsOf, List.countP_cons, hp, beq_self_eq_true, if_true] at hle ⊢
        omega
      · obtain rfl := hb.like hP hlike
        obtain ⟨t', ht', hP', hle⟩ := ih h ht₁ hP
        exact ⟨t', ht', hP', by simpa [turnsOf, hp] using hle⟩
    · cases h

/-- A task that has answered takes no more turns. -/
theorem not_turn_of_finished {r : Registry ρ} {standard : Duration} {a : Answer} {t' : Task}
    {c : Change ρ} : ¬ Turn r standard (.finished a) t' c := by
  intro h
  cases h with
  | go hg => cases hg
  | expire hg => cases hg
  | refuse hg => cases hg
  | detour hg => cases hg

theorem answer?_of_finished {e : Engine ρ} {q : Nat} {a : Answer}
    (ht : e.tasks[q]? = some (.finished a)) : e.answer? q = some a := by
  simp [answer?, ht]

/-- The task closes or terminates a session for its caller, or has answered. -/
def ClosesOrEnds (id : String) (t : Task) : Prop := t.seeks? = some id ∨ ∃ a, t = .finished a

/-- **Closes and terminations come to their end.** -/
theorem brief_seeks (id : String) : Brief ρ (ClosesOrEnds id) where
  turn := by
    rintro r standard t t' c (hid | ⟨a, rfl⟩) hturn
    · cases hturn with
      | go hg =>
        rcases Task.turns_of_go? hg hid with ⟨hid', hlt⟩ | ⟨a, rfl⟩
        · exact ⟨Or.inl hid', hlt⟩
        · exact ⟨Or.inr ⟨a, rfl⟩, (Task.turns_bounds hid).1⟩
      | expire hg =>
        obtain ⟨hid', hlt⟩ := Task.turns_of_expire? hg hid
        exact ⟨Or.inl hid', hlt⟩
      | callOff => cases hid
      | cutOff => cases hid
      | refuse hg =>
        obtain ⟨-, -, metadata, ⟨rfl, -⟩ | ⟨c, rfl, -⟩⟩ := Task.of_refuse? hg <;> cases hid
      | detour hg =>
        obtain ⟨_, _, -, ⟨rfl, -⟩ | ⟨_, rfl, -⟩⟩ := Task.of_detour? hg <;> cases hid
    · exact absurd hturn not_turn_of_finished
  like := by
    rintro t t' hP (rfl | ⟨stage, calledOff, rfl, -⟩)
    · rfl
    · rcases hP with hid | ⟨a, ha⟩
      · cases hid
      · cases ha

/-- The task is a sweep that knows at whom it has to look, or has answered with those that it has
closed. -/
def SweepsOrEnds (t : Task) : Prop :=
  (∃ stage, t = .sweep stage ∧ stage ≠ .scan) ∨ ∃ ids, t = .finished (.swept ids)

/-- **Sweeps come to their end.** -/
theorem brief_sweeps : Brief ρ SweepsOrEnds where
  turn := by
    rintro r standard t t' c (⟨stage, rfl, hscan⟩ | ⟨ids, rfl⟩) hturn
    · cases hturn with
      | go hg =>
        rcases Progress.cases_of_goes hg with ⟨stage', hs, rfl⟩ | ⟨ids, hs, rfl⟩
        · obtain ⟨hlt, hne⟩ := Sweep.turns_of_step hs hscan
          exact ⟨Or.inl ⟨stage', rfl, hne⟩, hlt⟩
        · refine ⟨Or.inr ⟨ids, rfl⟩, ?_⟩
          cases stage with
          | scan => exact absurd rfl hscan
          | judge rest closed => exact Nat.add_pos_left Nat.one_pos _
          | weigh k rest closed => exact Nat.add_pos_left (by decide) _
          | release k stage rest closed =>
            exact Nat.add_pos_left stage.turns_bounds.1 _
      | expire hg =>
        cases Task.lapses_of_expire? hg with
        | sweep hs =>
          obtain ⟨hlt, hne⟩ := Sweep.turns_of_expire? hs
          exact ⟨Or.inl ⟨_, rfl, hne⟩, hlt⟩
      | refuse hg =>
        obtain ⟨-, -, metadata, ⟨h, -⟩ | ⟨c, h, -⟩⟩ := Task.of_refuse? hg <;> cases h
      | detour hg =>
        obtain ⟨_, _, hs, ⟨h, rfl⟩ | ⟨_, h, -⟩⟩ := Task.of_detour? hg <;> cases h
        obtain ⟨hlt, hne⟩ := Sweep.turns_of_detour? hs hscan
        exact ⟨Or.inl ⟨_, rfl, hne⟩, hlt⟩
    · exact absurd hturn not_turn_of_finished
  like := by
    rintro t t' hP (rfl | ⟨stage, calledOff, rfl, -⟩)
    · rfl
    · rcases hP with ⟨stage, h, -⟩ | ⟨ids, h⟩ <;> cases h

/-! ## 3. Tasks that have a turn to take -/

section Taking

variable {e : Engine ρ} {q : Nat} {t : Task} {id : String}

/-- **A close has always a turn to take**: it goes on, or its time can be up. -/
theorem turn_of_seeks (ht : e.tasks[q]? = some t) (hid : t.seeks? = some id) :
    e.step? (.go q) ≠ none ∨ e.step? (.expire q) ≠ none := by
  cases t with
  | close id' stage =>
    by_cases hs : stage.step e.registry id' = .wait
    · obtain ⟨stage', hs'⟩ := Closing.expire?_of_wait hs
      exact Or.inr (by simp [step?, expire?, ht, hs'])
    · exact Or.inl (by simp [step?, go?, ht, follow?_eq_none, hs])
  | terminate id' stage =>
    exact Or.inl (by simp [step?, go?, ht, follow?_eq_none, Termination.step_ne_wait])
  | call c stage =>
    cases stage with
    | close id' stage =>
      by_cases hs : stage.step e.registry id' = .wait
      · obtain ⟨stage', hs'⟩ := Closing.expire?_of_wait hs
        exact Or.inr (by simp [step?, expire?, ht, CallStage.expire?, hs', follow?])
      · refine Or.inl ?_
        simp [step?, go?, ht, follow?_eq_none, CallStage.step, Progress.lastly_eq_wait, hs]
    | terminate id' stage =>
      refine Or.inl ?_
      simp [step?, go?, ht, follow?_eq_none, CallStage.step, Progress.lastly_eq_wait,
        Termination.step_ne_wait]
    | _ => cases hid
  | _ => cases hid

/-- **A sweep has always a turn to take.** -/
theorem turn_of_sweep {stage : Sweep} (ht : e.tasks[q]? = some (.sweep stage)) :
    e.step? (.go q) ≠ none ∨ e.step? (.expire q) ≠ none := by
  by_cases hs : stage.step e.registry = .wait
  · obtain ⟨stage', hs'⟩ := Sweep.expire?_of_wait hs
    exact Or.inr (by simp [step?, expire?, ht, hs'])
  · exact Or.inl (by simp [step?, go?, ht, follow?_eq_none, hs])

end Taking
end Engine
end Workbench
