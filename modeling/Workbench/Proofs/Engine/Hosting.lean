import Workbench.Proofs.Engine.Trace
import Workbench.Server.Exchange

/-!
# What a host does to its engine

A host lets tasks and workers go on in an order of its own, and hurries tasks whose time is up.  But
it has no other means than the events of its engine, so what holds along every run of an engine
holds on every host.

* `Engine.Reaches` says that one engine comes from another by a run;
* the lemmas `reaches_` say so of all that a host does, and `ClientMessage.reaches_answer` of
  whatever a client sends;
* `ClientRequest.answer_of_not_call` says that nothing but a call does anything at all.
-/

namespace Workbench

/-! ## 1. Runs between engines -/

namespace Engine

variable {ρ : Type}

/-- One engine comes from another by a run. -/
def Reaches (e e' : Engine ρ) : Prop := ∃ events, e.run? events = some e'

theorem Reaches.refl (e : Engine ρ) : e.Reaches e := ⟨[], rfl⟩

theorem Reaches.trans {e₁ e₂ e₃ : Engine ρ} (h : e₁.Reaches e₂) (h' : e₂.Reaches e₃) :
    e₁.Reaches e₃ := by
  obtain ⟨events, h⟩ := h
  obtain ⟨more, h'⟩ := h'
  exact ⟨events ++ more, by rw [run?_append, h, Option.bind_some, h']⟩

theorem Reaches.of_step? {e e' : Engine ρ} {event : Event ρ} (h : e.step? event = some e') :
    e.Reaches e' := ⟨[event], by simp [run?, h]⟩

end Engine

/-! ## 2. Hosts -/

namespace Host

variable {ρ σ : Type}

theorem reaches_apply (h : Host ρ σ) (event : Event ρ) :
    h.engine.Reaches (h.apply event).engine := by
  unfold apply
  split
  · exact .of_step? ‹_›
  · exact .refl _

/-- What keeps to events in each of its parts keeps to them as a whole. -/
theorem reaches_foldl {α : Type} {f : Host ρ σ → α → Host ρ σ}
    (hf : ∀ (h : Host ρ σ) (a : α), h.engine.Reaches (f h a).engine) (l : List α) (h : Host ρ σ) :
    h.engine.Reaches (l.foldl f h).engine := by
  induction l generalizing h with
  | nil => exact .refl _
  | cons a l ih => exact (hf h a).trans (ih (f h a))

theorem reaches_settleSeat (seat n : Nat) (h : Host ρ σ) :
    h.engine.Reaches (settleSeat seat n h).engine := by
  induction n generalizing h with
  | zero => exact .refl _
  | succ n ih =>
    simp only [settleSeat]
    split
    · exact .refl _
    · split
      · exact .refl _
      · rename_i x move _
        exact (reaches_apply { h with surroundings := x } (.work seat move)).trans (ih _)

theorem reaches_settle (h : Host ρ σ) : h.engine.Reaches h.settle.engine := by
  have hsession : ∀ (h : Host ρ σ) seat, h.engine.Reaches (h.settleSession seat).engine := by
    intro h seat
    unfold settleSession
    split
    · exact .refl _
    · exact reaches_settleSeat _ _ _
  exact (reaches_foldl hsession _ h).trans (reaches_foldl (fun h _ => h.reaches_apply _) _ _)

theorem reaches_go? {h h' : Host ρ σ} {place : Nat} (hgo : h.go? place = some h') :
    h.engine.Reaches h'.engine := by
  obtain ⟨e, he, rfl⟩ := Option.map_eq_some_iff.mp hgo
  exact .of_step? he

theorem reaches_giveUp? {h h' : Host ρ σ} {place : Nat} (hg : h.giveUp? place = some h') :
    h.engine.Reaches h'.engine := by
  unfold giveUp? at hg
  split at hg
  · cases hg
  · split at hg
    · cases hg
    · obtain ⟨e, he, rfl⟩ := Option.map_eq_some_iff.mp hg
      exact .of_step? he

theorem engine_await (h : Host ρ σ) (place : Nat) : (h.await place).engine = h.engine := by
  unfold await
  split <;> rfl

theorem reaches_goOn (place n : Nat) (h : Host ρ σ) :
    h.engine.Reaches (goOn place n h).engine := by
  induction n generalizing h with
  | zero => exact .refl _
  | succ n ih =>
    simp only [goOn]
    split
    · exact (reaches_go? ‹_›).trans (ih _)
    · split
      · rename_i hg
        have := reaches_giveUp? hg
        rw [engine_await] at this
        exact this.trans (ih _)
      · rw [engine_await]
        exact .refl _

theorem reaches_carry (place n : Nat) (h : Host ρ σ) :
    h.engine.Reaches (carry place n h).engine := by
  induction n generalizing h with
  | zero => exact .refl _
  | succ n ih =>
    have hsettled := (reaches_goOn place n h).trans (reaches_settle _)
    simp only [carry]
    split
    · exact hsettled.trans ((reaches_go? ‹_›).trans (ih _))
    · exact hsettled

theorem reaches_startPatrol (h : Host ρ σ) : h.engine.Reaches h.startPatrol.engine := by
  unfold startPatrol
  split
  · exact .refl _
  · exact h.reaches_apply .startPatrol

theorem reaches_rest (h : Host ρ σ) : h.engine.Reaches h.rest.engine := by
  unfold rest
  split
  · exact h.reaches_settle
  · exact h.reaches_settle.trans (reaches_carry _ _ _)

/-- **An interval of the patrol is a run.** -/
theorem reaches_tick (h : Host ρ σ) : h.engine.Reaches h.tick.engine :=
  reaches_rest { h with waits := h.waits.pass h.interval }

theorem reaches_passTo (due n : Nat) (h : Host ρ σ) :
    h.engine.Reaches (passTo due n h).engine := by
  induction n generalizing h with
  | zero => exact .refl _
  | succ n ih =>
    simp only [passTo]
    split
    · exact .refl _
    · rename_i stop _
      split
      · exact (reaches_rest { h with waits := h.waits.passTo stop }).trans (ih _)
      · exact .refl _

theorem reaches_hurry (place n : Nat) (h : Host ρ σ) :
    h.engine.Reaches (hurry place n h).engine := by
  induction n generalizing h with
  | zero => exact .refl _
  | succ n ih =>
    have hcarried := reaches_carry place h.stamina h
    simp only [hurry]
    split
    · exact hcarried.trans ((reaches_passTo _ _ _).trans (ih _))
    · exact hcarried

/-- **To serve a request is a run.** -/
theorem reaches_serve (h : Host ρ σ) (request : Request) (hurried : Bool) :
    h.engine.Reaches (h.serve request hurried).1.engine := by
  have hbegin : h.engine.Reaches (h.begin request).1.engine :=
    (h.reaches_apply _).trans (reaches_goOn _ _ _)
  refine hbegin.trans ?_
  simp only [serve, complete]
  split
  · exact reaches_hurry _ _ _
  · exact reaches_carry _ _ _

end Host

/-! ## 3. Clients -/

section Clients

variable {ρ σ : Type}

/-- The request calls a tool. -/
def ClientRequest.isCall : ClientRequest → Bool
  | callTool _ => true
  | _ => false

/-- **Only a call does anything**: lists and resources are told as they are. -/
theorem ClientRequest.answer_of_not_call (h : Host ρ σ) {request : ClientRequest}
    (hr : request.isCall = false) : (request.answer h).1 = h := by
  cases request with
  | callTool c => cases hr
  | readResource uri =>
    simp only [answer]
    split <;> rfl
  | _ => rfl

theorem ClientRequest.reaches_answer (h : Host ρ σ) (request : ClientRequest) :
    h.engine.Reaches (request.answer h).1.engine := by
  cases hr : request.isCall with
  | false =>
    rw [answer_of_not_call h hr]
    exact .refl _
  | true =>
    cases request with
    | callTool c =>
      have hserve := h.reaches_serve (.call c) false
      simp only [answer]
      split <;> (rename_i hs; rw [hs] at hserve; exact hserve)
    | _ => cases hr

/-- **Whatever a client sends, what comes of it is a run.** -/
theorem ClientMessage.reaches_answer (h : Host ρ σ) (m : ClientMessage) :
    h.engine.Reaches (m.answer h).1.engine := by
  unfold answer
  split
  · exact .refl _
  · split
    · exact .refl _
    · have hrequest := (ClientRequest.ofMethod m.method m.params).reaches_answer h
      split <;> (rename_i hs; rw [hs] at hrequest; exact hrequest)

end Clients
end Workbench
