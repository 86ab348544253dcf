import ControlRig.Proofs.Rig.Frame

/-!
# Carried out to the end

The relation `Goes` says what a procedure may come to, and no more: a statement about all walks
holds of a procedure that has none. This file is for the other half, **that a procedure does come
to something**. On a rig where nobody is to crash a composed procedure that writes nothing has a
value, one of its walks leads there, and the registry has answered along it
(`Composed.carriedOut`). Where it matters which value that is, the procedure is carried out step by
step instead, with the lemmas on single actions.

`Rig.Continues` collects what such a run leaves as it was. The clock is the one thing in it that
moves, and it moves one way. Where nobody waits it does not move at all, and a registry that is only
read stays as it is (`Rig.Glanced`).
-/

namespace ControlRig

namespace Rig

/-- A rig has gone on, but not in anything that only a change from outside or a write would
change. -/
structure Continues (rig after : Rig) : Prop where
  armed : after.armed = rig.armed
  memory : after.memory = rig.memory
  params : after.params = rig.params
  faults : after.registry.faults = rig.registry.faults
  latency : after.registry.latency = rig.registry.latency
  initDelay : after.registry.initDelay = rig.registry.initDelay
  clock : rig.clock ≤ after.clock

theorem Continues.trans {a b c : Rig} (hab : a.Continues b) (hbc : b.Continues c) :
    a.Continues c where
  armed := hbc.armed.trans hab.armed
  memory := hbc.memory.trans hab.memory
  params := hbc.params.trans hab.params
  faults := hbc.faults.trans hab.faults
  latency := hbc.latency.trans hab.latency
  initDelay := hbc.initDelay.trans hab.initDelay
  clock := Nat.le_trans hab.clock hbc.clock

theorem Continues.refl (rig : Rig) : rig.Continues rig :=
  ⟨rfl, rfl, rfl, rfl, rfl, rfl, Nat.le_refl _⟩

theorem continues_note (rig : Rig) (level : Level) (message : String) :
    rig.Continues (rig.note level message) :=
  ⟨rfl, rfl, rfl, rfl, rfl, rfl, Nat.le_refl _⟩

theorem continues_call (rig : Rig) (operation : Operation) (limit : Duration) :
    rig.Continues (rig.call operation limit).2 where
  armed := rfl
  memory := rfl
  params := rfl
  faults := SimRegistry.run_faults rig.registry rig.clock limit operation
  latency := SimRegistry.run_latency rig.registry rig.clock limit operation
  initDelay := SimRegistry.run_initDelay rig.registry rig.clock limit operation
  clock := Nat.le_add_right _ _

/-- A rig has been looked at, at one moment. -/
structure Glanced (rig after : Rig) : Prop where
  registry : after.registry = rig.registry
  clock : after.clock = rig.clock
  armed : after.armed = rig.armed

theorem Glanced.refl (rig : Rig) : rig.Glanced rig := ⟨rfl, rfl, rfl⟩

theorem Glanced.trans {a b c : Rig} (hab : a.Glanced b) (hbc : b.Glanced c) : a.Glanced c :=
  ⟨hbc.registry.trans hab.registry, hbc.clock.trans hab.clock, hbc.armed.trans hab.armed⟩

theorem glanced_countRead (rig : Rig) : rig.Glanced rig.countRead := by
  unfold countRead
  split <;> exact ⟨rfl, rfl, rfl⟩

/-- No answer puts the clock back. -/
theorem clock_le_answer (rig : Rig) (action : Action) :
    rig.clock ≤ (rig.answer action).2.clock := by
  rcases rig.answer_cases action with ⟨-, heq⟩ | ⟨-, heq⟩
  · rw [heq]
    unfold disarm
    split <;> exact Nat.le_refl _
  · rw [heq]
    cases action with
    | call operation limit => exact Nat.le_add_right _ _
    | sleep d => exact Nat.le_add_right _ _
    | exitRequested => exact Nat.le_add_right _ _
    | readState resource =>
      show rig.clock ≤ rig.countRead.clock
      unfold countRead
      split <;> exact Nat.le_refl _
    | _ => exact Nat.le_refl _

end Rig

namespace Procedure

variable {α : Type}

theorem clock_le_run (p : Procedure α) (rig : Rig) : rig.clock ≤ (p.run rig).2.clock := by
  induction p generalizing rig with
  | done a => exact Nat.le_refl _
  | crash => exact Nat.le_refl _
  | ask action next ih => exact Nat.le_trans (rig.clock_le_answer action) (ih _ _)

/-- **What is composed and writes nothing comes to a value** where nobody is to crash, by one of
its walks. -/
theorem Composed.carriedOut {p : Procedure α} (h : p.Composed Action.Spares) {rig : Rig}
    (calm : rig.armed = ∅) :
    ∃ a seen after, p.run rig = (some a, after) ∧ p.Goes seen (some a) ∧
      rig.registry.Replays seen after.registry ∧ rig.Continues after := by
  obtain ⟨a, after, hrun, harmed⟩ := h.returns fun action _ => rig.not_isArmedAt calm action
  have hgo := p.goes_history rig
  have hreplays := p.replays_history rig
  have hspares := h.asks.spares rig
  have hclock := p.clock_le_run rig
  rw [hrun] at hgo hreplays hspares hclock
  exact ⟨a, p.history rig, after, hrun, hgo, hreplays,
    { armed := harmed
      memory := hspares.1
      params := hspares.2
      faults := hreplays.faults
      latency := hreplays.latency
      initDelay := hreplays.initDelay
      clock := hclock }⟩

/-! ## Single actions -/

section

variable {rig : Rig}

/-- Where nobody is to crash, an action is responded to. -/
theorem run_of_calm (calm : rig.armed = ∅) (action : Action) :
    (of action).run rig = (some (rig.respond action).1, (rig.respond action).2) := by
  rw [run_of]
  rcases rig.answer_cases action with ⟨harm, -⟩ | ⟨-, heq⟩
  · rw [rig.not_isArmedAt calm action] at harm
    cases harm
  · exact heq

/-- A call is answered as the registry answers it at the time. -/
theorem run_call (rig : Rig) (calm : rig.armed = ∅) {operation : Operation} {limit : Duration}
    {answer : Operation.Answer} (h : (rig.registry.run rig.clock limit operation).answer = answer) :
    (call operation limit).run rig = (some answer, (rig.call operation limit).2) := by
  rw [← h]
  exact run_of_calm calm _

/-- A procedure comes to what its second part comes to. -/
theorem exists_run_bind {α β : Type} {p : Procedure α} {f : α → Procedure β} {mid : Rig} {a : α}
    {Q : β → Rig → Prop} (hp : p.run rig = (some a, mid))
    (hf : ∃ b after, (f a).run mid = (some b, after) ∧ Q b after) :
    ∃ b after, (p >>= f).run rig = (some b, after) ∧ Q b after := by
  obtain ⟨b, after, hrun, hq⟩ := hf
  exact ⟨b, after, run_bind_some.2 ⟨a, mid, hp, hrun⟩, hq⟩

theorem run_inform_bind {β : Type} (message : String) (f : Unit → Procedure β) (rig : Rig) :
    (inform message >>= f).run rig = (f ()).run (rig.note .info message) := rfl

theorem run_warn_bind {β : Type} (message : String) (f : Unit → Procedure β) (rig : Rig) :
    (warn message >>= f).run rig = (f ()).run (rig.note .warn message) := rfl

theorem run_inform (message : String) (rig : Rig) :
    (inform message).run rig = (some (), rig.note .info message) := rfl

theorem run_warn (message : String) (rig : Rig) :
    (warn message).run rig = (some (), rig.note .warn message) := rfl

theorem run_now (rig : Rig) : now.run rig = (some rig.clock, rig) := rfl

theorem run_sleep (d : Duration) (rig : Rig) : (sleep d).run rig = (some (), rig.elapse d) := rfl

theorem run_exitRequested (rig : Rig) :
    (of .exitRequested).run rig = (some rig.exitRequested, rig.elapse Rig.lookTime) := rfl

end

end Procedure

end ControlRig
