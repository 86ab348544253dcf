import ControlRig.Proofs.Registry.Strictness
import ControlRig.Proofs.Rig.History

/-!
# Rigs in accord

Two rigs are in accord if only the log tells them apart, and how strict the starts were that the
registry has on record. No action reads either of them. So **whatever a procedure does on one of
the rigs, it does on the other as well**, crashes included, and it leaves them in accord
(`Rig.Accords.run`): what two procedures have in common can be taken for granted once they have been
brought to rigs that are in accord.
-/

namespace ControlRig

namespace Rig

/-- Rigs that differ at most in the log and in the strictness of the starts on record. -/
structure Accords (rig other : Rig) : Prop where
  registry : rig.registry.lenient = other.registry.lenient
  params : rig.params = other.params
  clock : rig.clock = other.clock
  armed : rig.armed = other.armed
  exit : rig.exit = other.exit
  memory : rig.memory = other.memory
  crashed : rig.crashed = other.crashed
  numbers : rig.numbers = other.numbers

namespace Accords

variable {rig other : Rig}

theorem refl (rig : Rig) : rig.Accords rig := ⟨rfl, rfl, rfl, rfl, rfl, rfl, rfl, rfl⟩

theorem trans {a b c : Rig} (hab : a.Accords b) (hbc : b.Accords c) : a.Accords c :=
  ⟨hab.registry.trans hbc.registry, hab.params.trans hbc.params, hab.clock.trans hbc.clock,
    hab.armed.trans hbc.armed, hab.exit.trans hbc.exit, hab.memory.trans hbc.memory,
    hab.crashed.trans hbc.crashed, hab.numbers.trans hbc.numbers⟩

theorem isArmedAt (h : rig.Accords other) (action : Action) :
    rig.isArmedAt action = other.isArmedAt action := by
  unfold Rig.isArmedAt
  rw [h.armed]

theorem disarm (h : rig.Accords other) (action : Action) :
    (rig.disarm action).Accords (other.disarm action) := by
  unfold Rig.disarm
  split
  · exact { h with armed := congrArg (NameSet.filter · _) h.armed }
  · exact h

/-- Messages do not disturb the accord. -/
theorem note (h : rig.Accords other) (level level' : Level) (message message' : String) :
    (rig.note level message).Accords (other.note level' message') :=
  { h with }

theorem call (h : rig.Accords other) (operation : Operation) (limit : Duration) :
    (rig.call operation limit).1 = (other.call operation limit).1 ∧
      (rig.call operation limit).2.Accords (other.call operation limit).2 := by
  have hrun := SimRegistry.run_congr_of_lenient h.registry rig.clock limit operation
  have hwait : rig.registry.lenient.wait limit = other.registry.lenient.wait limit := by
    rw [h.registry]
  unfold Rig.call
  rw [← h.clock]
  refine ⟨hrun.1, { h with registry := hrun.2, clock := ?_ }⟩
  show rig.clock.after (rig.registry.lenient.wait limit) =
    other.clock.after (other.registry.lenient.wait limit)
  rw [h.clock, hwait]

theorem stateOf (h : rig.Accords other) (resource : String) :
    rig.stateOf resource = other.stateOf resource := by
  have hstate := congrArg (·.stateAt rig.clock resource) h.registry
  rw [Rig.stateOf, Rig.stateOf, ← h.clock]
  exact hstate

theorem countRead (h : rig.Accords other) : rig.countRead.Accords other.countRead := by
  unfold Rig.countRead
  rw [h.exit]
  split
  · exact { h with exit := rfl }
  · exact h

theorem publish (h : rig.Accords other) (key text : String) :
    (rig.publish key text).Accords (other.publish key text) := by
  have hparams : (rig.params.publish key text).1 = (other.params.publish key text).1 := by
    rw [h.params]
  exact { h with params := hparams }

theorem respond (h : rig.Accords other) (action : Action) :
    (rig.respond action).1 = (other.respond action).1 ∧
      (rig.respond action).2.Accords (other.respond action).2 := by
  cases action with
  | call operation limit => exact h.call operation limit
  | readState resource => exact ⟨h.stateOf resource, h.countRead⟩
  | hasEntry key => exact ⟨congrArg (ParamTree.hasEntry · key) h.params, h⟩
  | definitions key => exact ⟨congrArg (ParamTree.get? · key) h.params, h⟩
  | publish key text => exact ⟨rfl, h.publish key text⟩
  | log level message => exact ⟨rfl, h.note level level message message⟩
  | now => exact ⟨h.clock, h⟩
  | sleep d => exact ⟨rfl, { h with clock := congrArg (Instant.after · d) h.clock }⟩
  | nextNumber =>
    exact ⟨congrArg (· + 1) h.numbers, { h with numbers := congrArg (· + 1) h.numbers }⟩
  | lock => exact ⟨by rw [Rig.respond, Rig.respond, h.memory, h.crashed], h⟩
  | save state => exact ⟨rfl, { h with memory := rfl }⟩
  | unlock crashed => exact ⟨rfl, { h with crashed := congrArg (· || crashed) h.crashed }⟩
  | exitRequested =>
    refine ⟨?_, { h with clock := congrArg (Instant.after · Rig.lookTime) h.clock }⟩
    show rig.exitRequested = other.exitRequested
    unfold Rig.exitRequested
    rw [h.exit, h.clock]

theorem answer (h : rig.Accords other) (action : Action) :
    (rig.answer action).1 = (other.answer action).1 ∧
      (rig.answer action).2.Accords (other.answer action).2 := by
  have hrespond := h.respond action
  rcases rig.answer_cases action with ⟨harmed, heq⟩ | ⟨harmed, heq⟩
  · rcases other.answer_cases action with ⟨-, heq'⟩ | ⟨hcalm, -⟩
    · rw [heq, heq']
      exact ⟨rfl, h.disarm action⟩
    · rw [h.isArmedAt, hcalm] at harmed
      cases harmed
  · rcases other.answer_cases action with ⟨hcrash, -⟩ | ⟨-, heq'⟩
    · rw [h.isArmedAt, hcrash] at harmed
      cases harmed
    · rw [heq, heq']
      exact ⟨congrArg some hrespond.1, hrespond.2⟩

/-- **On rigs that are in accord a procedure does the same.** -/
theorem run {α : Type} (h : rig.Accords other) (p : Procedure α) :
    (p.run rig).1 = (p.run other).1 ∧ (p.run rig).2.Accords (p.run other).2 := by
  induction p generalizing rig other with
  | done a => exact ⟨rfl, h⟩
  | crash => exact ⟨rfl, h⟩
  | ask action next ih =>
    obtain ⟨hanswer, hafter⟩ := h.answer action
    rw [Procedure.run_ask, Procedure.run_ask, hanswer]
    exact ih _ hafter

end Accords

end Rig

end ControlRig
