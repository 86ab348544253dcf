import ControlRig.Proofs.Rig.Frame

/-!
# What nobody reads

No action reads the log, and the cue for the end of the monitor is read by the one that asks for it
and by no other. So **a procedure that does not ask for the cue does the same on rigs that only
these two tell apart**, crashes included (`Procedure.Asks.run_hushed`). And inquiries leave nothing
else behind: they are logged, and reading a resource can bring the cue forward
(`Procedure.Composed.inquires`).
-/

namespace ControlRig

/-- The rig, but for what has been said on it and the cue for the end of the monitor. -/
def Rig.hushed (rig : Rig) : Rig := { rig with log := [], exit := .never }

/-- An action whose answer does not depend on the cue for the end of the monitor. -/
def Action.Heedless : Action → Prop
  | .exitRequested => False
  | _ => True

namespace Rig

theorem hushed_note (rig : Rig) (level : Level) (message : String) :
    (rig.note level message).hushed = rig.hushed := rfl

theorem hushed_countRead (rig : Rig) : rig.countRead.hushed = rig.hushed := by
  unfold countRead
  split <;> rfl

/-- What a resource reports is no matter of what has been said. -/
theorem stateOf_of_hushed {rig after : Rig} (h : after.hushed = rig.hushed) (resource : String) :
    after.stateOf resource = rig.stateOf resource :=
  (congrArg (Rig.stateOf · resource) h :)

theorem hushed_disarm (rig : Rig) (action : Action) :
    (rig.hushed.disarm action).hushed = (rig.disarm action).hushed := by
  unfold disarm
  split <;> rfl

theorem respond_hushed (rig : Rig) {action : Action} (h : action.Heedless) :
    (rig.hushed.respond action).1 = (rig.respond action).1 ∧
      (rig.hushed.respond action).2.hushed = (rig.respond action).2.hushed := by
  cases action with
  | exitRequested => exact absurd h id
  | readState resource => exact ⟨rfl, rig.hushed_countRead.symm⟩
  | _ => exact ⟨rfl, rfl⟩

theorem answer_hushed (rig : Rig) {action : Action} (h : action.Heedless) :
    (rig.hushed.answer action).1 = (rig.answer action).1 ∧
      (rig.hushed.answer action).2.hushed = (rig.answer action).2.hushed := by
  have harm : rig.hushed.isArmedAt action = rig.isArmedAt action := rfl
  unfold answer
  rw [harm]
  split
  · exact ⟨rfl, rig.hushed_disarm action⟩
  · obtain ⟨hanswer, hafter⟩ := rig.respond_hushed h
    exact ⟨congrArg some hanswer, hafter⟩

end Rig

namespace Procedure

variable {α : Type}

/-- **What is not asked for makes no difference**: where only the log and the cue tell two rigs
apart, the same happens, crashes included. -/
theorem Asks.run_hushed {p : Procedure α} (h : p.Asks Action.Heedless) {rig other : Rig}
    (same : rig.hushed = other.hushed) :
    (p.run rig).1 = (p.run other).1 ∧ (p.run rig).2.hushed = (p.run other).2.hushed := by
  induction p generalizing rig other with
  | done a => exact ⟨rfl, same⟩
  | crash => exact ⟨rfl, same⟩
  | ask action next ih =>
    obtain ⟨hrig, hrigAfter⟩ := rig.answer_hushed h.1
    obtain ⟨hother, hotherAfter⟩ := other.answer_hushed h.1
    rw [same] at hrig hrigAfter
    have hanswer : (rig.answer action).1 = (other.answer action).1 := hrig.symm.trans hother
    rw [run_ask, run_ask, hanswer]
    exact ih _ (h.2 _) (hrigAfter.symm.trans hotherAfter)

/-- Where nobody is to crash, inquiries come to a value and leave nothing but messages behind. -/
theorem Composed.inquires {p : Procedure α} (h : p.Composed Action.Inquires) {rig : Rig}
    (calm : rig.armed = ∅) :
    ∃ a after, p.run rig = (some a, after) ∧ after.hushed = rig.hushed := by
  obtain ⟨a, after, hrun, -⟩ := h.returns fun action _ => rig.not_isArmedAt calm action
  refine ⟨a, after, hrun, ?_⟩
  have hstep : ∀ (mid : Rig) (action : Action), action.Inquires → mid.hushed = rig.hushed →
      (mid.answer action).2.hushed = rig.hushed := by
    intro mid action hinquires hmid
    rcases mid.answer_cases action with ⟨harm, -⟩ | ⟨-, heq⟩
    · rw [mid.not_isArmedAt ((congrArg Rig.armed hmid).trans calm)] at harm
      cases harm
    · rw [heq]
      cases action with
      | readState resource => exact mid.hushed_countRead.trans hmid
      | hasEntry key => exact hmid
      | definitions key => exact hmid
      | log level message => exact hmid
      | _ => exact absurd hinquires id
  have hpreserved : (p.run rig).2.hushed = rig.hushed := h.asks.preserves hstep rfl
  rwa [hrun] at hpreserved

end Procedure

end ControlRig
