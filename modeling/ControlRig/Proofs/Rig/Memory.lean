import ControlRig.Proofs.Manager.Failure

/-!
# What may become of the memory

`p.Maintains I` says that a procedure leaves the manager's memory with a property that it had, **on
every rig, crashes included**. The memory is written as a whole and by one action alone, so the
property has to be checked where a procedure saves, and nowhere else (`maintains_save`). Under the
lock a step is handed the memory that it finds there (`Maintains.withLock`), and so it is the step
from which a property of its argument can be expected.
-/

namespace ControlRig

theorem Rig.memory_answer (rig : Rig) {action : Action} (h : ∀ state, action ≠ .save state) :
    (rig.answer action).2.memory = rig.memory := by
  rcases rig.answer_cases action with ⟨-, heq⟩ | ⟨-, heq⟩
  · rw [heq]
    unfold disarm
    split <;> rfl
  · rw [heq]
    cases action with
    | save state => exact absurd rfl (h state)
    | readState resource =>
      show rig.countRead.memory = rig.memory
      unfold countRead
      split <;> rfl
    | _ => rfl

namespace Procedure

variable {α β : Type} {I : ManagerState → Prop}

def Maintains (I : ManagerState → Prop) (p : Procedure α) : Prop :=
  ∀ rig, I rig.memory → I (p.run rig).2.memory

theorem maintains_done (a : α) : (Procedure.done a).Maintains I := fun _ h => h

theorem maintains_of {action : Action} (h : ∀ state, action ≠ .save state) :
    (of action).Maintains I := by
  intro rig hI
  rw [run_of, rig.memory_answer h]
  exact hI

theorem maintains_save {state : ManagerState} (h : I state) : (save state).Maintains I :=
  fun _ _ => h

theorem Composed.maintains {p : Procedure α} (h : p.Composed Action.Spares) : p.Maintains I := by
  intro rig hI
  rw [(h.asks.spares rig).1]
  exact hI

/-- The second procedure may count on its argument being a value to which the first can come. -/
theorem Maintains.bind {p : Procedure α} {f : α → Procedure β} (hp : p.Maintains I)
    (hf : ∀ rig a after, p.run rig = (some a, after) → (f a).Maintains I) :
    (p >>= f).Maintains I := by
  intro rig hI
  have hmid := hp rig hI
  rw [run_bind]
  cases hrun : p.run rig with
  | mk result mid =>
    rw [hrun] at hmid
    cases result with
    | none => exact hmid
    | some a => exact hf rig a mid hrun mid hmid

theorem Maintains.withLock {step : ManagerState → Procedure α}
    (h : ∀ state, I state → (step state).Maintains I) : (Procedure.withLock step).Maintains I := by
  intro rig hI
  rw [withLock_eq]
  -- taking the lock cannot crash, and tells what the memory is
  show I ((Procedure.bind (if rig.crashed then
    warn "manager lock was poisoned by a panicking request; recovering" else pure ())
    fun _ => guarded (step rig.memory)).run rig).2.memory
  refine Maintains.bind ?_ (fun _ _ _ _ begin hbegin => ?_) rig hI
  · split
    · exact maintains_of nofun
    · exact maintains_done ()
  · rw [(run_guarded (step rig.memory) begin).2.1.1]
    exact h rig.memory hI begin hbegin

end Procedure

end ControlRig
