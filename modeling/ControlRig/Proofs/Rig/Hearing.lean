import ControlRig.Proofs.Manager.Soundness
import ControlRig.Proofs.Param.Tree
import ControlRig.Proofs.Rig.Lines

/-!
# What a line of a crew is told

A line goes on with the answers that its turns bring it (`Crew.said`), and with nothing else. So
where nobody is to crash, what is left of the procedure on a line follows from the procedure that
it began with (`Procedure.Follows`), whatever the other lines do (`Crew.hears_turn`).
-/

namespace ControlRig

open Procedure

variable {α : Type}

/-- What is left of the procedure on a line. A call that has entered is still to be answered; who
sleeps has its answer already. -/
def Line.procedure : Line α → Procedure α
  | .ready p => p
  | .calling operation limit _ next => .ask (.call operation limit) next
  | .sleeping _ p => p

/-- A key stays open to who publishes at no other. -/
theorem Rig.respond_writable (rig : Rig) {key : String} (h : rig.params.Writable key)
    {action : Action} (writes : action.WritesAt key) :
    (rig.respond action).2.params.Writable key := by
  cases action with
  | publish key' text =>
    cases writes
    exact (h.publish text).2
  | readState resource =>
    show rig.countRead.params.Writable key
    rw [rig.lingers_countRead.params]
    exact h
  | _ => exact h

namespace Crew

/-- The answers that a turn of a line brings it. A call is answered when it ends, not when it
enters. -/
def said (crew : Crew α) (i : Nat) : List Told :=
  match crew.lines[i]? with
  | some (.ready (.ask (.call ..) _)) => []
  | some (.ready (.ask action _)) => [⟨action, (crew.rig.respond action).1⟩]
  | some (.calling operation limit _ _) =>
    [⟨.call operation limit, (endCall crew.rig operation limit).1⟩]
  | _ => []

/-- What a turn does to its line. -/
structure Hears (crew next : Crew α) (i : Nat) (line line' : Line α) : Prop where
  lines : next.lines = crew.lines.set i line'
  calm : next.rig.armed = ∅
  follows : line.procedure.Follows (crew.said i) line'.procedure
  writable {key : String} {Q : α → Prop} : crew.rig.params.Writable key →
    line.procedure.Sound (Action.WritesAt key) Q → next.rig.params.Writable key

theorem hears_act {crew next : Crew α} {i : Nat} {action : Action}
    {after : Option action.Answer → Procedure α}
    (hline : crew.lines[i]? = some (.ready (.ask action after))) (calm : crew.rig.armed = ∅)
    (hturn : crew.act i action after = some next) :
    ∃ line', crew.Hears next i (.ready (.ask action after)) line' := by
  have hcalm : (crew.rig.respond action).2.armed = ∅ := (crew.rig.respond_armed action).trans calm
  cases action with
  | call operation limit =>
    rw [crew.act_call i calm] at hturn
    cases hturn
    refine ⟨_, rfl, calm, ?_, fun writable _ => writable⟩
    rw [said, hline]
    exact .refl _
  | lock =>
    cases hholder : crew.holder with
    | some holder =>
      rw [act, hholder] at hturn
      cases hturn
    | none =>
      rw [act, hholder] at hturn
      cases hturn
      refine ⟨_, rfl, calm, ?_, fun writable _ => writable⟩
      rw [said, hline]
      exact .step (.refl _)
  | sleep d =>
    cases hturn
    refine ⟨_, rfl, calm, ?_, fun writable _ => writable⟩
    rw [said, hline]
    exact .step (.refl _)
  | unlock crashed =>
    cases hturn
    refine ⟨_, rfl, hcalm, ?_, fun writable _ => writable⟩
    rw [said, hline]
    exact .step (.refl _)
  | _ =>
    rw [crew.act_of_prompt i, crew.rig.answer_of_calm calm] at hturn
    · cases hturn
      refine ⟨_, rfl, hcalm, ?_, fun writable sound => crew.rig.respond_writable writable sound.1⟩
      rw [said, hline]
      exact .step (.refl _)
    · trivial

/-- **A turn takes the procedure on its line further by what it is told.** -/
theorem hears_turn {crew next : Crew α} {i : Nat} (calm : crew.rig.armed = ∅)
    (hturn : crew.turn i = some next) :
    ∃ line line', crew.lines[i]? = some line ∧ crew.Hears next i line line' := by
  cases hline : crew.lines[i]? with
  | none =>
    rw [turn, hline] at hturn
    cases hturn
  | some line =>
    suffices h : ∃ line', crew.Hears next i line line' from ⟨line, h.choose, rfl, h.choose_spec⟩
    cases line with
    | ready p =>
      cases p with
      | ask action after =>
        rw [turn_ready hline] at hturn
        exact hears_act hline calm hturn
      | done | crash =>
        rw [turn, hline] at hturn
        cases hturn
    | calling operation limit due after =>
      rw [turn_calling hline] at hturn
      split at hturn
      · cases hturn
        refine ⟨_, rfl, calm, ?_, fun writable _ => writable⟩
        rw [said, hline]
        exact .step (.refl _)
      · cases hturn
    | sleeping due p =>
      rw [turn_sleeping hline] at hturn
      split at hturn
      · cases hturn
        refine ⟨_, rfl, calm, ?_, fun writable _ => writable⟩
        rw [said, hline]
        exact .refl _
      · cases hturn

end Crew

end ControlRig
