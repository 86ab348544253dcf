import ControlRig.Param.Access
import ControlRig.Procedure.Basic
import ControlRig.Registry.Simulated

/-!
# A rig to rehearse on

Everything that procedures act upon, simulated: the registry, the parameter tree, a clock that goes
forward only while somebody waits, the log, and the manager's memory. A rig answers the actions of a
procedure (`Rig.answer`), so that a procedure can be carried out from beginning to end
(`Procedure.run`).

A rig can be set up to let a collaborator crash once (`armed`), and to request the end of the
monitor at some point (`exit`).
-/

namespace ControlRig

/-- When the end of the monitor is requested. -/
inductive ExitCue where
  | never
  | now
  /-- While the so-many-th resource from here on is read. -/
  | afterReads (count : Nat)
  | atMoment (moment : Instant)
  deriving DecidableEq, Repr

/-- Everything that procedures act upon. -/
structure Rig where
  registry : SimRegistry
  params : ParamTree
  clock : Instant
  /-- Every message so far, oldest first. -/
  log : List (Level × String)
  /-- The cues at which a collaborator is to crash. -/
  armed : NameSet
  exit : ExitCue
  /-- What the manager remembers. -/
  memory : ManagerState
  /-- Whether something has crashed while it held the manager's lock. -/
  crashed : Bool
  /-- How many numbers of requests have been taken. -/
  numbers : Nat

namespace Rig

/-- A rig on which nothing has happened. -/
def fresh (registry : SimRegistry) (params : ParamTree) : Rig where
  registry := registry
  params := params
  clock := .start
  log := []
  armed := ∅
  exit := .never
  memory := .fresh .empty
  crashed := false
  numbers := 0

/-! ## Crashes -/

/-- The name of the point at which the collaborator of an action can crash. -/
def cue : Action → Option String
  | .call operation _ => some operation.call.name
  | .readState resource => some ("state:" ++ resource)
  | .hasEntry _ => some "has_entry"
  | .definitions _ => some "definitions"
  | .publish .. => some "set_status"
  | _ => none

/-- Whether the collaborator of an action is to crash. -/
def isArmedAt (rig : Rig) (action : Action) : Bool :=
  match cue action with
  | some name => decide (name ∈ rig.armed)
  | none => false

/-- The collaborator of an action crashes, which it does only once. -/
def disarm (rig : Rig) (action : Action) : Rig :=
  match cue action with
  | some name => { rig with armed := rig.armed.filter (· ≠ name) }
  | none => rig

/-! ## Answers -/

/-- Write a message to the log. -/
def note (rig : Rig) (level : Level) (message : String) : Rig :=
  { rig with log := rig.log ++ [(level, message)] }

/-- Let time pass. -/
def elapse (rig : Rig) (d : Duration) : Rig := { rig with clock := rig.clock.after d }

/-- Have the registry do something. -/
def call (rig : Rig) (operation : Operation) (limit : Duration) : Operation.Answer × Rig :=
  let p := rig.registry.run rig.clock limit operation
  (p.answer, { rig.elapse (rig.registry.wait limit) with
    registry := p.registry
    log := rig.log ++ p.notices.map ((.warn, ·)) })

/-- The state that a resource reports. -/
def stateOf (rig : Rig) (resource : String) : ResourceState :=
  rig.registry.stateAt rig.clock resource

/-- A resource is read: the end of the monitor may be requested meanwhile. -/
def countRead (rig : Rig) : Rig :=
  match rig.exit with
  | .afterReads (n + 1) => { rig with exit := if n = 0 then .now else .afterReads n }
  | _ => rig

/-- Publish a text. -/
def publish (rig : Rig) (key text : String) : Rig :=
  let (params, warnings) := rig.params.publish key text
  { rig with params := params, log := rig.log ++ warnings.map ((.warn, ·)) }

/-- Whether the end of the monitor has been requested. -/
def exitRequested (rig : Rig) : Bool :=
  match rig.exit with
  | .now => true
  | .atMoment moment => moment ≤ rig.clock
  | .never | .afterReads _ => false

/-- How long it takes to look whether the monitor is to end, so that time passes even for a monitor
that never has to wait. -/
def lookTime : Duration := ⟨1000⟩

/-- The answer of a collaborator that does not crash, and the rig after it. -/
def respond (rig : Rig) : (action : Action) → action.Answer × Rig
  | .call operation limit => rig.call operation limit
  | .readState resource => (rig.stateOf resource, rig.countRead)
  | .hasEntry key => (rig.params.hasEntry key, rig)
  | .definitions key => (rig.params.get? key, rig)
  | .publish key text => ((), rig.publish key text)
  | .log level message => ((), rig.note level message)
  | .now => (rig.clock, rig)
  | .sleep d => ((), rig.elapse d)
  | .nextNumber => (rig.numbers + 1, { rig with numbers := rig.numbers + 1 })
  | .lock => (⟨rig.memory, rig.crashed⟩, rig)
  | .save state => ((), { rig with memory := state })
  | .unlock crashed => ((), { rig with crashed := rig.crashed || crashed })
  | .exitRequested => (rig.exitRequested, rig.elapse lookTime)

/-- The answer to an action, or none if its collaborator crashes. -/
def answer (rig : Rig) (action : Action) : Option action.Answer × Rig :=
  if rig.isArmedAt action then (none, rig.disarm action)
  else
    let (a, rig) := rig.respond action
    (some a, rig)

end Rig

/-- Carry out a procedure on a rig, with nothing in between. -/
def Procedure.run {α : Type} : Procedure α → Rig → Option α × Rig
  | .done a, rig => (some a, rig)
  | .crash, rig => (none, rig)
  | .ask action next, rig =>
    let (a, rig) := rig.answer action
    (next a).run rig

namespace Procedure

variable {α β : Type}

@[simp] theorem run_done (a : α) (rig : Rig) : (Procedure.done a).run rig = (some a, rig) := rfl

@[simp] theorem run_crash (rig : Rig) : (Procedure.crash : Procedure α).run rig = (none, rig) := rfl

theorem run_ask (action : Action) (next : Option action.Answer → Procedure α) (rig : Rig) :
    (Procedure.ask action next).run rig =
      (next (rig.answer action).1).run (rig.answer action).2 := rfl

/-- One procedure after another: the second goes on where the first ended, unless that crashed. -/
theorem run_bind (p : Procedure α) (f : α → Procedure β) (rig : Rig) :
    (p >>= f).run rig =
      match p.run rig with
      | (some a, rig) => (f a).run rig
      | (none, rig) => (none, rig) := by
  induction p generalizing rig with
  | done a => rfl
  | crash => rfl
  | ask action next ih => exact ih _ _

theorem run_attempt (p : Procedure α) (rig : Rig) :
    p.attempt.run rig = (some (p.run rig).1, (p.run rig).2) := by
  induction p generalizing rig with
  | done a => rfl
  | crash => rfl
  | ask action next ih => exact ih _ _

end Procedure

end ControlRig
