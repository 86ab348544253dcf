import ControlRig.Rig.Basic

/-!
# Several procedures on one rig

A crew carries out procedures side by side. Each has a line of its own, and the lines take turns in
any order (`Crew.step?`): a turn is one action, and while one line waits for the registry, sleeps or
waits for the manager's lock, the others go on. The lock is held by one line at a time; the order in
which it was taken is kept (`turns`).

A call to the registry takes two turns, one to enter and, when its time is up, one to have its
effect and end. So calls of two lines overlap on a crew, unless something keeps them apart.
-/

namespace ControlRig

/-- Where a procedure stands that is carried out on a line of its own. -/
inductive Line (α : Type) where
  /-- It goes on with this. -/
  | ready (p : Procedure α)
  /-- Its call to the registry has entered and has its effect when it is due. -/
  | calling (operation : Operation) (limit : Duration) (due : Instant)
      (next : Option Operation.Answer → Procedure α)
  /-- It sleeps until it is due. -/
  | sleeping (due : Instant) (p : Procedure α)

namespace Line

variable {α : Type}

/-- The result of a procedure that has ended; a crash is one without a value. -/
def result? : Line α → Option (Option α)
  | .ready (.done a) => some (some a)
  | .ready .crash => some none
  | _ => none

/-- Whether the procedure has ended. -/
def isOver (line : Line α) : Bool := line.result?.isSome

end Line

/-- A rig with procedures that are carried out side by side. -/
structure Crew (α : Type) where
  rig : Rig
  lines : List (Line α)
  /-- The line that holds the manager's lock. -/
  holder : Option Nat
  /-- The lines that have taken the lock, in the order of taking. -/
  turns : List Nat

namespace Crew

variable {α : Type}

/-- Procedures that begin on a rig. -/
def start (rig : Rig) (procedures : List (Procedure α)) : Crew α :=
  ⟨rig, procedures.map .ready, none, []⟩

/-- A line goes on, on the rig as it has become. -/
def goOn (crew : Crew α) (i : Nat) (rig : Rig) (line : Line α) : Crew α :=
  { crew with rig := rig, lines := crew.lines.set i line }

/-- The rig after a call has entered. -/
def enterCall (rig : Rig) (operation : Operation) : Rig :=
  { rig with
    registry := rig.registry.enter operation
    log := rig.log ++ (rig.registry.enterNotices operation).map ((.warn, ·)) }

/-- The answer to a call that is due, and the rig after it. -/
def endCall (rig : Rig) (operation : Operation) (limit : Duration) : Operation.Answer × Rig :=
  let p := rig.registry.perform rig.clock limit operation
  (p.answer, { rig with
    registry := p.registry.leave
    log := rig.log ++ p.notices.map ((.warn, ·)) })

/-- A call on a rig enters, takes its time and ends. -/
theorem call_eq (rig : Rig) (operation : Operation) (limit : Duration) :
    rig.call operation limit =
      endCall ((enterCall rig operation).elapse (rig.registry.wait limit)) operation limit := by
  simp [Rig.call, SimRegistry.run, endCall, enterCall, Rig.elapse]

/-- A turn of a line that goes on with an action. -/
def act (crew : Crew α) (i : Nat) :
    (action : Action) → (Option action.Answer → Procedure α) → Option (Crew α)
  | .lock, next =>
    match crew.holder with
    | some _ => none
    | none =>
      some { crew.goOn i crew.rig (.ready (next (some ⟨crew.rig.memory, crew.rig.crashed⟩))) with
        holder := some i
        turns := crew.turns ++ [i] }
  | .unlock crashed, next =>
    let (_, rig) := crew.rig.respond (.unlock crashed)
    some { crew.goOn i rig (.ready (next (some ()))) with holder := none }
  | .call operation limit, next =>
    if crew.rig.isArmedAt (.call operation limit) then
      some (crew.goOn i (crew.rig.disarm (.call operation limit)) (.ready (next none)))
    else
      let due := crew.rig.clock.after (crew.rig.registry.wait limit)
      some (crew.goOn i (enterCall crew.rig operation) (.calling operation limit due next))
  | .sleep d, next =>
    some (crew.goOn i crew.rig (.sleeping (crew.rig.clock.after d) (next (some ()))))
  | action, next =>
    let (answer, rig) := crew.rig.answer action
    some (crew.goOn i rig (.ready (next answer)))

/-- A turn of a line, unless it has ended or has to wait. -/
def turn (crew : Crew α) (i : Nat) : Option (Crew α) :=
  match crew.lines[i]? with
  | some (.ready (.ask action next)) => crew.act i action next
  | some (.calling operation limit due next) =>
    if due ≤ crew.rig.clock then
      let (answer, rig) := endCall crew.rig operation limit
      some (crew.goOn i rig (.ready (next (some answer))))
    else none
  | some (.sleeping due p) =>
    if due ≤ crew.rig.clock then some (crew.goOn i crew.rig (.ready p)) else none
  | _ => none

/-- Something that happens to a crew. -/
inductive Event where
  | turn (line : Nat)
  | elapse (d : Duration)
  deriving DecidableEq, Repr

/-- The crew after an event, if the event can happen. -/
def step? (crew : Crew α) : Event → Option (Crew α)
  | .turn line => crew.turn line
  | .elapse d => some { crew with rig := crew.rig.elapse d }

/-- The crew after several events, if all of them can happen. -/
def run? (crew : Crew α) : List Event → Option (Crew α)
  | [] => some crew
  | event :: rest => (crew.step? event).bind (·.run? rest)

/-- Whether every procedure has ended. -/
def isOver (crew : Crew α) : Bool := crew.lines.all Line.isOver

/-- The results of the procedures that have ended. -/
def results (crew : Crew α) : List (Option (Option α)) := crew.lines.map Line.result?

end Crew

end ControlRig
