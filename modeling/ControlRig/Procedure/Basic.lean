import ControlRig.Manager.State
import ControlRig.Param.Value
import ControlRig.Registry.Operation

/-!
# Procedures

What the manager does is written down before it is done. A `Procedure` is a course of action over
the manager's collaborators: the registry, the parameter store, the clock, the log, the manager's
own memory behind its lock. It asks for one action after the other and goes on with the answers;
who answers, and what else happens between two actions, is left open. So the same procedure can be
carried out on a simulated rig, on its own or interleaved with others.

A collaborator may crash instead of answering. The crash ends the procedure unless a step was
guarded by `attempt`.
-/

namespace ControlRig

/-- How important a message of the log is. -/
inductive Level where
  | info
  | warn
  | error
  deriving DecidableEq, Repr

/-- Something a procedure can ask for. -/
inductive Action where
  /-- Have the registry do something, within the given time. -/
  | call (operation : Operation) (limit : Duration)
  /-- Read the state of a resource. -/
  | readState (resource : String)
  /-- Ask whether the parameter store has a value at a key. -/
  | hasEntry (key : String)
  /-- Read the definitions at a key of the parameter store. -/
  | definitions (key : String)
  /-- Publish a text at a key of the parameter store. -/
  | publish (key text : String)
  | log (level : Level) (message : String)
  | now
  | sleep (duration : Duration)
  /-- Take the next number of a request. -/
  | nextNumber
  /-- Wait for the manager's lock and take it. -/
  | lock
  /-- Write the manager's memory, while its lock is held. -/
  | save (state : ManagerState)
  /-- Give the manager's lock back; after a crash it stays marked. -/
  | unlock (crashed : Bool)
  /-- Ask whether the monitor is to end. -/
  | exitRequested
  deriving Repr

/-- What is found behind the manager's lock. -/
structure Locked where
  state : ManagerState
  /-- Whether a crash has happened while the lock was held, now or earlier. -/
  crashed : Bool

/-- The form of the answer to an action. -/
abbrev Action.Answer : Action → Type
  | .call .. => Operation.Answer
  | .readState _ => ResourceState
  | .hasEntry _ => Bool
  | .definitions _ => Option Value
  | .publish .. => Unit
  | .log .. => Unit
  | .now => Instant
  | .sleep _ => Unit
  | .nextNumber => Nat
  | .lock => Locked
  | .save _ => Unit
  | .unlock _ => Unit
  | .exitRequested => Bool

/-- A course of action that ends with a value or a crash. An action is answered, or its collaborator
crashes. -/
inductive Procedure (α : Type) : Type where
  | done (a : α)
  | crash
  | ask (action : Action) (next : Option action.Answer → Procedure α)

namespace Procedure

variable {α β γ : Type}

/-- One procedure after another. -/
def bind : Procedure α → (α → Procedure β) → Procedure β
  | .done a, f => f a
  | .crash, _ => .crash
  | .ask action next, f => .ask action fun answer => bind (next answer) f

instance : Monad Procedure where
  pure := .done
  bind := bind

/-- Carry out a procedure, and go on whether or not it crashes. -/
def attempt : Procedure α → Procedure (Option α)
  | .done a => .done (some a)
  | .crash => .done none
  | .ask action next => .ask action fun answer => attempt (next answer)

/-- Ask for a single action. -/
def of (action : Action) : Procedure action.Answer :=
  .ask action fun
    | some answer => .done answer
    | none => .crash

@[simp] theorem pure_eq (a : α) : (pure a : Procedure α) = .done a := rfl

@[simp] theorem done_bind (a : α) (f : α → Procedure β) : (Procedure.done a >>= f) = f a := rfl

@[simp] theorem crash_bind (f : α → Procedure β) : (Procedure.crash >>= f) = .crash := rfl

@[simp] theorem ask_bind (action : Action) (next : Option action.Answer → Procedure α)
    (f : α → Procedure β) :
    (Procedure.ask action next >>= f) = .ask action fun answer => next answer >>= f := rfl

theorem bind_assoc (p : Procedure α) (f : α → Procedure β) (g : β → Procedure γ) :
    (p >>= f) >>= g = p >>= fun a => f a >>= g := by
  induction p with
  | done a => rfl
  | crash => rfl
  | ask action next ih =>
    simp only [ask_bind]
    exact congrArg _ (funext fun answer => ih answer)

theorem bind_done (p : Procedure α) : (p >>= Procedure.done) = p := by
  induction p with
  | done a => rfl
  | crash => rfl
  | ask action next ih =>
    simp only [ask_bind]
    exact congrArg _ (funext fun answer => ih answer)

instance : LawfulMonad Procedure :=
  LawfulMonad.mk' Procedure (fun p => bind_done p) (fun _ _ => rfl) bind_assoc

end Procedure

/-! ## Single actions by name -/

namespace Procedure

/-- Have the registry do something. -/
def call (operation : Operation) (limit : Duration) : Procedure Operation.Answer :=
  of (.call operation limit)

/-- Read the state of a resource. -/
def readState (resource : String) : Procedure ResourceState := of (.readState resource)

/-- Ask whether the parameter store has a value at a key. -/
def hasEntry (key : String) : Procedure Bool := of (.hasEntry key)

/-- Read the definitions at a key. -/
def definitions (key : String) : Procedure (Option Value) := of (.definitions key)

/-- Publish a text at a key. -/
def publish (key text : String) : Procedure Unit := of (.publish key text)

/-- Log what is going on. -/
def inform (message : String) : Procedure Unit := of (.log .info message)

/-- Log something that somebody should know. -/
def warn (message : String) : Procedure Unit := of (.log .warn message)

/-- Log something that went wrong. -/
def complain (message : String) : Procedure Unit := of (.log .error message)

/-- The moment it is. -/
def now : Procedure Instant := of .now

/-- Let time pass. -/
def sleep (duration : Duration) : Procedure Unit := of (.sleep duration)

/-- Write the manager's memory. -/
def save (state : ManagerState) : Procedure Unit := of (.save state)

/-- Carry out a step under the manager's lock. The lock is given back in any case; if the step
crashes, the lock stays marked and the crash goes on. -/
def withLock {α : Type} (step : ManagerState → Procedure α) : Procedure α := do
  let locked ← of .lock
  if locked.crashed then
    warn "manager lock was poisoned by a panicking request; recovering"
  match ← attempt (step locked.state) with
  | some a =>
    of (.unlock false)
    return a
  | none =>
    of (.unlock true)
    .crash

end Procedure

end ControlRig
