import ControlRig.Manager.Basic
import ControlRig.Timing.Throttle
import ControlRig.Timing.Ticker

/-!
# The health monitor

A loop that runs beside the requests: at a fixed rate it looks whether it is to end, and on every
so-many-th pass it checks the health of the active configuration. When it is to end it stops the
active configuration. It ends early, with the error, if an emergency stop fails.

The monitor goes from phase to phase (`Manager.monitorStep`), and a pass of the loop is a phase of
its own. A procedure is finite, so what runs the loop is given a number of passes (`Manager.watch`);
without a request to end within them it is still passing afterwards.
-/

namespace ControlRig

/-- What the loop carries from one pass to the next. -/
structure MonitorLoop where
  /-- The number of passes that have begun. -/
  tick : Nat
  ticker : Ticker
  heartbeat : Throttle
  deriving DecidableEq, Repr

/-- Where the monitor stands. -/
inductive MonitorPhase where
  | starting
  | passing (loop : MonitorLoop)
  /-- It has seen that it is to end. -/
  | ending
  | over (outcome : Except ManagerError Unit)

namespace Manager

open Procedure

/-- Check the health if it is time to. After a check that found nothing to do, show a sign of life
once in a while. -/
def monitorCheck (m : Manager) (loop : MonitorLoop) :
    Procedure (Except ManagerError MonitorLoop) := do
  if loop.tick % m.settings.monitor.healthCheckEvery ≠ 0 then return .ok loop
  else
    match ← m.checkHealth with
    | .error e => return .error e
    | .ok true => return .ok loop
    | .ok false =>
      let (ready, heartbeat) := loop.heartbeat.ready (← now)
      if ready then
        let active ← m.activeName
        inform ("monitor alive, active configuration: " ++ nameOrNone active)
      return .ok { loop with heartbeat := heartbeat }

/-- A pass of the loop, until its turn is over. -/
def monitorPass (m : Manager) (loop : MonitorLoop) : Procedure MonitorPhase := do
  if ← of .exitRequested then return .ending
  else
    match ← m.monitorCheck { loop with tick := loop.tick + 1 } with
    | .error e => return .over (.error e)
    | .ok loop =>
      let (wait, ticker) := loop.ticker.tick (← now)
      if Duration.zero < wait then sleep wait
      return .passing { loop with ticker := ticker }

/-- Begin the loop now. -/
def monitorStart (m : Manager) : Procedure MonitorLoop := do
  let began ← now
  inform ("monitor running at " ++ Text.decimal m.settings.monitor.tickHz
    ++ " Hz, health check every " ++ Text.decimal m.settings.monitor.healthCheckEvery ++ " ticks")
  return ⟨0, .start began m.settings.monitor.tickHz, .start m.settings.heartbeatPeriod⟩

/-- What the monitor does when it is to end. -/
def monitorEnd (m : Manager) : Procedure (Except ManagerError Unit) := do
  inform "exit requested, stopping the running configuration"
  m.stop .bestEffort

/-- From one phase to the next. -/
def monitorStep (m : Manager) : MonitorPhase → Procedure MonitorPhase
  | .starting => return .passing (← m.monitorStart)
  | .passing loop => m.monitorPass loop
  | .ending => return .over (← m.monitorEnd)
  | .over outcome => return .over outcome

/-- Run the loop for at most so many passes. -/
def watch (m : Manager) : Nat → MonitorLoop → Procedure MonitorPhase
  | 0, loop => return .passing loop
  | passes + 1, loop => do
    match ← m.monitorPass loop with
    | .passing loop => watch m passes loop
    | phase => return phase

/-- The health monitor. There is no outcome if it is still passing after so many passes. -/
def monitor (m : Manager) (passes : Nat) : Procedure (Option (Except ManagerError Unit)) := do
  match ← m.watch passes (← m.monitorStart) with
  | .over outcome => return some outcome
  | .ending => return some (← m.monitorEnd)
  | _ => return none

/-- Say so if the monitor has ended with an error. -/
def reportEnd : Except ManagerError Unit → Procedure Unit
  | .error e => complain ("monitor terminated: " ++ e.message)
  | .ok () => return ()

/-- The health monitor on a line of its own, which reports the error with which it ends. -/
def monitorAlone (m : Manager) (passes : Nat) :
    Procedure (Option (Except ManagerError Unit)) := do
  match ← m.monitor passes with
  | some outcome =>
    reportEnd outcome
    return some outcome
  | none => return none

end Manager

end ControlRig
