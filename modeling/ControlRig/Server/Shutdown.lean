import ControlRig.Manager.Monitor
import ControlRig.Server.Error

/-!
# Serving until the end

The daemon serves requests while the monitor runs beside. Its end is ordered: no more requests are
accepted and those in flight are answered; then the monitor stops the active configuration; then the
manager goes, and its teardown unloads whatever the registry still holds. If an emergency stop of
the monitor fails, that is the reason for the end, and no further stop is tried.

Here there are no requests in flight when the end comes; `Server/Serving` is about those.
-/

namespace ControlRig.Server

open Procedure

/-- What the monitor does before it is told to end. -/
def monitorUntilEnd (m : Manager) (passes : Nat) : Procedure MonitorPhase := do
  m.watch passes (← m.monitorStart)

/-- The monitor's last act, unless it has ended before. -/
def lastStop (m : Manager) : MonitorPhase → Procedure (Except ManagerError Unit)
  | .over outcome => return outcome
  | _ => do
    let outcome ← m.monitorEnd
    Manager.reportEnd outcome
    return outcome

/-- The reason for the end, given the outcome of the monitor, which is none if it crashed. -/
def ending : Option (Except ManagerError Unit) → Except ServerError Unit
  | none => .error .monitorCrashed
  | some (.error e) => .error (.manager e)
  | some (.ok ()) => .ok ()

/-- The end of the daemon, when its monitor has come so far, or has crashed. -/
def windUp (m : Manager) (watched : Option MonitorPhase) :
    Procedure (Except ServerError Unit) := do
  match watched with
  | some (.over outcome) => Manager.reportEnd outcome
  | _ => pure ()
  inform "no longer accepting requests"
  let outcome ← match watched with
    | some phase => attempt (lastStop m phase)
    | none => pure none
  m.drop
  return ending outcome

/-- Serve until the end is requested or the monitor ends by itself. The monitor is given a number of
passes; there is no outcome if they do not bring about the end. -/
def serve (m : Manager) (passes : Nat) : Procedure (Option (Except ServerError Unit)) := do
  match ← attempt (monitorUntilEnd m passes) with
  | some (.passing _) => return none
  | watched => return some (← windUp m watched)

end ControlRig.Server
