import ControlRig.Manager.Error
import ControlRig.Param.Tree

/-!
# Why the daemon ends

The daemon ends with an exit code: 0 when it was asked to end and could stop everything, 2 when what
it was given to start with cannot be used, 1 for everything else.
-/

namespace ControlRig

/-- Why the daemon ended. -/
inductive ServerError where
  | manager (error : ManagerError)
  | registry (error : RegistryError)
  | params (error : ParamError)
  /-- The address cannot be listened on. -/
  | bind (address reason : String)
  /-- The system refused something else. -/
  | system
  /-- A collaborator crashed under the monitor. -/
  | monitorCrashed
  deriving Repr

namespace ServerError

/-- The wording of a server error. -/
def message : ServerError → String
  | .manager error => error.message
  | .registry error => error.message
  | .params error => "parameter file: " ++ error.message
  | .bind address reason => "failed to bind " ++ address ++ ": " ++ reason
  | .system => "I/O error"
  | .monitorCrashed => "monitor thread panicked"

/-- The exit code that goes with a server error. -/
def exitCode : ServerError → Nat
  | .manager (.config _) => 2
  | .manager (.catalog _) => 2
  | .params _ => 2
  | .registry (.unavailable _) => 2
  | _ => 1

end ServerError

end ControlRig
