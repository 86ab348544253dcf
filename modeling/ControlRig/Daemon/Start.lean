import ControlRig.Daemon.Invocation
import ControlRig.Manager.Basic
import ControlRig.Param.Document
import ControlRig.Server.Error

/-!
# Starting the daemon

Before the daemon listens it reads its settings, then its parameters, then selects the registry. The
first of them that cannot be had is the reason not to start; the manager, which is made of all of
them, is the last one to refuse.
-/

namespace ControlRig.Daemon

/-- What a daemon is made of. -/
structure Parts where
  manager : Manager
  params : ParamTree
  registry : SimRegistry

/-- The settings of a file, or those that hold without one. -/
def readSettings (file : String → Option String) : Option String → Except ServerError Settings
  | none => .ok .standard
  | some path =>
    match file path with
    | none => .error (.manager .unreadable)
    | some text => (Settings.ofFile path text).mapError fun e => .manager (.config e)

/-- Gather what the daemon needs, where `file` gives the texts of the files that can be read. -/
def gather (file : String → Option String) (i : Invocation) : Except ServerError Parts := do
  let settings ← readSettings file i.config
  let params ← (ParamTree.ofFile (file i.params)).mapError .params
  let registry ← (SimRegistry.select i.registry).mapError .registry
  return ⟨⟨settings, SimRegistry.name⟩, params, registry⟩

end ControlRig.Daemon
