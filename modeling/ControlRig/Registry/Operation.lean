import ControlRig.Configuration.Basic
import ControlRig.Registry.Error
import ControlRig.Strictness

/-!
# Calls to a registry

The registry owns the hardware. Six operations on it take time and can fail; each is a value here,
so that a call can be described before it is made and recorded after. Their answers have one form, a
list of names: the loaded resources for a listing, the skipped controllers for a start, and nothing
to say for the others.
-/

namespace ControlRig

/-- Something to be done by a registry. -/
inductive Operation where
  | listLoaded
  | load (resource : String)
  | unload (resources : List String)
  /-- Unload everything that is loaded. -/
  | purge
  /-- Start on each resource the controllers that the configuration declares for it. -/
  | startControllers (resources : List String) (configuration : Configuration)
      (strictness : Strictness)
  | stopControllers (resources : List String)
  deriving DecidableEq, Repr

/-- What a registry remembers of a call. -/
inductive Call where
  | listLoaded
  | load (resource : String)
  | unload (resources : List String)
  | purge
  | startControllers (resources : List String) (configuration : String) (strictness : Strictness)
  | stopControllers (resources : List String)
  deriving DecidableEq, Repr

namespace Operation

/-- The record of an operation: of a configuration only the name is kept. -/
def call : Operation → Call
  | .listLoaded => .listLoaded
  | .load resource => .load resource
  | .unload resources => .unload resources
  | .purge => .purge
  | .startControllers resources configuration strictness =>
    .startControllers resources configuration.name strictness
  | .stopControllers resources => .stopControllers resources

end Operation

/-- The name of the operation of a call. -/
def Call.name : Call → String
  | .listLoaded => "list_loaded"
  | .load _ => "load"
  | .unload _ => "unload"
  | .purge => "purge"
  | .startControllers .. => "start_controllers"
  | .stopControllers _ => "stop_controllers"

/-- What a registry answers. -/
abbrev Operation.Answer := Except RegistryError (List String)

end ControlRig
