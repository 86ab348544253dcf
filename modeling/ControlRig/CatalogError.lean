import ControlRig.Decode.Fault

/-!
# What can be wrong with definitions

Definitions of configurations are read from the parameter tree and checked before any of them is
used. A `CatalogError` is the first thing found wrong.
-/

namespace ControlRig

/-- What is wrong with a set of definitions, or with a single configuration. -/
inductive CatalogError where
  /-- There is nothing under the key of the definitions. -/
  | missingSource (key : String)
  /-- What is there is no list of definitions. -/
  | parse (fault : Decode.Fault)
  | emptyConfigurationName
  | duplicateConfiguration (name : String)
  | emptyResourceName (configuration : String)
  | emptyControllerId (configuration resource : String)
  | duplicateController (configuration resource controller : String)
  | invalidStrictness (shown : String)
  deriving Repr

/-- The wording of a catalog error. -/
def CatalogError.message : CatalogError → String
  | .missingSource key => "param '" ++ key ++ "' is not found"
  | .parse fault => "failed to parse configuration definitions: " ++ fault.report
  | .emptyConfigurationName => "configuration name must not be empty"
  | .duplicateConfiguration name => "configuration '" ++ name ++ "' is defined more than once"
  | .emptyResourceName configuration =>
    "configuration '" ++ configuration ++ "': hardware_interface must not be empty"
  | .emptyControllerId configuration resource =>
    "configuration '" ++ configuration ++ "': controller id on '" ++ resource
      ++ "' must not be empty"
  | .duplicateController configuration resource controller =>
    "configuration '" ++ configuration ++ "': controller '" ++ controller
      ++ "' is declared twice on '" ++ resource ++ "'"
  | .invalidStrictness shown => "invalid strictness: " ++ shown

end ControlRig
