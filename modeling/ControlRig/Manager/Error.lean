import ControlRig.CatalogError
import ControlRig.Registry.Error
import ControlRig.Settings

/-!
# Why an operation of the manager fails

Transitions, the catalog and the settings fail in their own ways; a `ManagerError` says which step
failed, and keeps what the step reported.
-/

namespace ControlRig

/-- Why an operation of the manager failed. -/
inductive ManagerError where
  | catalog (error : CatalogError)
  /-- The name is not in the catalog. -/
  | unknownConfiguration (name : String)
  /-- Something that is needed has no parameters at its key. -/
  | missingParameter (key owner : String)
  | resourceLoad (resource : String) (source : RegistryError)
  /-- Loaded resources did not become ready in time. -/
  | resourceVerification (resources : List String) (timeout : Duration)
  | controllerStart (source : RegistryError)
  | controllerStop (source : RegistryError)
  | resourceUnload (source : RegistryError)
  | registryQuery (source : RegistryError)
  | purge (source : RegistryError)
  | config (error : SettingsError)
  /-- A file cannot be read. -/
  | unreadable
  deriving Repr

/-- The wording of a manager error. -/
def ManagerError.message : ManagerError → String
  | .catalog error => "catalog error: " ++ error.message
  | .unknownConfiguration name => "the configuration '" ++ name ++ "' is not among the listed"
  | .missingParameter key owner =>
    owner ++ " expects its parameters under '/" ++ key ++ "', which does not exist"
  | .resourceLoad resource source =>
    "loading of the resource '" ++ resource ++ "' failed: " ++ source.message
  | .resourceVerification resources timeout =>
    "resources not initialized within " ++ timeout.text ++ ": " ++ ", ".intercalate resources
  | .controllerStart source => "starting controllers failed: " ++ source.message
  | .controllerStop source => "stopping controllers failed: " ++ source.message
  | .resourceUnload source => "unloading resources failed: " ++ source.message
  | .registryQuery source => "querying loaded resources failed: " ++ source.message
  | .purge source => "purging resources failed: " ++ source.message
  | .config error => "config error: " ++ error.message
  | .unreadable => "I/O error"

end ControlRig
