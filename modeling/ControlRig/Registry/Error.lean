import ControlRig.Duration

/-!
# What a registry can answer instead

The ways in which a call to the registry of hardware resources fails.
-/

namespace ControlRig

/-- Why a call to a registry failed. -/
inductive RegistryError where
  /-- There is no registry of that name. -/
  | unavailable (name : String)
  /-- The call took longer than it was given. -/
  | timeout (call : String) (limit : Duration)
  | loadFailed (resource reason : String)
  | alreadyLoaded (resource : String)
  | notLoaded (resource : String)
  | controllerFailed (resource controller reason : String)
  | stopFailed (reason : String)
  | unloadFailed (reason : String)
  | queryFailed (reason : String)
  /-- The registry's own state was left behind by a crash. -/
  | poisoned (reason : String)
  deriving DecidableEq, Repr

/-- The wording of a registry error. -/
def RegistryError.message : RegistryError → String
  | .unavailable name => "registry '" ++ name ++ "' is not available"
  | .timeout call limit => call ++ " timed out after " ++ limit.text
  | .loadFailed resource reason => "loading '" ++ resource ++ "' failed: " ++ reason
  | .alreadyLoaded resource => "resource '" ++ resource ++ "' is already loaded"
  | .notLoaded resource => "resource '" ++ resource ++ "' is not loaded"
  | .controllerFailed resource controller reason =>
    "controller '" ++ resource ++ "/" ++ controller ++ "' failed to start: " ++ reason
  | .stopFailed reason => "stopping controllers failed: " ++ reason
  | .unloadFailed reason => "unloading resources failed: " ++ reason
  | .queryFailed reason => "listing loaded resources failed: " ++ reason
  | .poisoned reason => "registry state poisoned: " ++ reason

end ControlRig
