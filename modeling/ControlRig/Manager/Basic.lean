import ControlRig.Transition.Basic

/-!
# The manager

The manager owns the active configuration and the catalog. Every request that changes either holds
the manager's lock from beginning to end, so transitions never overlap; a transition is committed
only after it has succeeded, so a request that fails leaves what the manager remembers untouched.
-/

namespace ControlRig

/-- What a manager is made of and never changes. -/
structure Manager where
  settings : Settings
  /-- The name of the registry, as it is shown. -/
  registry : String
  deriving DecidableEq, Repr

/-- What a manager says about itself. -/
structure ManagerStatus where
  active : Option String
  transitions : Nat
  lastTransitionAt : Option Instant
  configurations : Nat
  registry : String
  deriving DecidableEq, Repr

namespace Manager

open Procedure

/-- A name for a message, or "none". -/
def nameOrNone (name : Option String) : String := name.getD "none"

/-- Read the catalog from the parameter store. -/
def readCatalog (settings : Settings) (active : Option String) :
    Procedure (Except CatalogError Catalog) := do
  match ← definitions settings.catalogKey with
  | none =>
    warn ("param '" ++ settings.catalogKey ++ "' is not found")
    return .error (.missingSource settings.catalogKey)
  | some value =>
    match Catalog.read value active with
    | .error e =>
      warn ("param '" ++ settings.catalogKey ++ "' error: " ++ e.message)
      return .error e
    | .ok catalog => return .ok catalog

/-- Make a manager: what it remembers at first. -/
def make (m : Manager) : Procedure (Except ManagerError ManagerState) := do
  match m.settings.checked with
  | .error e => return .error (.config e)
  | .ok _ =>
    match ← readCatalog m.settings none with
    | .error e => return .error (.catalog e)
    | .ok catalog =>
      inform ("loaded " ++ Text.decimal catalog.size ++ " configurations from '"
        ++ m.settings.catalogKey ++ "' (registry: " ++ m.registry ++ ")")
      publish m.settings.statusKey (ManagerState.statusText none)
      return .ok (.fresh catalog)

/-- Take note of a transition to a configuration, or to nothing, and publish its name. -/
def commit (m : Manager) (state : ManagerState) (active : Option Configuration) :
    Procedure Unit := do
  save (state.commit active (← now))
  publish m.settings.statusKey (ManagerState.statusText (active.map (·.name)))

/-! ## Requests -/

/-- Start a configuration, while the lock is held. -/
def startLocked (m : Manager) (number : Nat) (name : String) (strictness : Strictness)
    (state : ManagerState) : Procedure (Except ManagerError (List String)) := do
  if state.activeName = some name then
    inform ("configuration '" ++ name ++ "' is already running")
    return .ok []
  else
    match state.catalog.find? name with
    | none => return .error (.unknownConfiguration name)
    | some target =>
      let heading := "==== transition #" ++ Text.decimal number
      inform (heading ++ ": '" ++ nameOrNone state.activeName ++ "' -> '" ++ name ++ "' ====")
      match ← Transition.run m.settings.transitionOptions state.active (some target) strictness
          m.settings.requestTimeout with
      | .error e =>
        complain (heading ++ " to '" ++ name ++ "' failed: " ++ e.message ++ " ====")
        return .error e
      | .ok record =>
        m.commit state (some target)
        if record.skippedControllers.isEmpty then
          inform (heading ++ ": '" ++ name ++ "' is running ====")
        else
          warn (heading ++ ": '" ++ name ++ "' is running without "
            ++ Transition.joined record.skippedControllers ++ " ====")
        return .ok record.skippedControllers

/-- Start a configuration. Nothing happens if it is active already. The answer names the controllers
that a best-effort start skipped. -/
def start (m : Manager) (name : String) (strictness : Strictness) :
    Procedure (Except ManagerError (List String)) := do
  let number ← of .nextNumber
  withLock (m.startLocked number name strictness)

/-- Stop the active configuration, while the lock is held. -/
def stopLocked (m : Manager) (strictness : Strictness) (state : ManagerState) :
    Procedure (Except ManagerError Unit) := do
  inform ("stopping configuration '" ++ nameOrNone state.activeName ++ "'")
  match ← Transition.run m.settings.transitionOptions state.active none strictness
      m.settings.requestTimeout with
  | .error e =>
    complain ("stop failed: " ++ e.message)
    return .error e
  | .ok _ =>
    m.commit state none
    return .ok ()

/-- Stop the active configuration and unload its resources. -/
def stop (m : Manager) (strictness : Strictness) : Procedure (Except ManagerError Unit) :=
  withLock (m.stopLocked strictness)

/-- Read the catalog again, while the lock is held. -/
def refreshLocked (m : Manager) (state : ManagerState) :
    Procedure (Except ManagerError Catalog) := do
  match ← readCatalog m.settings state.activeName with
  | .error e => return .error (.catalog e)
  | .ok catalog =>
    save { state with catalog := catalog }
    return .ok catalog

/-- Read the catalog again, all of it or nothing. -/
def refresh (m : Manager) : Procedure (Except ManagerError Unit) :=
  withLock fun state => do
    match ← m.refreshLocked state with
    | .error e => return .error e
    | .ok catalog =>
      inform ("catalog refreshed: " ++ Text.decimal catalog.size ++ " configurations")
      return .ok ()

/-- Read the catalog again and list it. -/
def list (m : Manager) : Procedure (Except ManagerError (List Configuration)) :=
  withLock fun state => do
    match ← m.refreshLocked state with
    | .error e => return .error e
    | .ok catalog => return .ok catalog.toList

/-- The name of the active configuration. -/
def activeName (_ : Manager) : Procedure (Option String) :=
  withLock fun state => return state.activeName

/-- What the manager says about itself. -/
def status (m : Manager) : Procedure ManagerStatus :=
  withLock fun state => return {
    active := state.activeName
    transitions := state.transitions
    lastTransitionAt := state.lastTransitionAt
    configurations := state.catalog.size
    registry := m.registry }

/-! ## Health -/

/-- The resources that report a fault. -/
def faults : List String → Procedure (List (String × ResourceState))
  | [] => return []
  | resource :: rest => do
    let state ← readState resource
    let more ← faults rest
    return if state.isFault then (resource, state) :: more else more

/-- Say which resources of a configuration report a fault. -/
def reportFaults (configuration : String) : List (String × ResourceState) → Procedure Unit
  | [] => return ()
  | (resource, state) :: rest => do
    complain ("hardware interface '" ++ resource ++ "' of '" ++ configuration ++ "' reports "
      ++ state.text)
    reportFaults configuration rest

/-- Check the health of the active configuration, while the lock is held. -/
def checkHealthLocked (m : Manager) (state : ManagerState) :
    Procedure (Except ManagerError Bool) := do
  match state.active with
  | none => return .ok false
  | some active =>
    match ← faults active.resources.names with
    | [] => return .ok false
    | found =>
      reportFaults active.name found
      warn "emergency stop"
      match ← m.stopLocked .bestEffort state with
      | .error e => return .error e
      | .ok () => return .ok true

/-- Check every resource of the active configuration, and stop the configuration if one reports a
fault. The answer tells whether that happened. -/
def checkHealth (m : Manager) : Procedure (Except ManagerError Bool) :=
  withLock m.checkHealthLocked

/-! ## The end of a manager -/

/-- Unload whatever the registry holds, and publish that nothing is active. -/
def drop (m : Manager) : Procedure Unit := do
  match ← Transition.teardown m.settings.teardownTimeout with
  | .error e => complain ("teardown failed: " ++ e.message)
  | .ok [] => pure ()
  | .ok unloaded => inform ("teardown unloaded " ++ Transition.joined unloaded)
  publish m.settings.statusKey (ManagerState.statusText none)

end Manager

end ControlRig
