import ControlRig.Manager.Error
import ControlRig.Text.Quoted
import ControlRig.Transition.Plan
import ControlRig.Transition.Verification

/-!
# Transitions

From the active configuration to a target, in phases: list what is loaded, check that everything the
target needs has parameters, purge if the registry is out of step, load, verify, start controllers,
stop and unload what is no longer needed. The first failure ends the transition. A failure up to the
purge leaves nothing to be undone; one in a later phase may be followed by a rollback, which unloads
what this transition has loaded.

A transition keeps no state of its own. Whoever asks for one lets it end before the next begins, and
takes note of the new active configuration only if it succeeds.
-/

namespace ControlRig

namespace Transition

open Procedure

/-- How transitions are carried out. -/
structure Options where
  verification : Verification.Options
  rollback : RollbackPolicy
  deriving DecidableEq, Repr

/-- Names for a message. -/
def joined (names : List String) : String := ", ".intercalate names

/-! ## Checking the parameters -/

/-- The first requirement that is not met. -/
def firstUnmet : List Requirement → Procedure (Option Requirement)
  | [] => return none
  | requirement :: rest => do
    if ← hasEntry requirement.key then firstUnmet rest
    else return some requirement

/-- Check that everything a target needs has parameters; there is nothing to check without a target.
-/
def checkParameters : Option Configuration → Procedure (Except ManagerError Unit)
  | none => return .ok ()
  | some target => do
    match ← firstUnmet target.requirements with
    | some missing => return .error (.missingParameter missing.key missing.owner)
    | none => return .ok ()

/-! ## The phases -/

/-- Purge the registry if it is out of step with the active configuration. -/
def synchronize (limit : Duration) (record : TransitionRecord) :
    Procedure (Except ManagerError TransitionRecord) := do
  if record.isCoherent then return .ok record
  else
    warn ("registry holds " ++ Text.quotedSet record.loadedResources
      ++ " but the active configuration uses " ++ Text.quotedSet record.activeResources
      ++ "; purging and reloading")
    match ← call .purge limit with
    | .error e => return .error (.purge e)
    | .ok _ => return .ok record.resynchronize

/-- Load resources one after the other: those that were loaded, and the error that ended it. -/
def loadAll (limit : Duration) : List String → Procedure (List String × Option ManagerError)
  | [] => return ([], none)
  | resource :: rest => do
    inform ("loading hardware interface '" ++ resource ++ "'")
    match ← call (.load resource) limit with
    | .error e => return ([], some (.resourceLoad resource e))
    | .ok _ =>
      let (loaded, error) ← loadAll limit rest
      return (resource :: loaded, error)

/-- Wait for what has been loaded. -/
def verify (options : Options) (record : TransitionRecord) :
    Procedure (Except ManagerError TransitionRecord) := do
  if record.toLoad.isEmpty then return .ok record
  else
    let outcomes ← Verification.run options.verification record.toLoad
    match Verification.failures outcomes with
    | [] => return .ok { record with verification := outcomes }
    | failed => return .error (.resourceVerification failed options.verification.timeout)

/-- Start the controllers of the target. -/
def startControllers (target : Option Configuration) (strictness : Strictness) (limit : Duration)
    (record : TransitionRecord) : Procedure (Except ManagerError TransitionRecord) :=
  match target with
  | none => return .ok record
  | some target => do
    if record.targetResources.isEmpty then return .ok record
    else
      inform ("starting controllers of '" ++ target.name ++ "' (" ++ strictness.text ++ ")")
      match ← call (.startControllers record.targetResources.names target strictness) limit with
      | .error e => return .error (.controllerStart e)
      | .ok skipped =>
        if !skipped.isEmpty then
          warn ("'" ++ target.name ++ "' started without " ++ joined skipped)
        return .ok { record with skippedControllers := skipped }

/-- Stop and unload what the target does not need. -/
def release (limit : Duration) (record : TransitionRecord) :
    Procedure (Except ManagerError TransitionRecord) := do
  if record.toUnload.isEmpty then return .ok record
  else
    inform ("stopping controllers on " ++ joined record.toUnload.names)
    match ← call (.stopControllers record.toUnload.names) limit with
    | .error e => return .error (.controllerStop e)
    | .ok _ =>
      inform ("unloading " ++ joined record.toUnload.names)
      match ← call (.unload record.toUnload.names) limit with
      | .error e => return .error (.resourceUnload e)
      | .ok _ => return .ok record

/-- The phases after loading. -/
def establish (options : Options) (target : Option Configuration) (strictness : Strictness)
    (limit : Duration) (record : TransitionRecord) :
    Procedure (Except ManagerError TransitionRecord) := do
  match ← verify options record with
  | .error e => return .error e
  | .ok record =>
    match ← startControllers target strictness limit record with
    | .error e => return .error e
    | .ok record => release limit record

/-- Unload what has been loaded, if that is the policy and as far as it works. -/
def rollBack (policy : RollbackPolicy) (limit : Duration) (loaded : List String) :
    Procedure Unit := do
  if policy = .unloadLoaded && !loaded.isEmpty then
    warn ("rolling back: unloading " ++ joined loaded)
    match ← call (.stopControllers loaded) limit with
    | .error e => warn ("rollback: stopping controllers failed: " ++ e.message)
    | .ok _ => pure ()
    match ← call (.unload loaded) limit with
    | .error e => warn ("rollback: unloading failed: " ++ e.message)
    | .ok _ => pure ()

/-- The phases from loading on: what was loaded, and the outcome. -/
def carryOut (options : Options) (target : Option Configuration) (strictness : Strictness)
    (limit : Duration) (record : TransitionRecord) :
    Procedure (List String × Except ManagerError TransitionRecord) := do
  let (loaded, error) ← loadAll limit record.toLoad.names
  match error with
  | some e => return (loaded, .error e)
  | none => return (loaded, ← establish options target strictness limit record)

/-- Move from the active configuration to the target. Without a target everything is stopped. -/
def run (options : Options) (active target : Option Configuration) (strictness : Strictness)
    (limit : Duration) : Procedure (Except ManagerError TransitionRecord) := do
  match ← call .listLoaded limit with
  | .error e => return .error (.registryQuery e)
  | .ok loaded =>
    let record := TransitionRecord.plan active target (.ofList loaded)
    match ← checkParameters target with
    | .error e => return .error e
    | .ok () =>
      match ← synchronize limit record with
      | .error e => return .error e
      | .ok record =>
        match ← carryOut options target strictness limit record with
        | (_, .ok record) => return .ok record
        | (loaded, .error e) =>
          complain ("transition failed: " ++ e.message)
          rollBack options.rollback limit loaded
          return .error e

/-- Unload whatever the registry holds. The answer tells what was unloaded. -/
def teardown (limit : Duration) : Procedure (Except ManagerError (List String)) := do
  match ← call .listLoaded limit with
  | .error e => return .error (.registryQuery e)
  | .ok [] => return .ok []
  | .ok loaded =>
    inform ("teardown: unloading " ++ joined loaded)
    match ← call (.stopControllers loaded) limit with
    | .error e => warn ("teardown: stopping controllers failed: " ++ e.message)
    | .ok _ => pure ()
    match ← call (.unload loaded) limit with
    | .error e => return .error (.resourceUnload e)
    | .ok _ => return .ok loaded

end Transition

/-- How the transitions of a manager with these settings are carried out. -/
def Settings.transitionOptions (s : Settings) : Transition.Options :=
  ⟨⟨s.verifyTimeout, s.verification.rateHz, s.verification.maxWorkers⟩, s.verification.rollback⟩

end ControlRig
