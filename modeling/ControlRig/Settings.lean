import ControlRig.Decode.Record
import ControlRig.Duration
import ControlRig.Text.Blank
import ControlRig.Toml.Document

/-!
# Settings

The settings of the manager come from a document in which every field may be left out. They are
decoded first and then checked: keys must hold more than slashes, and the numbers that divide or
bound something must not be zero.
-/

namespace ControlRig

/-- What a failed transition does with the resources it has loaded. -/
inductive RollbackPolicy where
  /-- They stay; the next transition finds them and starts afresh. -/
  | leave
  /-- They are unloaded, as far as that works. -/
  | unloadLoaded
  deriving DecidableEq, Repr, Inhabited

namespace RollbackPolicy

/-- The name. -/
def text : RollbackPolicy → String
  | .leave => "leave"
  | .unloadLoaded => "unload-loaded"

/-- A policy by its name, in a document. -/
def decode : Decoder RollbackPolicy :=
  Decode.choiceInDocument ([.leave, .unloadLoaded].map fun p => (p.text, p))

end RollbackPolicy

/-- How the health monitor runs. -/
structure MonitorSettings where
  tickHz : Nat
  /-- A health check happens every so many ticks. -/
  healthCheckEvery : Nat
  heartbeatSecs : Nat
  deriving DecidableEq, Repr

/-- How loaded resources are verified, and what happens when that fails. -/
structure VerificationSettings where
  timeoutMs : Nat
  rateHz : Nat
  maxWorkers : Nat
  rollback : RollbackPolicy
  deriving DecidableEq, Repr

/-- The settings of a manager. -/
structure Settings where
  /-- The key of the definitions of configurations. -/
  catalogKey : String
  /-- The key to which the name of the active configuration is published. -/
  statusKey : String
  requestTimeoutMs : Nat
  teardownTimeoutMs : Nat
  monitor : MonitorSettings
  verification : VerificationSettings
  deriving DecidableEq, Repr

/-- The monitor, unless told otherwise. -/
def MonitorSettings.standard : MonitorSettings := ⟨100, 100, 60⟩

/-- The verification, unless told otherwise. -/
def VerificationSettings.standard : VerificationSettings := ⟨4000, 250, 32, .leave⟩

/-- The settings, unless told otherwise. -/
def Settings.standard : Settings :=
  ⟨"control_configurations", "status/active_configuration", 10000, 10000, .standard, .standard⟩

/-! ## Decoding

Every field is optional, so the record itself serves as the draft, beside the names that came. -/

/-- Settings with the fields that have been read. -/
structure SettingsDraft (α : Type) where
  given : List String
  value : α

/-- A field of settings that is stored by a function. -/
def SettingsDraft.field {α β : Type} (name : String) (decode : Decoder β) (store : β → α → α) :
    Decode.Field (SettingsDraft α) where
  name := name
  alternative := none
  presence := .optional
  given := fun draft => draft.given.contains name
  read := fun d draft =>
    (decode d).map fun b => ⟨name :: draft.given, store b draft.value⟩

/-- A group of settings, all of which are optional. -/
def SettingsDraft.shape {α : Type} (name : String) (standard : α)
    (fields : List (Decode.Field (SettingsDraft α))) :
    Decode.RecordShape (SettingsDraft α) α where
  name := name
  fields := fields
  closed := true
  blank := ⟨[], standard⟩
  finish := fun draft => some draft.value

open SettingsDraft in
/-- How the settings of the monitor are written. -/
def MonitorSettings.shape : Decode.RecordShape (SettingsDraft MonitorSettings) MonitorSettings :=
  SettingsDraft.shape "MonitorConfig" .standard [
    field "tick_hz" (Decode.natural .word) fun n s => { s with tickHz := n },
    field "health_check_every" (Decode.natural .word) fun n s => { s with healthCheckEvery := n },
    field "heartbeat_secs" (Decode.natural .long) fun n s => { s with heartbeatSecs := n }]

open SettingsDraft in
/-- How the settings of the verification are written. -/
def VerificationSettings.shape :
    Decode.RecordShape (SettingsDraft VerificationSettings) VerificationSettings :=
  SettingsDraft.shape "VerificationConfig" .standard [
    field "timeout_ms" (Decode.natural .long) fun n s => { s with timeoutMs := n },
    field "rate_hz" (Decode.natural .word) fun n s => { s with rateHz := n },
    field "max_workers" (Decode.natural .count) fun n s => { s with maxWorkers := n },
    field "rollback" RollbackPolicy.decode fun p s => { s with rollback := p }]

open SettingsDraft in
/-- How settings are written. -/
def Settings.shape : Decode.RecordShape (SettingsDraft Settings) Settings :=
  SettingsDraft.shape "ManagerConfig" .standard [
    field "catalog_key" Decode.text fun k s => { s with catalogKey := k },
    field "status_key" Decode.text fun k s => { s with statusKey := k },
    field "request_timeout_ms" (Decode.natural .long) fun n s => { s with requestTimeoutMs := n },
    field "teardown_timeout_ms" (Decode.natural .long) fun n s => { s with teardownTimeoutMs := n },
    field "monitor" (MonitorSettings.shape.decode .ignored) fun m s => { s with monitor := m },
    field "verification" (VerificationSettings.shape.decode .ignored) fun v s =>
      { s with verification := v }]

/-! ## Checking -/

/-- Why decoded settings cannot be used. -/
inductive SettingsProblem where
  | emptyCatalogKey
  | emptyStatusKey
  | zeroRequestTimeout
  | zeroMonitorRate
  | zeroVerificationRate
  deriving DecidableEq, Repr

/-- The wording of a problem with settings. -/
def SettingsProblem.message : SettingsProblem → String
  | .emptyCatalogKey => "catalog_key must not be empty"
  | .emptyStatusKey => "status_key must not be empty"
  | .zeroRequestTimeout => "request_timeout_ms must be positive"
  | .zeroMonitorRate => "monitor.tick_hz and monitor.health_check_every must be positive"
  | .zeroVerificationRate => "verification.rate_hz and verification.max_workers must be positive"

/-- Why settings are refused. -/
inductive SettingsError where
  /-- The text is no document. -/
  | notADocument
  | undecodable (fault : Decode.Fault)
  | invalid (problem : SettingsProblem)
  /-- The settings of a file are refused. -/
  | inFile (path : String) (inner : SettingsError)
  /-- An error told in words alone. -/
  | told (message : String)
  deriving Repr

/-- The wording of a refusal. Where a document is at fault, the place in the text is not told. -/
def SettingsError.message : SettingsError → String
  | .notADocument => "TOML parse error"
  | .undecodable fault => "TOML parse error\n" ++ fault.message
  | .invalid problem => problem.message
  | .inFile path inner => path ++ ": config error: " ++ inner.message
  | .told message => message

namespace Settings

/-- A key without the slashes at its ends. -/
def trimSlashes (key : String) : String :=
  String.ofList (Text.dropEndsWhile (· = '/') key.toList)

/-- Whether a key can be used: it holds more than slashes. -/
def isUsableKey (key : String) : Bool := trimSlashes key ≠ ""

/-- The first problem with settings, if there is one. -/
def problem (s : Settings) : Option SettingsProblem :=
  if !isUsableKey s.catalogKey then some .emptyCatalogKey
  else if !isUsableKey s.statusKey then some .emptyStatusKey
  else if s.requestTimeoutMs = 0 then some .zeroRequestTimeout
  else if s.monitor.tickHz = 0 || s.monitor.healthCheckEvery = 0 then some .zeroMonitorRate
  else if s.verification.rateHz = 0 || s.verification.maxWorkers = 0 then
    some .zeroVerificationRate
  else none

/-- The same settings, if they can be used. -/
def checked (s : Settings) : Except SettingsError Settings :=
  match s.problem with
  | some problem => .error (.invalid problem)
  | none => .ok s

/-- Settings as a document gives them, unchecked. What has no values is no document. -/
def decode (document : String) : Except SettingsError Settings :=
  match Toml.parse? document with
  | none => .error .notADocument
  | some fields =>
    if (Toml.Node.fieldValues? fields).isNone then .error .notADocument
    else match shape.decode .ignored (.record (Toml.Node.datumFields fields)) with
    | .error fault => .error (.undecodable fault)
    | .ok settings => .ok settings

/-- The settings of a document. -/
def ofDocument (document : String) : Except SettingsError Settings :=
  match decode document with
  | .error e => .error e
  | .ok settings => settings.checked

/-- The settings of a file with the given name and text. -/
def ofFile (path document : String) : Except SettingsError Settings :=
  match ofDocument document with
  | .error e => .error (.inFile path e)
  | .ok settings => .ok settings

/-- How long a call to the registry may take while a request is served. -/
def requestTimeout (s : Settings) : Duration := .ofMillis s.requestTimeoutMs

/-- How long a call to the registry may take while everything is torn down. -/
def teardownTimeout (s : Settings) : Duration := .ofMillis s.teardownTimeoutMs

/-- The least time between two signs of life of the monitor. -/
def heartbeatPeriod (s : Settings) : Duration := .ofSeconds s.monitor.heartbeatSecs

/-- How long a loaded resource has to become ready. -/
def verifyTimeout (s : Settings) : Duration := .ofMillis s.verification.timeoutMs

end Settings

end ControlRig
