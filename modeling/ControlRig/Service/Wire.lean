import ControlRig.Decode.Record
import ControlRig.Json.Writer
import ControlRig.Manager.Basic
import ControlRig.Timestamp

/-!
# Requests and replies

The records by which clients and the daemon speak about the manager. Every record has one written
form, an object with its fields in a fixed order; it is read back from that form, and from a few
others: fields in any order, a list with the fields in order, older names. Requests refuse fields
they do not know; replies pass over them, so that a reply may grow.
-/

namespace ControlRig

/-! ## Requests -/

/-- A request to start a configuration. -/
structure StartRequest where
  name : String
  strictness : Strictness
  deriving DecidableEq, Repr

/-- A request to stop whatever is active. -/
structure StopRequest where
  strictness : Strictness
  deriving DecidableEq, Repr

/-- A request to the manager. -/
inductive Request where
  | start (request : StartRequest)
  | stop (request : StopRequest)
  | list
  | update
  deriving DecidableEq, Repr

namespace StartRequest

/-- A request of which some fields have been read. -/
structure Draft where
  name : Option String
  strictness : Option Strictness

/-- How the request is written. -/
def shape : Decode.RecordShape Draft StartRequest where
  name := "StartConfiguration"
  closed := true
  blank := ⟨none, none⟩
  fields := [
    { name := "name", alternative := some "start_configuration", presence := .required
      given := (·.name.isSome)
      read := fun d draft => (Decode.text d).map fun s => { draft with name := some s } },
    { name := "strictness", alternative := none, presence := .optional
      given := (·.strictness.isSome)
      read := fun d draft =>
        (Strictness.decode d).map fun s => { draft with strictness := some s } }]
  finish := fun draft => draft.name.map fun name => ⟨name, draft.strictness.getD .bestEffort⟩

/-- The written form. -/
def json (r : StartRequest) : Json :=
  .object [("name", .string r.name), ("strictness", .string r.strictness.text)]

end StartRequest

namespace StopRequest

/-- A request of which some fields have been read. -/
structure Draft where
  strictness : Option Strictness

/-- How the request is written. -/
def shape : Decode.RecordShape Draft StopRequest where
  name := "StopConfiguration"
  closed := true
  blank := ⟨none⟩
  fields := [
    { name := "strictness", alternative := none, presence := .optional
      given := (·.strictness.isSome)
      read := fun d _ => (Strictness.decode d).map fun s => ⟨some s⟩ }]
  finish := fun draft => some ⟨draft.strictness.getD .bestEffort⟩

/-- The written form. -/
def json (r : StopRequest) : Json := .object [("strictness", .string r.strictness.text)]

end StopRequest

/-! ## Replies -/

/-- Whether a request was carried out, and what there is to say about it. -/
structure Ack where
  ok : Bool
  message : Option String
  deriving DecidableEq, Repr

/-- A resource and its controllers, in a listing. -/
structure ComponentSummary where
  hardwareInterface : String
  controllers : List String
  deriving DecidableEq, Repr

/-- A configuration in a listing. -/
structure ConfigurationSummary where
  name : String
  state : ConfigurationState
  components : List ComponentSummary
  deriving DecidableEq, Repr

/-- The configurations that can be started. -/
structure ConfigurationList where
  ok : Bool
  configurations : List ConfigurationSummary
  message : Option String
  deriving DecidableEq, Repr

/-- What the manager says about itself, on the wire. -/
structure StatusReport where
  active : Option String
  transitions : Nat
  lastTransitionAt : Option Timestamp
  configurations : Nat
  registry : String
  deriving DecidableEq, Repr

/-- A reply to a request. -/
inductive Reply where
  | ack (ack : Ack)
  | list (list : ConfigurationList)
  deriving DecidableEq, Repr

/-- A field that is left out when there is no message. -/
def messageField (message : Option String) : List (String × Json) :=
  match message with
  | some text => [("message", .string text)]
  | none => []

namespace Ack

/-- The request was carried out. -/
def success : Ack := ⟨true, none⟩

/-- The request was carried out, but there is something to say. -/
def partly (message : String) : Ack := ⟨true, some message⟩

/-- The request failed. -/
def failure (message : String) : Ack := ⟨false, some message⟩

/-- An acknowledgement of which some fields have been read. -/
structure Draft where
  ok : Option Bool
  message : Option (Option String)

/-- How the acknowledgement is written. -/
def shape : Decode.RecordShape Draft Ack where
  name := "Ack"
  closed := false
  blank := ⟨none, none⟩
  fields := [
    { name := "ok", alternative := none, presence := .required
      given := (·.ok.isSome)
      read := fun d draft => (Decode.boolean d).map fun b => { draft with ok := some b } },
    { name := "message", alternative := none, presence := .optional
      given := (·.message.isSome)
      read := fun d draft =>
        (Decode.optional Decode.text d).map fun s => { draft with message := some s } }]
  finish := fun draft => draft.ok.map fun ok => ⟨ok, draft.message.getD none⟩

/-- The written form. -/
def json (a : Ack) : Json := .object (("ok", .bool a.ok) :: messageField a.message)

end Ack

namespace ComponentSummary

/-- A summary of which some fields have been read. -/
structure Draft where
  hardwareInterface : Option String
  controllers : Option (List String)

/-- How the summary is written. -/
def shape : Decode.RecordShape Draft ComponentSummary where
  name := "ComponentSummary"
  closed := false
  blank := ⟨none, none⟩
  fields := [
    { name := "hardware_interface", alternative := none, presence := .required
      given := (·.hardwareInterface.isSome)
      read := fun d draft =>
        (Decode.text d).map fun s => { draft with hardwareInterface := some s } },
    { name := "controllers", alternative := none, presence := .required
      given := (·.controllers.isSome)
      read := fun d draft =>
        (Decode.sequence Decode.text d).map fun l => { draft with controllers := some l } }]
  finish := fun draft => do return ⟨← draft.hardwareInterface, ← draft.controllers⟩

/-- The written form. -/
def json (c : ComponentSummary) : Json :=
  .object [("hardware_interface", .string c.hardwareInterface),
    ("controllers", .array (c.controllers.map .string))]

end ComponentSummary

namespace ConfigurationSummary

/-- A summary of which some fields have been read. -/
structure Draft where
  name : Option String
  state : Option ConfigurationState
  components : Option (List ComponentSummary)

/-- How the summary is written. -/
def shape (excess : Decode.Excess) : Decode.RecordShape Draft ConfigurationSummary where
  name := "ConfigurationSummary"
  closed := false
  blank := ⟨none, none, none⟩
  fields := [
    { name := "name", alternative := none, presence := .required
      given := (·.name.isSome)
      read := fun d draft => (Decode.text d).map fun s => { draft with name := some s } },
    { name := "state", alternative := none, presence := .required
      given := (·.state.isSome)
      read := fun d draft =>
        (ConfigurationState.decode d).map fun s => { draft with state := some s } },
    { name := "components", alternative := none, presence := .required
      given := (·.components.isSome)
      read := fun d draft =>
        (Decode.sequence (ComponentSummary.shape.decode excess) d).map fun l =>
          { draft with components := some l } }]
  finish := fun draft => do return ⟨← draft.name, ← draft.state, ← draft.components⟩

/-- The summary of a configuration. -/
def ofConfiguration (c : Configuration) : ConfigurationSummary :=
  ⟨c.name, c.state, c.components.entries.map fun (resource, controllers) =>
    ⟨resource, controllers.map (·.id)⟩⟩

/-- The written form. -/
def json (c : ConfigurationSummary) : Json :=
  .object [("name", .string c.name), ("state", .string c.state.text),
    ("components", .array (c.components.map ComponentSummary.json))]

end ConfigurationSummary

namespace ConfigurationList

/-- A listing that failed. -/
def failure (message : String) : ConfigurationList := ⟨false, [], some message⟩

/-- A listing of which some fields have been read. -/
structure Draft where
  ok : Option Bool
  configurations : Option (List ConfigurationSummary)
  message : Option (Option String)

/-- How the listing is written. -/
def shape (excess : Decode.Excess) : Decode.RecordShape Draft ConfigurationList where
  name := "ConfigurationList"
  closed := false
  blank := ⟨none, none, none⟩
  fields := [
    { name := "ok", alternative := none, presence := .required
      given := (·.ok.isSome)
      read := fun d draft => (Decode.boolean d).map fun b => { draft with ok := some b } },
    { name := "configurations", alternative := none, presence := .required
      given := (·.configurations.isSome)
      read := fun d draft =>
        (Decode.sequence ((ConfigurationSummary.shape excess).decode excess) d).map fun l =>
          { draft with configurations := some l } },
    { name := "message", alternative := none, presence := .optional
      given := (·.message.isSome)
      read := fun d draft =>
        (Decode.optional Decode.text d).map fun s => { draft with message := some s } }]
  finish := fun draft => do
    return ⟨← draft.ok, ← draft.configurations, draft.message.getD none⟩

/-- The written form. -/
def json (l : ConfigurationList) : Json :=
  .object ([("ok", .bool l.ok),
    ("configurations", .array (l.configurations.map ConfigurationSummary.json))]
      ++ messageField l.message)

end ConfigurationList

namespace StatusReport

/-- The report of a status; the clock counts from the beginning of 1970. -/
def ofStatus (s : ManagerStatus) : StatusReport :=
  ⟨s.active, s.transitions, s.lastTransitionAt.map .ofInstant, s.configurations, s.registry⟩

/-- A date and time as it is written in a report. -/
def timestamp : Decoder Timestamp
  | .string s =>
    match Timestamp.read s with
    | .ok t => .ok t
    | .error e => .error (Decode.Cause.badTimestamp e.message).here
  | other =>
    .error (Decode.Cause.invalidType other "an RFC 3339 formatted date and time string").here

/-- A report of which some fields have been read. -/
structure Draft where
  active : Option (Option String)
  transitions : Option Nat
  lastTransitionAt : Option (Option Timestamp)
  configurations : Option Nat
  registry : Option String

/-- How the report is written. -/
def shape : Decode.RecordShape Draft StatusReport where
  name := "ManagerStatus"
  closed := false
  blank := ⟨none, none, none, none, none⟩
  fields := [
    { name := "active", alternative := none, presence := .nullable
      given := (·.active.isSome)
      read := fun d draft =>
        (Decode.optional Decode.text d).map fun s => { draft with active := some s } },
    { name := "transitions", alternative := none, presence := .required
      given := (·.transitions.isSome)
      read := fun d draft =>
        (Decode.natural .long d).map fun n => { draft with transitions := some n } },
    { name := "last_transition_at", alternative := none, presence := .nullable
      given := (·.lastTransitionAt.isSome)
      read := fun d draft =>
        (Decode.optional timestamp d).map fun t => { draft with lastTransitionAt := some t } },
    { name := "configurations", alternative := none, presence := .required
      given := (·.configurations.isSome)
      read := fun d draft =>
        (Decode.natural .count d).map fun n => { draft with configurations := some n } },
    { name := "registry", alternative := none, presence := .required
      given := (·.registry.isSome)
      read := fun d draft => (Decode.text d).map fun s => { draft with registry := some s } }]
  finish := fun draft => do
    return ⟨draft.active.getD none, ← draft.transitions, draft.lastTransitionAt.getD none,
      ← draft.configurations, ← draft.registry⟩

/-- The written form. -/
def json (s : StatusReport) : Json :=
  .object [("active", s.active.elim .null .string),
    ("transitions", .integer s.transitions),
    ("last_transition_at", s.lastTransitionAt.elim .null fun t => .string t.text),
    ("configurations", .integer s.configurations),
    ("registry", .string s.registry)]

end StatusReport

namespace Reply

/-- Whether the request was carried out. -/
def ok : Reply → Bool
  | .ack a => a.ok
  | .list l => l.ok

/-- The written form: that of the record alone. -/
def json : Reply → Json
  | .ack a => a.json
  | .list l => l.json

end Reply

end ControlRig
