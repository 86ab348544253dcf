import ControlRig.Configuration.Basic
import ControlRig.Decode.Record
import ControlRig.Param.Value

/-!
# Definitions of configurations

The parameter tree stores configurations as a list of definitions. A definition is a name and a list
of components, each of which binds a controller to a hardware interface, or only asks for the
hardware interface. Components of the same hardware interface belong together wherever they stand
in the list; names of hardware interfaces and controllers are trimmed before they are compared.

`Definition.readAll` reads a whole list or nothing: first every entry is decoded, then every entry
is checked in turn, and a name may not come twice.
-/

namespace ControlRig

/-- One component of a definition. -/
structure Component where
  hardwareInterface : String
  controller : Option String
  description : Option String
  runtimeCheck : Bool
  deriving DecidableEq, Repr

/-- A configuration as it is written down, before it is checked. -/
structure Definition where
  name : String
  components : List Component
  deriving DecidableEq, Repr

namespace Component

/-- A component of which some fields have been read. -/
structure Draft where
  hardwareInterface : Option String
  controller : Option (Option String)
  description : Option (Option String)
  runtimeCheck : Option Bool

/-- How components are written. -/
def shape : Decode.RecordShape Draft Component where
  name := "RawComponent"
  closed := true
  blank := ⟨none, none, none, none⟩
  fields := [
    { name := "hardware_interface", alternative := none, presence := .required
      given := (·.hardwareInterface.isSome)
      read := fun d draft =>
        (Decode.text d).map fun s => { draft with hardwareInterface := some s } },
    { name := "controller", alternative := none, presence := .optional
      given := (·.controller.isSome)
      read := fun d draft =>
        (Decode.optional Decode.text d).map fun s => { draft with controller := some s } },
    { name := "description", alternative := none, presence := .optional
      given := (·.description.isSome)
      read := fun d draft =>
        (Decode.optional Decode.text d).map fun s => { draft with description := some s } },
    { name := "runtime_check", alternative := none, presence := .optional
      given := (·.runtimeCheck.isSome)
      read := fun d draft =>
        (Decode.boolean d).map fun b => { draft with runtimeCheck := some b } }]
  finish := fun draft => draft.hardwareInterface.map fun resource =>
    ⟨resource, draft.controller.getD none, draft.description.getD none,
      draft.runtimeCheck.getD true⟩

/-- Read a component. -/
def decode (excess : Decode.Excess) : Decoder Component := shape.decode excess

/-- A component as it is written. -/
def json (c : Component) : Json :=
  .object [("hardware_interface", .string c.hardwareInterface),
    ("controller", c.controller.elim .null .string),
    ("description", c.description.elim .null .string),
    ("runtime_check", .bool c.runtimeCheck)]

end Component

namespace Definition

/-- A definition of which some fields have been read. -/
structure Draft where
  name : Option String
  components : Option (List Component)

/-- How definitions are written. -/
def shape (excess : Decode.Excess) : Decode.RecordShape Draft Definition where
  name := "RawConfiguration"
  closed := true
  blank := ⟨none, none⟩
  fields := [
    { name := "name", alternative := none, presence := .required
      given := (·.name.isSome)
      read := fun d draft => (Decode.text d).map fun s => { draft with name := some s } },
    { name := "components", alternative := none, presence := .optional
      given := (·.components.isSome)
      read := fun d draft =>
        (Decode.sequence (Component.decode excess) d).map fun cs =>
          { draft with components := some cs } }]
  finish := fun draft => draft.name.map fun name => ⟨name, draft.components.getD []⟩

/-- Read a definition. -/
def decode (excess : Decode.Excess) : Decoder Definition := (shape excess).decode excess

/-- A definition as it is written. -/
def json (d : Definition) : Json :=
  .object [("name", .string d.name), ("components", .array (d.components.map Component.json))]

/-- Add a component to the controllers of its resource. -/
def addComponent (components : SortedMap (List Controller)) (c : Component) :
    SortedMap (List Controller) :=
  let resource := Text.trim c.hardwareInterface
  let sofar := (components.find? resource).getD []
  match c.controller with
  | none => components.insert resource sofar
  | some id =>
    let id := Text.trim id
    components.insert resource
      (sofar ++ [⟨id, resource ++ "/" ++ id, c.description, c.runtimeCheck⟩])

/-- The components of a definition by their resources. -/
def grouped (d : Definition) : SortedMap (List Controller) :=
  d.components.foldl addComponent ∅

/-- The configuration that a definition defines. -/
def configuration (d : Definition) : Except CatalogError Configuration :=
  Configuration.make d.name d.grouped

/-- Check definitions one after the other, given the configurations of those before. -/
def checkAll (known : SortedMap Configuration) :
    List Definition → Except CatalogError (SortedMap Configuration)
  | [] => .ok known
  | d :: rest =>
    match d.configuration with
    | .error e => .error e
    | .ok c =>
      if known.contains c.name then .error (.duplicateConfiguration c.name)
      else checkAll (known.insert c.name c) rest

/-- The configurations of a parameter value, by name. -/
def readAll (value : Value) : Except CatalogError (SortedMap Configuration) :=
  match Decode.sequence (decode .counted) value.datum with
  | .error fault => .error (.parse fault)
  | .ok definitions => checkAll ∅ definitions

end Definition

end ControlRig
