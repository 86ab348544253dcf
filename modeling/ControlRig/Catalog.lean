import ControlRig.Configuration.Definition
import ControlRig.Param.Tree

/-!
# The catalog

The configurations that can be started, by name. At most one of them runs, and it is tagged so; a
catalog is always read as a whole, so a definition that cannot be read changes nothing.
-/

namespace ControlRig

/-- The known configurations. -/
structure Catalog where
  configurations : SortedMap Configuration
  deriving DecidableEq, Repr

namespace Catalog

/-- The catalog without configurations. -/
def empty : Catalog := ⟨∅⟩

instance : Inhabited Catalog := ⟨empty⟩

/-- The state of a configuration when the given one is active. -/
def stateOf (active : Option String) (name : String) : ConfigurationState :=
  if some name = active then .running else .idle

/-- Tag the active configuration as running and every other one as idle. -/
def markActive (catalog : Catalog) (active : Option String) : Catalog :=
  ⟨catalog.configurations.mapValues fun name c => c.withState (stateOf active name)⟩

/-- The catalog of a list of definitions, the active configuration tagged. -/
def read (definitions : Value) (active : Option String) : Except CatalogError Catalog :=
  match Definition.readAll definitions with
  | .error e => .error e
  | .ok configurations => .ok (markActive ⟨configurations⟩ active)

/-- The catalog of the definitions at a key of a parameter tree. -/
def ofParams (tree : ParamTree) (key : String) (active : Option String) :
    Except CatalogError Catalog :=
  match tree.get? key with
  | none => .error (.missingSource key)
  | some definitions => read definitions active

/-- The configuration of a name. -/
def find? (catalog : Catalog) (name : String) : Option Configuration :=
  catalog.configurations.find? name

/-- The configurations by increasing name. -/
def toList (catalog : Catalog) : List Configuration := catalog.configurations.values

/-- The number of configurations. -/
def size (catalog : Catalog) : Nat := catalog.configurations.size

/-- Whether there is no configuration. -/
def isEmpty (catalog : Catalog) : Bool := catalog.configurations.isEmpty

theorem find?_markActive (catalog : Catalog) (active : Option String) (name : String) :
    (catalog.markActive active).find? name =
      (catalog.find? name).map (·.withState (stateOf active name)) := by
  simp [find?, markActive]

@[simp] theorem size_markActive (catalog : Catalog) (active : Option String) :
    (catalog.markActive active).size = catalog.size := by
  simp [size, markActive]

end Catalog

end ControlRig
