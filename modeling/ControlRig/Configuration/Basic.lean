import ControlRig.CatalogError
import ControlRig.Condition
import ControlRig.NameSet
import ControlRig.Text.Blank

/-!
# Configurations

A configuration is an operating mode of the rig: the hardware resources it needs and, on each of
them, the controllers to run, in the order in which they were declared. The type holds checked
configurations only (`Configuration.WellFormed`); `Configuration.make` checks, and names the first
problem it finds, resources in the order of their names.
-/

namespace ControlRig

/-- A controller that a configuration runs on a resource. -/
structure Controller where
  id : String
  /-- The key of the controller's parameters. -/
  paramsKey : String
  description : Option String
  runtimeCheck : Bool
  deriving DecidableEq, Repr

/-- A controller of a resource without a description, its parameters below those of the resource. -/
def Controller.on (resource id : String) : Controller :=
  ⟨id, resource ++ "/" ++ id, none, true⟩

namespace Configuration

/-- The controllers of a resource can be told apart, and none has a blank id. -/
def ControllersWellFormed (controllers : List Controller) : Prop :=
  (∀ c ∈ controllers, Text.isAllBlank c.id = false) ∧ (controllers.map (·.id)).Nodup

/-- The name is not blank, no resource has an empty name, and the controllers of each resource can
be told apart. -/
def WellFormed (name : String) (components : SortedMap (List Controller)) : Prop :=
  Text.isAllBlank name = false ∧
    ∀ e ∈ components.entries, e.1 ≠ "" ∧ ControllersWellFormed e.2

/-- The first problem with the controllers of a resource, given the ids already seen. -/
def controllersProblem (configuration resource : String) (seen : List String) :
    List Controller → Option CatalogError
  | [] => none
  | c :: rest =>
    if Text.isAllBlank c.id then some (.emptyControllerId configuration resource)
    else if seen.contains c.id then some (.duplicateController configuration resource c.id)
    else controllersProblem configuration resource (c.id :: seen) rest

/-- The first problem with the components, in the order of the entries. -/
def componentsProblem (configuration : String) :
    List (String × List Controller) → Option CatalogError
  | [] => none
  | (resource, controllers) :: rest =>
    if resource = "" then some (.emptyResourceName configuration)
    else
      match controllersProblem configuration resource [] controllers with
      | some problem => some problem
      | none => componentsProblem configuration rest

/-- The first problem with a configuration, if it has one. -/
def problem (name : String) (components : SortedMap (List Controller)) : Option CatalogError :=
  if Text.isAllBlank name then some .emptyConfigurationName
  else componentsProblem name components.entries

theorem controllersProblem_eq_none_iff {configuration resource : String} {seen : List String}
    {controllers : List Controller} :
    controllersProblem configuration resource seen controllers = none ↔
      ControllersWellFormed controllers ∧ ∀ c ∈ controllers, c.id ∉ seen := by
  induction controllers generalizing seen with
  | nil => simp [controllersProblem, ControllersWellFormed]
  | cons c rest ih =>
    unfold controllersProblem ControllersWellFormed
    by_cases hb : Text.isAllBlank c.id = true
    · simp [hb]
    · by_cases hs : c.id ∈ seen
      · simp [hb, hs]
      · simp only [hb, Bool.false_eq_true, if_false, List.contains_iff_mem, hs, ih,
          ControllersWellFormed, List.mem_cons, List.map_cons, List.nodup_cons, List.mem_map]
        grind

theorem componentsProblem_eq_none_iff {configuration : String}
    {entries : List (String × List Controller)} :
    componentsProblem configuration entries = none ↔
      ∀ e ∈ entries, e.1 ≠ "" ∧ ControllersWellFormed e.2 := by
  induction entries with
  | nil => simp [componentsProblem]
  | cons e rest ih =>
    obtain ⟨resource, controllers⟩ := e
    unfold componentsProblem
    by_cases hr : resource = ""
    · simp [hr]
    · cases hp : controllersProblem configuration resource [] controllers with
      | some p =>
        have : ¬ ControllersWellFormed controllers := fun h => by
          have : controllersProblem configuration resource [] controllers = none :=
            controllersProblem_eq_none_iff.2 ⟨h, fun _ _ => List.not_mem_nil⟩
          simp [hp] at this
        simp [hr, this]
      | none =>
        have := (controllersProblem_eq_none_iff.1 hp).1
        simp [hr, ih, this]

/-- There is no problem exactly with what is well formed. -/
theorem problem_eq_none_iff {name : String} {components : SortedMap (List Controller)} :
    problem name components = none ↔ WellFormed name components := by
  unfold problem WellFormed
  by_cases hb : Text.isAllBlank name = true
  · simp [hb]
  · simp [hb, componentsProblem_eq_none_iff]

end Configuration

/-- A checked operating mode of the rig. -/
structure Configuration where
  name : String
  state : ConfigurationState
  /-- The controllers of every resource, in the order of their declaration. -/
  components : SortedMap (List Controller)
  wellFormed : Configuration.WellFormed name components
  deriving DecidableEq

namespace Configuration

instance : Repr Configuration := ⟨fun c prec => reprPrec (c.name, c.state, c.components) prec⟩

/-- The idle configuration of a name and components, or the first problem with them. -/
def make (name : String) (components : SortedMap (List Controller)) :
    Except CatalogError Configuration :=
  match h : problem name components with
  | some problem => .error problem
  | none => .ok ⟨name, .idle, components, problem_eq_none_iff.1 h⟩

/-- The same configuration in a given state. -/
def withState (c : Configuration) (state : ConfigurationState) : Configuration :=
  { c with state := state }

/-- The resources the configuration needs. -/
def resources (c : Configuration) : NameSet := c.components.keySet

/-- The controllers to run on a resource; none on one that is not part of the configuration. -/
def controllers (c : Configuration) (resource : String) : List Controller :=
  (c.components.find? resource).getD []

/-- Whether the configuration needs no resource. -/
def isEmpty (c : Configuration) : Bool := c.components.isEmpty

@[simp] theorem name_withState (c : Configuration) (s : ConfigurationState) :
    (c.withState s).name = c.name := rfl

@[simp] theorem resources_withState (c : Configuration) (s : ConfigurationState) :
    (c.withState s).resources = c.resources := rfl

@[simp] theorem controllers_withState (c : Configuration) (s : ConfigurationState) (r : String) :
    (c.withState s).controllers r = c.controllers r := rfl

theorem make_eq_ok_iff {name : String} {components : SortedMap (List Controller)}
    {c : Configuration} :
    make name components = .ok c ↔
      c.name = name ∧ c.state = .idle ∧ c.components = components := by
  unfold make
  split
  next p h =>
    have hno : ¬ WellFormed name components := fun hw => by
      have := problem_eq_none_iff.2 hw
      simp [h] at this
    simp only [reduceCtorEq, false_iff]
    rintro ⟨rfl, -, rfl⟩
    exact hno c.wellFormed
  next h =>
    obtain ⟨n, s, m, w⟩ := c
    simp only [Except.ok.injEq, mk.injEq]
    grind

end Configuration

end ControlRig
