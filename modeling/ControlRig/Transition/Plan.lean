import ControlRig.Configuration.Basic

/-!
# What a transition has to do

A transition moves the rig from the active configuration to a target. What has to be loaded and
unloaded follows from three sets of resources: those of the active configuration, those of the
target, and those the registry really holds. When the registry does not hold exactly what the active
configuration needs, nothing it holds can be relied on: it is purged, and what the active
configuration needs is loaded along with what the target needs.
-/

namespace ControlRig

/-- How two sets of resources differ. -/
structure ResourceDiff where
  /-- In the second set only. -/
  toLoad : NameSet
  /-- In the first set only. -/
  toUnload : NameSet
  kept : NameSet
  deriving DecidableEq, Repr

/-- The difference between the resources of the active configuration and those of the target. -/
def ResourceDiff.between (active target : NameSet) : ResourceDiff :=
  ⟨target \ active, active \ target, active ∩ target⟩

/-- The resources of a configuration; none without one. -/
def Configuration.resourcesOf (configuration : Option Configuration) : NameSet :=
  configuration.elim ∅ Configuration.resources

/-- What a transition found, planned and did. -/
structure TransitionRecord where
  active : Option String
  target : Option String
  activeResources : NameSet
  targetResources : NameSet
  /-- What the registry held at the beginning. -/
  loadedResources : NameSet
  toLoad : NameSet
  toUnload : NameSet
  /-- Whether the registry had to be purged first. -/
  resynchronized : Bool
  /-- Whether each loaded resource became ready. -/
  verification : SortedMap Bool
  /-- The controllers that a best-effort start skipped. -/
  skippedControllers : List String
  deriving DecidableEq, Repr

namespace TransitionRecord

/-- The plan of a transition, before anything is done. -/
def plan (active target : Option Configuration) (loaded : NameSet) : TransitionRecord :=
  let diff := ResourceDiff.between (Configuration.resourcesOf active)
    (Configuration.resourcesOf target)
  { active := active.map (·.name)
    target := target.map (·.name)
    activeResources := Configuration.resourcesOf active
    targetResources := Configuration.resourcesOf target
    loadedResources := loaded
    toLoad := diff.toLoad
    toUnload := diff.toUnload
    resynchronized := false
    verification := ∅
    skippedControllers := [] }

/-- Whether the registry holds what the active configuration needs, and nothing else. -/
def isCoherent (r : TransitionRecord) : Bool := r.activeResources = r.loadedResources

/-- The plan after a purge: what the active configuration needs has to be loaded again. -/
def resynchronize (r : TransitionRecord) : TransitionRecord :=
  { r with toLoad := r.toLoad ∪ r.activeResources, resynchronized := true }

end TransitionRecord

/-- A key at which there have to be parameters, and what needs them. -/
structure Requirement where
  key : String
  owner : String
  deriving DecidableEq, Repr

/-- What a configuration needs parameters for: each resource in turn, and after it its controllers.
-/
def Configuration.requirements (c : Configuration) : List Requirement :=
  c.components.entries.flatMap fun (resource, controllers) =>
    ⟨resource, "hardware interface '" ++ resource ++ "'"⟩ ::
      controllers.map fun controller =>
        ⟨controller.paramsKey, "controller '" ++ controller.id ++ "' on '" ++ resource ++ "'"⟩

end ControlRig
