import ControlRig.Catalog
import ControlRig.Duration

/-!
# What the manager remembers

The active configuration is kept as it was when it was activated. Reading the catalog again may
redefine it there; the copy still says what was actually brought up.
-/

namespace ControlRig

/-- What the manager remembers between requests. -/
structure ManagerState where
  active : Option Configuration
  catalog : Catalog
  /-- The number of transitions that were committed. -/
  transitions : Nat
  lastTransitionAt : Option Instant
  deriving DecidableEq, Repr, Inhabited

namespace ManagerState

/-- The state of a manager that has just been made. -/
def fresh (catalog : Catalog) : ManagerState := ⟨none, catalog, 0, none⟩

/-- The name of the active configuration. -/
def activeName (s : ManagerState) : Option String := s.active.map (·.name)

/-- The text that is published for an active name. -/
def statusText (active : Option String) : String := active.getD "none"

/-- The state after a transition to a configuration, or to nothing. -/
def commit (s : ManagerState) (active : Option Configuration) (now : Instant) : ManagerState where
  active := active
  catalog := s.catalog.markActive (active.map (·.name))
  transitions := s.transitions + 1
  lastTransitionAt := some now

end ManagerState

end ControlRig
