import ControlRig.Decode.Scalar

/-!
# The conditions of resources and configurations

A registry reports one of five states for a hardware resource. A configuration is either the one
that runs or idle.
-/

namespace ControlRig

/-- The state of a hardware resource, as its registry reports it. -/
inductive ResourceState where
  | unloaded
  | loading
  | initialized
  | running
  | error
  deriving DecidableEq, Repr, Inhabited

namespace ResourceState

/-- The name. -/
def text : ResourceState → String
  | .unloaded => "unloaded"
  | .loading => "loading"
  | .initialized => "initialized"
  | .running => "running"
  | .error => "error"

/-- Every state with its name. -/
def choices : List (String × ResourceState) :=
  [.unloaded, .loading, .initialized, .running, .error].map (fun s => (s.text, s))

/-- A state by its name. -/
def decode : Decoder ResourceState := Decode.choice choices

/-- Whether controllers can use the resource. -/
def isReady : ResourceState → Bool
  | .initialized | .running => true
  | .unloaded | .loading | .error => false

/-- Whether the resource has failed. -/
def isFault (s : ResourceState) : Bool := s = .error

@[simp] theorem decode_text (s : ResourceState) : decode (.string s.text) = .ok s := by
  cases s <;> rfl

end ResourceState

/-- Whether a configuration is the one that runs. -/
inductive ConfigurationState where
  | idle
  | running
  deriving DecidableEq, Repr, Inhabited

namespace ConfigurationState

/-- The name. -/
def text : ConfigurationState → String
  | .idle => "idle"
  | .running => "running"

/-- Both states with their names. -/
def choices : List (String × ConfigurationState) :=
  [.idle, .running].map (fun s => (s.text, s))

/-- A state by its name. -/
def decode : Decoder ConfigurationState := Decode.choice choices

@[simp] theorem decode_text (s : ConfigurationState) : decode (.string s.text) = .ok s := by
  cases s <;> rfl

end ConfigurationState

end ControlRig
