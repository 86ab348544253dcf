import ControlRig.CatalogError
import ControlRig.Decode.Scalar

/-!
# How strictly controllers are started

Where a controller fails to start, a strict start fails and a best-effort start goes on without it.
On the wire a strictness is one of the codes of controller managers (`0` and `1` for best effort,
`2` for strict) or a name; it is always written as a name.
-/

namespace ControlRig

/-- What a start does about a controller that fails. -/
inductive Strictness where
  | bestEffort
  | strict
  deriving DecidableEq, Repr, Inhabited

namespace Strictness

/-- The name. -/
def text : Strictness → String
  | .bestEffort => "best-effort"
  | .strict => "strict"

/-- The strictness of a code. -/
def ofCode? : Nat → Option Strictness
  | 0 | 1 => some .bestEffort
  | 2 => some .strict
  | _ => none

/-- The strictness of a name. -/
def ofName? (name : String) : Option Strictness :=
  if name = "best-effort" || name = "best_effort" then some .bestEffort
  else if name = "strict" then some .strict
  else none

/-- The strictness of a code, or an error that shows the code. -/
def ofCode (code : Nat) : Except CatalogError Strictness :=
  match ofCode? code with
  | some s => .ok s
  | none => .error (.invalidStrictness (Text.decimal code))

/-- The strictness of a name, or an error that shows the name. -/
def ofName (name : String) : Except CatalogError Strictness :=
  match ofName? name with
  | some s => .ok s
  | none => .error (.invalidStrictness name)

/-- A strictness by its code, an integer of eight bits, or by its name. -/
def decode : Decoder Strictness
  | .integer n =>
    if 0 ≤ n && n < 256 then
      match ofCode? n.toNat with
      | some s => .ok s
      | none => .error (Decode.Cause.invalidStrictness (Text.decimal n.toNat)).here
    else .error Decode.Cause.noStrictnessForm.here
  | .string name =>
    match ofName? name with
    | some s => .ok s
    | none => .error (Decode.Cause.invalidStrictness name).here
  | _ => .error Decode.Cause.noStrictnessForm.here

/-- The name of a strictness reads back. -/
@[simp] theorem ofName?_text (s : Strictness) : ofName? s.text = some s := by
  cases s <;> simp [text, ofName?]

@[simp] theorem decode_text (s : Strictness) : decode (.string s.text) = .ok s := by
  simp [decode]

end Strictness

end ControlRig
