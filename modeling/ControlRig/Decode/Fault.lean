import ControlRig.Decode.Datum

/-!
# Faults of decoding

The first thing that is wrong with a datum, and where. The place is the path of field names from the
outside in; positions within sequences are not part of it. Only the definitions of configurations
show the place (`Fault.report`); elsewhere the cause alone is reported.
-/

namespace ControlRig

namespace Decode

/-- Words for "one of these names": quoted, and joined by what their number asks for. -/
def oneOf : List String → String
  | [] => "there are no fields"
  | [a] => "expected `" ++ a ++ "`"
  | [a, b] => "expected `" ++ a ++ "` or `" ++ b ++ "`"
  | names => "expected one of " ++ ", ".intercalate (names.map (fun n => "`" ++ n ++ "`"))

/-- What is wrong with a datum. -/
inductive Cause where
  /-- A datum of another kind than the one expected. -/
  | invalidType (found : Datum) (expected : String)
  /-- A datum of the right kind that is out of range. -/
  | invalidValue (found : Datum) (expected : String)
  /-- A sequence with too few or too many items for a record. -/
  | invalidLength (length : Nat) (expected : String)
  | missingField (name : String)
  | duplicateField (name : String)
  | unknownField (name : String) (known : List String)
  | unknownVariant (name : String) (known : List String)
  /-- Items after the last field, where a record is read from running text. -/
  | trailingCharacters
  /-- Neither a code nor a name of a strictness. -/
  | noStrictnessForm
  | invalidStrictness (shown : String)
  /-- A text that is no date and time. -/
  | badTimestamp (reason : String)
  /-- A choice that is written neither as a text nor as a table. -/
  | neitherStringNorTable
  /-- A choice written as a table without a field, or with several. -/
  | notOneElement (several : Bool)
  /-- A choice written as a table whose value is not empty, or no table at all. -/
  | notEmpty (kind : String)
  | notATable (kind : String)
  deriving Repr

/-- The wording of a cause. -/
def Cause.message : Cause → String
  | .invalidType found expected => "invalid type: " ++ found.describe ++ ", expected " ++ expected
  | .invalidValue found expected => "invalid value: " ++ found.describe ++ ", expected " ++ expected
  | .invalidLength length expected =>
    "invalid length " ++ Text.decimal length ++ ", expected " ++ expected
  | .missingField name => "missing field `" ++ name ++ "`"
  | .duplicateField name => "duplicate field `" ++ name ++ "`"
  | .unknownField name known => "unknown field `" ++ name ++ "`, " ++ oneOf known
  | .unknownVariant name known => "unknown variant `" ++ name ++ "`, " ++ oneOf known
  | .trailingCharacters => "trailing characters"
  | .noStrictnessForm => "data did not match any variant of untagged enum StrictnessRepr"
  | .invalidStrictness shown => "invalid strictness: " ++ shown
  | .badTimestamp reason => reason
  | .neitherStringNorTable => "wanted string or table"
  | .notOneElement several =>
    "wanted exactly 1 element, " ++ if several then "more than 1 element" else "found 0 elements"
  | .notEmpty kind => "expected empty " ++ kind
  | .notATable kind => "expected table, found " ++ kind

/-- A cause and the path to where it was met. -/
structure Fault where
  cause : Cause
  path : List String
  deriving Repr

/-- A cause met right here. -/
def Cause.here (cause : Cause) : Fault := ⟨cause, []⟩

namespace Fault

/-- The same fault, seen from outside the field in which it was met. -/
def below (fault : Fault) (name : String) : Fault := { fault with path := name :: fault.path }

/-- The cause alone. -/
def message (fault : Fault) : String := fault.cause.message

/-- The cause on a line of its own, and the place on another if it lies below a field. -/
def report (fault : Fault) : String :=
  fault.message ++ "\n" ++
    if fault.path.isEmpty then "" else "in `" ++ ".".intercalate fault.path ++ "`\n"

end Fault

end Decode

/-- A reader of data: the value, or the first fault. -/
abbrev Decoder (α : Type) := Datum → Except Decode.Fault α

end ControlRig
