import ControlRig.Double.Basic
import ControlRig.SortedMap.Basic
import ControlRig.Toml.DateTime

/-!
# Parameter values

What a parameter tree stores: scalars, arrays, and tables whose fields are in the order of their
names. There is no null; a field without a value is absent.
-/

namespace ControlRig

/-- A value of the parameter tree. -/
inductive Value where
  | string (s : String)
  | integer (n : Int)
  | float (x : Double)
  | boolean (b : Bool)
  | datetime (d : DateTime)
  | array (items : List Value)
  /-- A table; its fields have increasing names. -/
  | table (fields : List (String × Value))
  deriving Repr, Inhabited

namespace Value

/-- The fields of a table. -/
def table? : Value → Option (List (String × Value))
  | .table fields => some fields
  | _ => none

/-- The text of a string. -/
def string? : Value → Option String
  | .string s => some s
  | _ => none

end Value

end ControlRig
