import ControlRig.Double.Basic
import ControlRig.SortedMap.Basic

/-!
# JSON values

Requests, replies and listings travel as JSON. Two things about the value type matter to the
decoders and are kept apart here. Numbers remember how they were written: `2` is an integer, `2.0`
and `-0` are floating point. Objects keep their fields in the order of the text, repeated names
included, because a decoder reports the first fault it meets; `normalize` is the other view, in
which names are sorted and the last of two equal names counts.
-/

namespace ControlRig

/-- A JSON value as written. -/
inductive Json where
  | null
  | bool (b : Bool)
  | integer (n : Int)
  | float (x : Double)
  | string (s : String)
  | array (items : List Json)
  | object (fields : List (String × Json))
  deriving Repr, Inhabited

namespace Json

mutual

/-- The value with the fields of every object in order of their names, the last of equal names
counting. -/
def normalize : Json → Json
  | .array items => .array (normalizeItems items)
  | .object fields => .object (normalizeFields [] fields)
  | other => other

/-- Normalize each item of an array. -/
def normalizeItems : List Json → List Json
  | [] => []
  | item :: rest => normalize item :: normalizeItems rest

/-- Put normalized fields at their places among those already sorted. -/
def normalizeFields (sorted : List (String × Json)) : List (String × Json) → List (String × Json)
  | [] => sorted
  | (name, value) :: rest => normalizeFields (Entries.insert name (normalize value) sorted) rest

end

/-- The first field with the name, of an object. -/
def field? (name : String) : Json → Option Json
  | .object fields => Entries.find? name fields
  | _ => none

/-- The text of a string value. -/
def string? : Json → Option String
  | .string s => some s
  | _ => none

/-- The number of an integer value. -/
def integer? : Json → Option Int
  | .integer n => some n
  | _ => none

/-- The items of an array value. -/
def items? : Json → Option (List Json)
  | .array items => some items
  | _ => none

end Json

end ControlRig
