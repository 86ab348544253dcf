import ControlRig.Double.Shortest
import ControlRig.Json.Basic
import ControlRig.Text.Decimal
import ControlRig.Text.Quoted
import ControlRig.Toml.Node

/-!
# What a decoder sees

Requests come as JSON, definitions as parameter values, settings as a document. A decoder of records
should not care: it looks at a `Datum`, which keeps of all three what a decoder can see, and which
describes itself in the words of a fault ("integer `5`", "map").

The three sources differ in two ways that stay visible. JSON alone has a null. A date and time is a
text when it comes as a parameter value; in a document it stays a datum of its own, and is read as a
record with one field of a reserved name.
-/

namespace ControlRig

/-- A value to be decoded. -/
inductive Datum where
  | null
  | boolean (b : Bool)
  | integer (n : Int)
  /-- A floating-point number, by the text that messages show. -/
  | float (text : String)
  | string (s : String)
  | datetime (text : String)
  | sequence (items : List Datum)
  /-- The tables under one header of a document, which are a sequence in other words. -/
  | tables (items : List Datum)
  | record (fields : List (String × Datum))
  deriving Repr, Inhabited

namespace Datum

/-- The words that describe a datum in a fault. -/
def describe : Datum → String
  | .null => "null"
  | .boolean b => "boolean `" ++ (if b then "true" else "false") ++ "`"
  | .integer n => "integer `" ++ Text.signedDecimal n ++ "`"
  | .float text => "floating point `" ++ text ++ "`"
  | .string s => "string " ++ Text.quoted s
  | .sequence _ | .tables _ => "sequence"
  | .datetime _ | .record _ => "map"

end Datum

/-! ## The three sources -/

namespace Json

mutual

/-- A JSON value, with the fields of its objects in the order of the value. -/
def datum : Json → Datum
  | .null => .null
  | .bool b => .boolean b
  | .integer n => .integer n
  | .float x => .float x.scientificText
  | .string s => .string s
  | .array items => .sequence (datumItems items)
  | .object fields => .record (datumFields fields)

/-- The data of a list of values. -/
def datumItems : List Json → List Datum
  | [] => []
  | item :: rest => datum item :: datumItems rest

/-- The data of the fields of an object. -/
def datumFields : List (String × Json) → List (String × Datum)
  | [] => []
  | (name, value) :: rest => (name, datum value) :: datumFields rest

end

end Json

namespace Value

mutual

/-- A parameter value. Its tables are walked by increasing name. -/
def datum : Value → Datum
  | .string s => .string s
  | .integer n => .integer n
  | .float x => .float x.text
  | .boolean b => .boolean b
  | .datetime d => .string d.text
  | .array items => .sequence (datumItems items)
  | .table fields => .record (datumFields fields)

/-- The data of a list of values. -/
def datumItems : List Value → List Datum
  | [] => []
  | item :: rest => datum item :: datumItems rest

/-- The data of the fields of a table. -/
def datumFields : List (String × Value) → List (String × Datum)
  | [] => []
  | (name, value) :: rest => (name, datum value) :: datumFields rest

end

end Value

namespace Toml.Node

mutual

/-- A value of a document. Its tables are walked in the order of the document. -/
def datum : Node → Datum
  | .string s => .string s
  | .integer n => .integer n
  | .float x => .float x.text
  | .boolean b => .boolean b
  | .datetime d => .datetime d.text
  | .array items => .sequence (datumItems items)
  | .inlineTable _ fields => .record (datumFields fields)
  | .table _ fields => .record (datumFields fields)
  | .tables items => .tables (datumItems items)

/-- The data of a list of nodes. -/
def datumItems : List Node → List Datum
  | [] => []
  | item :: rest => datum item :: datumItems rest

/-- The data of the fields of a table. -/
def datumFields : List (String × Node) → List (String × Datum)
  | [] => []
  | (name, node) :: rest => (name, datum node) :: datumFields rest

end

end Toml.Node

end ControlRig
