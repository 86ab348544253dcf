import ControlRig.Param.Value

/-!
# The tree of a settings or parameter document

A document is read into nodes that keep what a bare value forgets: the order of the fields, and how
each table came to be. The second is what the format's rules about redefinition speak of. A table
written by its own header or between braces is closed (`Origin.stated`); one that stands only on the
way to a deeper header may still be stated later (`implied`); one opened by a dotted key may be
extended by dotted keys alone (`dotted`).

`descend` is the only walk through a tree that is being built. It follows a path, opens tables where
there are none, and applies a change to the fields of the last table, or refuses.
-/

namespace ControlRig.Toml

/-- How a table came to be. -/
inductive Origin where
  | stated
  | implied
  | dotted
  deriving DecidableEq, Repr

/-- A value in a document. -/
inductive Node where
  | string (s : String)
  | integer (n : Int)
  | float (x : Double)
  | boolean (b : Bool)
  | datetime (d : DateTime)
  | array (items : List Node)
  /-- A table between braces. -/
  | inlineTable (origin : Origin) (fields : List (String × Node))
  /-- A table under a header, or opened by a dotted key of such a table. -/
  | table (origin : Origin) (fields : List (String × Node))
  /-- The tables of a header in double brackets, in order. -/
  | tables (items : List Node)
  deriving Repr, Inhabited

/-- Fields in the order of the document. -/
abbrev Fields := List (String × Node)

/-- The reserved name of the field by which a table stands for a date or time. -/
def datetimeField : String := "$__toml_private_datetime"

namespace Node

/-- The date or time that a node spells as a string. -/
def spelled? : Node → Option DateTime
  | .string s => DateTime.ofText? s
  | _ => none

mutual

/-- The parameter value of a node: how tables came to be is forgotten, and their fields are put in
the order of their names. There is none where the reserved field of a table spells no date or
time. -/
def value? : Node → Option Value
  | .string s => some (.string s)
  | .integer n => some (.integer n)
  | .float x => some (.float x)
  | .boolean b => some (.boolean b)
  | .datetime d => some (.datetime d)
  | .array items => (values? items).map .array
  | .inlineTable _ fields => tableValue? fields
  | .table _ fields => tableValue? fields
  | .tables items => (values? items).map .array

/-- The values of a list of nodes. -/
def values? : List Node → Option (List Value)
  | [] => some []
  | item :: rest =>
    match value? item, values? rest with
    | some value, some more => some (value :: more)
    | _, _ => none

/-- The values of fields, by increasing name. -/
def fieldValues? : Fields → Option (List (String × Value))
  | [] => some []
  | (name, node) :: rest =>
    match value? node, fieldValues? rest with
    | some value, some more => some (Entries.insert name value more)
    | _, _ => none

/-- The value of the fields of a table. The reserved field, where it comes first, makes the table the
date or time that it spells, and what follows it counts for nothing. -/
def tableValue? : Fields → Option Value
  | [] => some (.table [])
  | (name, node) :: rest =>
    if name = datetimeField then node.spelled?.map .datetime
    else
      match value? node, fieldValues? rest with
      | some value, some more => some (.table (Entries.insert name value more))
      | _, _ => none

end

end Node

/-! ## Building -/

/-- A table with its fields, seen while a path is followed. -/
structure Place where
  origin : Origin
  fields : Fields

/-- Put a node at a name: in its place if the name is there, else behind all others. -/
def Fields.set (name : String) (node : Node) : Fields → Fields
  | [] => [(name, node)]
  | (n, v) :: rest => if n = name then (n, node) :: rest else (n, v) :: set name node rest

/-- The last item of a list, and those before it. -/
def splitLast? {α : Type} : List α → Option (List α × α)
  | [] => none
  | [a] => some ([], a)
  | a :: rest => (splitLast? rest).map fun (before, last) => (a :: before, last)

/-- Follow a path through tables under headers and change the table at its end.

A name that is not there opens a table of the given origin. An array of tables is entered at its
last table. A dotted key must not pass through a table that is stated. -/
def descend (opened : Origin) (change : Place → Option Place) : List String → Place → Option Place
  | [], place => change place
  | name :: path, place =>
    match Entries.find? name place.fields with
    | none =>
      (descend opened change path ⟨opened, []⟩).map fun inner =>
        { place with fields := place.fields ++ [(name, .table inner.origin inner.fields)] }
    | some (.table origin fields) =>
      if opened = .dotted && origin = .stated then none
      else
        (descend opened change path ⟨origin, fields⟩).map fun inner =>
          { place with fields := Fields.set name (.table inner.origin inner.fields) place.fields }
    | some (.tables items) =>
      match splitLast? items with
      | some (before, .table origin fields) =>
        (descend opened change path ⟨origin, fields⟩).map fun inner =>
          let items := before ++ [.table inner.origin inner.fields]
          { place with fields := Fields.set name (.tables items) place.fields }
      | _ => none
    | some _ => none

/-- Add a field to the table a key leads to. The table must be one that this kind of key may extend:
one opened by dotted keys for a dotted key, any other for a plain one. -/
def addField (plain : Bool) (name : String) (node : Node) (place : Place) : Option Place :=
  if decide (place.origin = .dotted) = plain then none
  else if (Entries.find? name place.fields).isSome then none
  else some { place with fields := place.fields ++ [(name, node)] }

/-- A key of one or more names, split before its last name. -/
def splitKey? (key : List String) : Option (List String × String) := splitLast? key

/-- Add a field under a key to a table. -/
def assign (key : List String) (node : Node) (place : Place) : Option Place :=
  match splitKey? key with
  | some (path, name) => descend .dotted (addField path.isEmpty name node) path place
  | none => none

/-- Open the table of a header in single brackets. Its name must be new, or so far only implied. -/
def stateTable (name : String) (place : Place) : Option Place :=
  match Entries.find? name place.fields with
  | none => some { place with fields := place.fields ++ [(name, .table .stated [])] }
  | some (.table .implied fields) =>
    some { place with fields := Entries.erase name place.fields ++ [(name, .table .stated fields)] }
  | some _ => none

/-- Open one more table of a header in double brackets. -/
def addTable (name : String) (place : Place) : Option Place :=
  match Entries.find? name place.fields with
  | none => some { place with fields := place.fields ++ [(name, .tables [.table .stated []])] }
  | some (.tables items) =>
    some { place with
      fields := Fields.set name (.tables (items ++ [.table .stated []])) place.fields }
  | some _ => none

/-- Open a table by its header. -/
def openTable (step : String → Place → Option Place) (header : List String) (place : Place) :
    Option Place :=
  match splitKey? header with
  | some (path, name) => descend .implied (step name) path place
  | none => none

/-! ## Tables between braces -/

/-- Follow a dotted key through the tables between one pair of braces, and add a field at its end. A
table that stands between braces of its own is closed to it. -/
def assignInline (name : String) (node : Node) : List String → Place → Option Place
  | [], place =>
    if (Entries.find? name place.fields).isSome then none
    else some { place with fields := place.fields ++ [(name, node)] }
  | key :: path, place =>
    match Entries.find? key place.fields with
    | none =>
      (assignInline name node path ⟨.dotted, []⟩).map fun inner =>
        { place with fields := place.fields ++ [(key, .inlineTable inner.origin inner.fields)] }
    | some (.inlineTable .dotted fields) =>
      (assignInline name node path ⟨.dotted, fields⟩).map fun inner =>
        { place with
          fields := Fields.set key (.inlineTable inner.origin inner.fields) place.fields }
    | some _ => none

/-- The table of the fields between one pair of braces. -/
def inlineOf? (fields : List (List String × Node)) : Option Node :=
  let add (place : Place) (field : List String × Node) : Option Place :=
    match splitKey? field.1 with
    | some (path, name) => assignInline name field.2 path place
    | none => none
  (fields.foldlM add ⟨.stated, []⟩).map fun place => .inlineTable .stated place.fields

end ControlRig.Toml
