import ControlRig.Param.Key
import ControlRig.Param.Value

/-!
# The parameter tree

Tables within tables, addressed by keys. Reading follows a key through tables only; writing opens
the tables that are missing on the way, and refuses to replace anything but a table by a table on
the way to something below it. What it refuses it leaves untouched.

The walks are defined on paths, on the fields of a table (`Value.at?`, `Fields.set?`,
`Fields.erase`).
-/

namespace ControlRig

/-- The value at the end of a path through tables, starting at a value. -/
def Value.at? : Value → List String → Option Value
  | v, [] => some v
  | .table fields, name :: path =>
    match Entries.find? name fields with
    | some inner => inner.at? path
    | none => none
  | _, _ :: _ => none

namespace Param

/-- The fields of a table. -/
abbrev Fields := List (String × Value)

/-- Put a value at the end of a path. Nothing where the path is empty or leads through a value that
is no table. -/
def Fields.set? (value : Value) : List String → Fields → Option Fields
  | [], _ => none
  | [name], fields => some (Entries.insert name value fields)
  | name :: next :: path, fields =>
    match Entries.find? name fields with
    | none =>
      (Fields.set? value (next :: path) []).map fun inner =>
        Entries.insert name (.table inner) fields
    | some (.table inner) =>
      (Fields.set? value (next :: path) inner).map fun inner =>
        Entries.insert name (.table inner) fields
    | some _ => none

/-- Drop what is at the end of a path, if anything is there. -/
def Fields.erase : List String → Fields → Fields
  | [], fields => fields
  | [name], fields => Entries.erase name fields
  | name :: next :: path, fields =>
    match Entries.find? name fields with
    | some (.table inner) =>
      Entries.insert name (.table (Fields.erase (next :: path) inner)) fields
    | _ => fields

end Param

/-- What can go wrong with a parameter tree. -/
inductive ParamError where
  /-- The file of the tree cannot be read. -/
  | unreadable
  /-- The file of the tree is no document. -/
  | notADocument
  /-- A key has no path, or one that leads through a value that is no table. -/
  | notATable (key : String)
  deriving DecidableEq, Repr

/-- The wording of a parameter error; what the system or the reader says is not part of it. -/
def ParamError.message : ParamError → String
  | .unreadable => "param I/O error"
  | .notADocument => "failed to parse parameter file: TOML parse error"
  | .notATable key => "param key '" ++ key ++ "' passes through a non-table value"

/-- A tree of parameters. -/
structure ParamTree where
  root : Param.Fields
  deriving Repr, Inhabited

namespace ParamTree

/-- The tree without parameters. -/
def empty : ParamTree := ⟨[]⟩

/-- The value at a key. -/
def get? (tree : ParamTree) (key : String) : Option Value :=
  match Param.segments key with
  | [] => none
  | path => (Value.table tree.root).at? path

/-- Whether there is a value at a key. -/
def hasEntry (tree : ParamTree) (key : String) : Bool := (tree.get? key).isSome

/-- Put a value at a key. -/
def insert (tree : ParamTree) (key : String) (value : Value) : Except ParamError ParamTree :=
  match Param.Fields.set? value (Param.segments key) tree.root with
  | some root => .ok ⟨root⟩
  | none => .error (.notATable key)

/-- Drop what is at a key. -/
def erase (tree : ParamTree) (key : String) : ParamTree :=
  ⟨Param.Fields.erase (Param.segments key) tree.root⟩

/-- The text at a key. -/
def text? (tree : ParamTree) (key : String) : Option String :=
  (tree.get? key).bind Value.string?

end ParamTree

end ControlRig
