import ControlRig.Decode.Scalar

/-!
# Decoding records

A record is written as fields with names, or as a sequence with its fields in the order of their
declaration. A `RecordShape` describes both at once: the fields, how each is read into a draft, and
how a complete draft becomes the record. Fields are taken as they come, so the fault reported is the
first one met: a field that is unknown (where the record is closed), that comes twice, or whose
value cannot be read; after the last field, the first required one that did not come.

What may follow the last field of a sequence depends on where the sequence comes from (`Excess`).
-/

namespace ControlRig.Decode

/-- Whether a field has to be there. -/
inductive Presence where
  /-- It has to. -/
  | required
  /-- It may be absent among names, but not within a sequence. -/
  | nullable
  /-- It may be absent. -/
  | optional
  deriving DecidableEq, Repr

/-- What becomes of the items of a sequence that come after the last field. -/
inductive Excess where
  /-- They are a fault that tells the length of the sequence. -/
  | counted
  /-- They are a fault of the running text. -/
  | refused
  /-- They are passed over. -/
  | ignored
  deriving DecidableEq, Repr

/-- A field of a record that is read into drafts. -/
structure Field (δ : Type) where
  name : String
  /-- Another name that means the same field. -/
  alternative : Option String
  presence : Presence
  /-- Whether the draft already has the field. -/
  given : δ → Bool
  /-- Read the field into the draft. -/
  read : Datum → δ → Except Fault δ

/-- Whether a name means the field. -/
def Field.isCalled {δ : Type} (field : Field δ) (name : String) : Bool :=
  field.name = name || field.alternative = some name

/-- A kind of record. -/
structure RecordShape (δ α : Type) where
  /-- What faults call the record. -/
  name : String
  fields : List (Field δ)
  /-- Whether a field of another name is a fault. -/
  closed : Bool
  /-- The draft without any field. -/
  blank : δ
  /-- The record of a draft; nothing if a required field is not there. -/
  finish : δ → Option α

namespace RecordShape

variable {δ α : Type}

/-- Every name of a field, in order of declaration. -/
def names (shape : RecordShape δ α) : List String :=
  shape.fields.flatMap (fun field => field.name :: field.alternative.toList)

/-- The record of a draft, or the first required field it lacks. -/
def complete (shape : RecordShape δ α) (draft : δ) : Except Fault α :=
  match shape.finish draft with
  | some record => .ok record
  | none =>
    let lacking := shape.fields.find? fun field =>
      field.presence = .required && !field.given draft
    .error (Cause.missingField ((lacking.map (·.name)).getD "")).here

/-- Read fields by their names. -/
def readFields (shape : RecordShape δ α) : List (String × Datum) → δ → Except Fault δ
  | [], draft => .ok draft
  | (name, value) :: rest, draft =>
    match shape.fields.find? (·.isCalled name) with
    | some field =>
      if field.given draft then .error (Cause.duplicateField field.name).here
      else
        match field.read value draft with
        | .ok draft => readFields shape rest draft
        | .error fault => .error (fault.below name)
    | none =>
      if shape.closed then .error (Cause.unknownField name shape.names).here
      else readFields shape rest draft

/-- The words for a record with all its fields. -/
def wholeText (shape : RecordShape δ α) : String :=
  "struct " ++ shape.name ++ " with " ++ Text.decimal shape.fields.length
    ++ if shape.fields.length = 1 then " element" else " elements"

/-- Read fields by their positions, from the given one on; the items that are left over come with
the draft. -/
def readItems (shape : RecordShape δ α) (position : Nat) :
    List (Field δ) → List Datum → δ → Except Fault (δ × List Datum)
  | [], items, draft => .ok (draft, items)
  | field :: fields, [], draft =>
    if field.presence = .optional then readItems shape (position + 1) fields [] draft
    else .error (Cause.invalidLength position shape.wholeText).here
  | field :: fields, item :: items, draft =>
    match field.read item draft with
    | .ok draft => readItems shape (position + 1) fields items draft
    | .error fault => .error fault

/-- Read a record from its fields in order. -/
def decodeItems (shape : RecordShape δ α) (excess : Excess) (items : List Datum) : Except Fault α :=
  match shape.readItems 0 shape.fields items shape.blank with
  | .error fault => .error fault
  | .ok (draft, []) => shape.complete draft
  | .ok (draft, _ :: _) =>
    match excess with
    | .counted => .error (Cause.invalidLength items.length "fewer elements in array").here
    | .refused => .error Cause.trailingCharacters.here
    | .ignored => shape.complete draft

/-- Read a record. -/
def decode (shape : RecordShape δ α) (excess : Excess) : Decoder α
  | .record fields =>
    match shape.readFields fields shape.blank with
    | .ok draft => shape.complete draft
    | .error fault => .error fault
  | .datetime text =>
    match shape.readFields [(Toml.datetimeField, .string text)] shape.blank with
    | .ok draft => shape.complete draft
    | .error fault => .error fault
  | .sequence items | .tables items => shape.decodeItems excess items
  | other => .error (Cause.invalidType other ("struct " ++ shape.name)).here

end RecordShape

end ControlRig.Decode
