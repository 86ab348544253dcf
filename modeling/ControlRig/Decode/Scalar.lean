import ControlRig.Decode.Fault

/-!
# Decoding what has no fields

Texts, truth values, natural numbers of a given width, optional values, sequences, and choices
between named alternatives.
-/

namespace ControlRig.Decode

/-- A text. -/
def text : Decoder String
  | .string s => .ok s
  | other => .error (Cause.invalidType other "a string").here

/-- A truth value. -/
def boolean : Decoder Bool
  | .boolean b => .ok b
  | other => .error (Cause.invalidType other "a boolean").here

/-- A range of natural numbers, with the name that faults give it. -/
structure Width where
  name : String
  /-- The least number that is too large. -/
  bound : Nat

/-- Numbers of eight bits. -/
def Width.byte : Width := ⟨"u8", 0x100⟩
/-- Numbers of thirty-two bits. -/
def Width.word : Width := ⟨"u32", 0x100000000⟩
/-- Numbers of sixty-four bits. -/
def Width.long : Width := ⟨"u64", 0x10000000000000000⟩
/-- Counts of things. -/
def Width.count : Width := ⟨"usize", 0x10000000000000000⟩

/-- A natural number of a width. -/
def natural (width : Width) : Decoder Nat
  | .integer n =>
    if 0 ≤ n && n < width.bound then .ok n.toNat
    else .error (Cause.invalidValue (.integer n) width.name).here
  | other => .error (Cause.invalidType other width.name).here

/-- A value, or nothing where there is a null. -/
def optional {α : Type} (decode : Decoder α) : Decoder (Option α)
  | .null => .ok none
  | other => (decode other).map some

/-- The values of a list of data, up to the first fault. -/
def items {α : Type} (decode : Decoder α) : List Datum → Except Fault (List α)
  | [] => .ok []
  | item :: rest =>
    match decode item with
    | .error fault => .error fault
    | .ok value => (items decode rest).map (value :: ·)

/-- A sequence of values. -/
def sequence {α : Type} (decode : Decoder α) : Decoder (List α)
  | .sequence data | .tables data => items decode data
  | other => .error (Cause.invalidType other "a sequence").here

/-! ## Choices -/

/-- The alternative of a name. -/
def alternative {α : Type} (choices : List (String × α)) (name : String) : Except Fault α :=
  match Entries.find? name choices with
  | some value => .ok value
  | none => .error (Cause.unknownVariant name (choices.map (·.1))).here

/-- One of several named alternatives: its name, or a record whose only field has that name and
holds a null. -/
def choice {α : Type} (choices : List (String × α)) : Decoder α
  | .string name => alternative choices name
  | .record [(name, inner)] =>
    match alternative choices name, inner with
    | .error fault, _ => .error fault
    | .ok value, .null => .ok value
    | .ok _, other => .error (Cause.invalidType other "unit").here
  | .record fields => .error (Cause.invalidValue (.record fields) "map with a single key").here
  | other => .error (Cause.invalidType other "string or map").here

/-- What a document calls the kind of a datum that is neither a table nor an array. -/
def kindInDocument : Datum → String
  | .boolean _ => "boolean"
  | .integer _ => "integer"
  | .float _ => "float"
  | .string _ => "string"
  | .datetime _ => "datetime"
  | .null | .sequence _ | .tables _ | .record _ => "none"

/-- A choice in a document: the name of an alternative, or a table whose only field has that name
and holds an empty table or array. Of all that is not empty, only tables under a header of their own
are called an array. -/
def choiceInDocument {α : Type} (choices : List (String × α)) : Decoder α
  | .string name => alternative choices name
  | .record [(name, inner)] =>
    match alternative choices name, inner with
    | .error fault, _ => .error fault
    | .ok value, .record [] | .ok value, .sequence [] | .ok value, .tables [] => .ok value
    | .ok _, .record _ | .ok _, .sequence _ => .error (Cause.notEmpty "table").here
    | .ok _, .tables _ => .error (Cause.notEmpty "array").here
    | .ok _, other => .error (Cause.notATable (kindInDocument other)).here
  | .record fields => .error (Cause.notOneElement (!fields.isEmpty)).here
  | _ => .error Cause.neitherStringNorTable.here

/-! ## What is written is read -/

theorem items_map {α : Type} {decode : Decoder α} {encode : α → Datum}
    (h : ∀ a, decode (encode a) = .ok a) (values : List α) :
    items decode (values.map encode) = .ok values := by
  induction values with
  | nil => rfl
  | cons a rest ih => simp [items, h a, ih, Except.map]

end ControlRig.Decode
