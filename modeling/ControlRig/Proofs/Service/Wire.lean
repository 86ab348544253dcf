import ControlRig.Configuration.Definition
import ControlRig.Proofs.Json.Legibility
import ControlRig.Service.Wire

/-!
# Records that read back

Every record of the daemon has one written form, and **the text of that form reads as the record**
(`Writes.ofText?`). A form has to be legible and its datum has to decode as the record; both are one
fact about the record (`Writes`), so that a list of records writes if its items do, with one more
level of nesting. The decoder of a record never looks at what may follow the last field of a list,
since forms are objects.
-/

namespace ControlRig

/-- What a text says to a reader of data; nothing if it is no JSON. -/
def Decode.ofText? {α : Type} (decode : Decoder α) (text : String) :
    Option (Except Decode.Fault α) :=
  (Json.parse? text).map fun json => decode json.datum

theorem Json.datumItems_eq_map (items : List Json) : datumItems items = items.map datum := by
  induction items with
  | nil => rfl
  | cons item rest ih => rw [datumItems, ih, List.map_cons]

/-- A form that can be read where so many containers can be opened, and that reads as a value. -/
structure Writes {α : Type} (decode : Decoder α) (room : Nat) (form : Json) (value : α) : Prop where
  legible : form.Legible room
  decoded : decode form.datum = .ok value

namespace Writes

variable {α : Type} {decode : Decoder α} {room : Nat}

/-- The text of the form says the value. -/
theorem ofText? {form : Json} {value : α} (h : Writes decode Json.maxDepth form value) :
    Decode.ofText? decode form.compact = some (.ok value) := by
  rw [Decode.ofText?, Json.parse?_compact h.legible, Option.map_some, h.decoded]

/-- A list of values is written as the list of their forms. -/
theorem sequence {encode : α → Json} (h : ∀ a, Writes decode room (encode a) a) (values : List α) :
    Writes (Decode.sequence decode) (room + 1) (.array (values.map encode)) values where
  legible := ⟨Nat.succ_pos room, Json.legibleItems_map (fun a => (h a).legible) values⟩
  decoded := by
    show Decode.items decode (Json.datumItems (values.map encode)) = .ok values
    rw [Json.datumItems_eq_map, List.map_map]
    exact Decode.items_map (fun a => (h a).decoded) values

theorem string (s : String) : Writes Decode.text room (.string s) s := ⟨trivial, rfl⟩

theorem natural {width : Decode.Width} (hwidth : width.bound ≤ Json.maxWord + 1) {n : Nat}
    (h : n < width.bound) : Writes (Decode.natural width) room (.integer n) n where
  legible := ⟨by omega, by omega⟩
  decoded := by
    have hrange : (0 ≤ (n : Int) && (n : Int) < width.bound) = true := by simp [h]
    show (if 0 ≤ (n : Int) && (n : Int) < width.bound then Except.ok (n : Int).toNat else _) = _
    rw [if_pos hrange, Int.toNat_natCast]

/-- A value or a null. -/
theorem optional {encode : α → Json} (h : ∀ a, Writes decode room (encode a) a)
    (hnull : ∀ a, (encode a).datum ≠ .null) (value : Option α) :
    Writes (Decode.optional decode) room (value.elim .null encode) value := by
  cases value with
  | none => exact ⟨trivial, rfl⟩
  | some a =>
    refine ⟨(h a).legible, ?_⟩
    -- a form that is no null is not taken for an absent value
    have hsome : Decode.optional decode (encode a).datum = (decode (encode a).datum).map some := by
      unfold Decode.optional
      split
      · rename_i heq
        exact absurd heq (hnull a)
      · rfl
    show Decode.optional decode (encode a).datum = .ok (some a)
    rw [hsome, (h a).decoded]
    rfl

end Writes

/-! ## Records -/

namespace Decode.RecordShape

variable {δ α : Type} {shape : RecordShape δ α}

/-- A field that is known and new is read, and then the others. -/
theorem readFields_cons {name : String} {value : Datum} {rest : List (String × Datum)}
    {field : Field δ} {draft next : δ} (hfield : shape.fields.find? (·.isCalled name) = some field)
    (hnew : field.given draft = false) (hread : field.read value draft = .ok next) :
    shape.readFields ((name, value) :: rest) draft = shape.readFields rest next := by
  rw [readFields, hfield]
  simp [hnew, hread]

/-- A record with all its fields read. -/
theorem decode_record {excess : Excess} {fields : List (String × Datum)} {record : α} (draft : δ)
    (hread : shape.readFields fields shape.blank = .ok draft)
    (hfinish : shape.finish draft = some record) :
    shape.decode excess (.record fields) = .ok record := by
  rw [decode, hread]
  simp [complete, hfinish]

end Decode.RecordShape

open Decode.RecordShape

variable {room : Nat} {excess : Decode.Excess}

theorem StartRequest.writes (r : StartRequest) :
    Writes (shape.decode excess) (room + 1) r.json r where
  legible := ⟨Nat.succ_pos room, trivial, trivial, trivial⟩
  decoded := by
    obtain ⟨name, strictness⟩ := r
    cases strictness <;> rfl

theorem StopRequest.writes (r : StopRequest) :
    Writes (shape.decode excess) (room + 1) r.json r where
  legible := ⟨Nat.succ_pos room, trivial, trivial⟩
  decoded := by
    obtain ⟨strictness⟩ := r
    cases strictness <;> rfl

theorem Ack.writes (a : Ack) : Writes (shape.decode excess) (room + 1) a.json a := by
  obtain ⟨ok, message⟩ := a
  cases message with
  | none => exact ⟨⟨Nat.succ_pos room, trivial, trivial⟩, rfl⟩
  | some text => exact ⟨⟨Nat.succ_pos room, trivial, trivial, trivial⟩, rfl⟩

theorem ComponentSummary.writes (c : ComponentSummary) :
    Writes (shape.decode excess) (room + 2) c.json c := by
  obtain ⟨resource, controllers⟩ := c
  have hcontrollers : Writes (Decode.sequence Decode.text) (room + 1)
      (.array (controllers.map .string)) controllers := .sequence .string controllers
  refine ⟨⟨Nat.succ_pos _, trivial, hcontrollers.legible, trivial⟩,
    decode_record ⟨some resource, some controllers⟩ ?_ rfl⟩
  exact (readFields_cons rfl rfl rfl).trans
    (readFields_cons rfl rfl (congrArg (Except.map _) hcontrollers.decoded))

theorem ConfigurationSummary.writes (c : ConfigurationSummary) :
    Writes ((shape excess).decode excess) (room + 4) c.json c := by
  obtain ⟨name, state, components⟩ := c
  have hcomponents : Writes (Decode.sequence (ComponentSummary.shape.decode excess)) (room + 3)
      (.array (components.map ComponentSummary.json)) components :=
    .sequence ComponentSummary.writes components
  have hstate := congrArg (Except.map fun s => Draft.mk (some name) (some s) none)
    (ConfigurationState.decode_text state)
  refine ⟨⟨Nat.succ_pos _, trivial, trivial, hcomponents.legible, trivial⟩,
    decode_record ⟨some name, some state, some components⟩ ?_ rfl⟩
  exact (readFields_cons rfl rfl rfl).trans ((readFields_cons rfl rfl hstate).trans
    (readFields_cons rfl rfl (congrArg (Except.map _) hcomponents.decoded)))

theorem ConfigurationList.writes (l : ConfigurationList) :
    Writes ((shape excess).decode excess) (room + 6) l.json l := by
  obtain ⟨ok, configurations, message⟩ := l
  have hconfigurations : Writes
      (Decode.sequence ((ConfigurationSummary.shape excess).decode excess)) (room + 5)
      (.array (configurations.map ConfigurationSummary.json)) configurations :=
    .sequence ConfigurationSummary.writes configurations
  have hread := congrArg (Except.map fun l => Draft.mk (some ok) (some l) none)
    hconfigurations.decoded
  cases message with
  | none =>
    refine ⟨⟨Nat.succ_pos _, trivial, hconfigurations.legible, trivial⟩,
      decode_record ⟨some ok, some configurations, none⟩ ?_ rfl⟩
    exact (readFields_cons rfl rfl rfl).trans (readFields_cons rfl rfl hread)
  | some text =>
    refine ⟨⟨Nat.succ_pos _, trivial, hconfigurations.legible, trivial, trivial⟩,
      decode_record ⟨some ok, some configurations, some (some text)⟩ ?_ rfl⟩
    exact (readFields_cons rfl rfl rfl).trans ((readFields_cons rfl rfl hread).trans
      (readFields_cons rfl rfl rfl))

theorem Component.writes (c : Component) : Writes (decode excess) (room + 1) c.json c := by
  obtain ⟨resource, controller, description, check⟩ := c
  have htext (value : Option String) :
      Writes (Decode.optional Decode.text) room (value.elim .null .string) value :=
    .optional .string (fun _ => nofun) value
  refine ⟨⟨Nat.succ_pos _, trivial, (htext controller).legible, (htext description).legible,
    trivial, trivial⟩, ?_⟩
  cases controller <;> cases description <;> rfl

theorem Definition.writes (d : Definition) : Writes (decode excess) (room + 3) d.json d := by
  obtain ⟨name, components⟩ := d
  have hcomponents : Writes (Decode.sequence (Component.decode excess)) (room + 2)
      (.array (components.map Component.json)) components := .sequence Component.writes components
  refine ⟨⟨Nat.succ_pos _, trivial, hcomponents.legible, trivial⟩,
    decode_record ⟨some name, some components⟩ ?_ rfl⟩
  exact (readFields_cons rfl rfl rfl).trans
    (readFields_cons rfl rfl (congrArg (Except.map _) hcomponents.decoded))

/-- A status that is not dated, and whose numbers fit a word. -/
structure StatusReport.Plain (s : StatusReport) : Prop where
  undated : s.lastTransitionAt = none
  transitions : s.transitions < Decode.Width.long.bound
  configurations : s.configurations < Decode.Width.count.bound

/-- The data are variables here, since the range of a number is not to be computed with. -/
theorem StatusReport.readFields_numbers {active : Option String} {n k : Nat} {registry : String}
    {a t c : Datum} (hactive : Decode.optional Decode.text a = .ok active)
    (ht : Decode.natural .long t = .ok n) (hc : Decode.natural .count c = .ok k) :
    shape.readFields [("active", a), ("transitions", t), ("last_transition_at", .null),
      ("configurations", c), ("registry", .string registry)] shape.blank =
      .ok ⟨some active, some n, some none, some k, some registry⟩ :=
  (readFields_cons rfl rfl (congrArg (Except.map _) hactive)).trans
    ((readFields_cons rfl rfl (congrArg (Except.map _) ht)).trans
      ((readFields_cons rfl rfl rfl).trans
        ((readFields_cons rfl rfl (congrArg (Except.map _) hc)).trans
          (readFields_cons rfl rfl rfl))))

theorem StatusReport.writes {s : StatusReport} (h : s.Plain) :
    Writes (shape.decode excess) (room + 1) s.json s := by
  obtain ⟨active, transitions, moment, configurations, registry⟩ := s
  obtain ⟨rfl, htransitions, hconfigurations⟩ := h
  have hactive : Writes (Decode.optional Decode.text) room (active.elim .null .string) active :=
    .optional .string (fun _ => nofun) active
  have htransitions : Writes (Decode.natural .long) room (.integer transitions) transitions :=
    .natural (by decide) htransitions
  have hconfigurations : Writes (Decode.natural .count) room (.integer configurations)
      configurations := .natural (by decide) hconfigurations
  exact ⟨⟨Nat.succ_pos _, hactive.legible, htransitions.legible, trivial, hconfigurations.legible,
    trivial, trivial⟩, decode_record _ (readFields_numbers hactive.decoded htransitions.decoded
      hconfigurations.decoded) rfl⟩

end ControlRig
