import ControlRig.Param.Document
import ControlRig.Proofs.Param.Tree
import ControlRig.SortedMap.Lemmas

/-!
# Trees in the order of their names

The fields of a table are a list, because a table nests in its own values, and that their names
increase is not part of the type. It is an invariant instead (`Value.Ordered`), of every table that
a path leads to: **a tree that is read from a document has it, and whoever writes or erases keeps
it**. What it buys is that a tree is determined by what is found in it, so putting back what was
there changes nothing (`Entries.Increasing.insert_of_find?`).
-/

namespace ControlRig

namespace Entries

variable {α : Type}

/-- Putting back what is there changes nothing. -/
theorem Increasing.insert_of_find? {entries : List (String × α)} (h : Increasing entries)
    {key : String} {value : α} (there : find? key entries = some value) :
    Entries.insert key value entries = entries := by
  refine Increasing.ext (h.insert key value) h fun other => ?_
  by_cases hother : key = other
  · subst hother
    rw [find?_insert_self, there]
  · exact find?_insert_of_ne hother value entries

/-- There is nothing to erase where nothing is. -/
theorem erase_of_find? {key : String} {entries : List (String × α)}
    (missing : find? key entries = none) : erase key entries = entries := by
  induction entries with
  | nil => rfl
  | cons e rest ih =>
    obtain ⟨k, v⟩ := e
    rw [find?_cons] at missing
    dsimp only at missing
    by_cases hk : k = key
    · rw [if_pos hk] at missing
      cases missing
    · rw [if_neg hk] at missing
      rw [erase, if_neg hk, ih missing]

end Entries

/-! ## Ordered values -/

/-- The names of every table that a path leads to increase. -/
def Value.Ordered (value : Value) : Prop :=
  ∀ path fields, value.at? path = some (.table fields) → Entries.Increasing fields

namespace Value

/-- What is no table leads to none. -/
theorem ordered_of_leaf {value : Value} (leaf : ∀ fields, value ≠ .table fields) :
    value.Ordered := by
  intro path fields hfind
  cases path with
  | nil =>
    rw [Value.at?] at hfind
    exact absurd (Option.some.inj hfind) (leaf fields)
  | cons name path =>
    cases value with
    | table inner => exact absurd rfl (leaf inner)
    | _ => cases hfind

theorem ordered_table_iff {fields : Param.Fields} :
    (Value.table fields).Ordered ↔ Entries.Increasing fields ∧
      ∀ name value, Entries.find? name fields = some value → value.Ordered := by
  constructor
  · intro h
    refine ⟨h [] fields rfl, fun name value hfind path inner hpath => h (name :: path) inner ?_⟩
    rw [Value.at?, hfind]
    exact hpath
  · rintro ⟨hincreasing, hinner⟩ path inner hpath
    cases path with
    | nil =>
      cases hpath
      exact hincreasing
    | cons name path =>
      rw [Value.at?] at hpath
      cases hfind : Entries.find? name fields with
      | none =>
        rw [hfind] at hpath
        cases hpath
      | some value =>
        rw [hfind] at hpath
        exact hinner name value hfind path inner hpath

theorem ordered_table {fields : Param.Fields} (increasing : Entries.Increasing fields)
    (h : ∀ e ∈ fields, e.2.Ordered) : (Value.table fields).Ordered :=
  ordered_table_iff.2 ⟨increasing, fun _ _ hfind => h _ (Entries.mem_of_find? hfind)⟩

theorem ordered_empty : (Value.table []).Ordered :=
  ordered_table List.Pairwise.nil nofun

end Value

namespace Param.Fields

theorem ordered_insert {fields : Fields} {name : String} {value : Value}
    (h : (Value.table fields).Ordered) (ordered : value.Ordered) :
    (Value.table (Entries.insert name value fields)).Ordered := by
  obtain ⟨hincreasing, hinner⟩ := Value.ordered_table_iff.1 h
  refine Value.ordered_table_iff.2 ⟨hincreasing.insert name value, fun other found hfind => ?_⟩
  by_cases hname : name = other
  · subst hname
    rw [Entries.find?_insert_self] at hfind
    cases hfind
    exact ordered
  · rw [Entries.find?_insert_of_ne hname] at hfind
    exact hinner other found hfind

theorem ordered_below {fields inner : Fields} {name : String} (h : (Value.table fields).Ordered)
    (hbelow : below name fields = some inner) : (Value.table inner).Ordered := by
  unfold below at hbelow
  split at hbelow
  · cases hbelow
    exact Value.ordered_empty
  · rename_i found hfind
    cases hbelow
    exact (Value.ordered_table_iff.1 h).2 name _ hfind
  · cases hbelow

/-- Whoever writes something ordered keeps the order. -/
theorem ordered_set? {value : Value} (ordered : value.Ordered) {path : List String}
    {fields after : Fields} (h : (Value.table fields).Ordered)
    (hset : set? value path fields = some after) : (Value.table after).Ordered := by
  induction path generalizing fields after with
  | nil => cases hset
  | cons name path ih =>
    by_cases hlast : path = []
    · subst hlast
      cases hset
      exact ordered_insert h ordered
    · rw [set?_cons hlast, Option.bind_eq_some_iff] at hset
      obtain ⟨inner, hbelow, hset⟩ := hset
      obtain ⟨inner', hinner, rfl⟩ := Option.map_eq_some_iff.1 hset
      exact ordered_insert h (ih (ordered_below h hbelow) hinner)

theorem ordered_erase_last {fields : Fields} (h : (Value.table fields).Ordered) (name : String) :
    (Value.table (Entries.erase name fields)).Ordered := by
  obtain ⟨hincreasing, hinner⟩ := Value.ordered_table_iff.1 h
  refine Value.ordered_table_iff.2 ⟨hincreasing.erase name, fun other found hfind => ?_⟩
  by_cases hname : name = other
  · subst hname
    rw [Entries.find?_erase_self] at hfind
    cases hfind
  · rw [Entries.find?_erase_of_ne hname] at hfind
    exact hinner other found hfind

/-- Whoever erases keeps the order. -/
theorem ordered_erase (path : List String) {fields : Fields} (h : (Value.table fields).Ordered) :
    (Value.table (erase path fields)).Ordered := by
  induction path generalizing fields with
  | nil => exact h
  | cons name path ih =>
    by_cases hlast : path = []
    · subst hlast
      exact ordered_erase_last h name
    · rcases erase_cons hlast name fields with heq | ⟨inner, hbelow, heq⟩
      · rw [heq]
        exact h
      · rw [heq]
        exact ordered_insert h (ih (ordered_below h hbelow))

end Param.Fields

/-! ## Documents -/

namespace Toml.Node

mutual

theorem ordered_of_value? : ∀ (node : Node) {value : Value}, node.value? = some value →
    value.Ordered
  | .string _, _, h | .integer _, _, h | .float _, _, h | .boolean _, _, h
  | .datetime _, _, h => by
    cases h
    exact Value.ordered_of_leaf fun _ => Value.noConfusion
  | .array items, _, h | .tables items, _, h => by
    obtain ⟨values, -, rfl⟩ := Option.map_eq_some_iff.1 h
    exact Value.ordered_of_leaf fun _ => Value.noConfusion
  | .inlineTable _ fields, _, h => ordered_of_tableValue? fields h
  | .table _ fields, _, h => ordered_of_tableValue? fields h

theorem ordered_of_fieldValues? : ∀ (fields : Fields) {values : Param.Fields},
    fieldValues? fields = some values → (Value.table values).Ordered
  | [], _, h => by
    cases h
    exact Value.ordered_empty
  | (name, node) :: rest, values, h => by
    rw [fieldValues?] at h
    split at h
    · rename_i value more hvalue hmore
      cases h
      exact Param.Fields.ordered_insert (ordered_of_fieldValues? rest hmore)
        (ordered_of_value? node hvalue)
    · cases h

theorem ordered_of_tableValue? : ∀ (fields : Fields) {value : Value},
    tableValue? fields = some value → value.Ordered
  | [], _, h => by
    cases h
    exact Value.ordered_empty
  | (name, node) :: rest, value, h => by
    rw [tableValue?] at h
    split at h
    · obtain ⟨d, -, rfl⟩ := Option.map_eq_some_iff.1 h
      exact Value.ordered_of_leaf fun _ => Value.noConfusion
    · split at h
      · rename_i inner more hvalue hmore
        cases h
        exact Param.Fields.ordered_insert (ordered_of_fieldValues? rest hmore)
          (ordered_of_value? node hvalue)
      · cases h

end

end Toml.Node

/-! ## Ordered trees -/

namespace ParamTree

/-- The names of every table of a tree increase. -/
def Ordered (tree : ParamTree) : Prop := (Value.table tree.root).Ordered

theorem ordered_empty : empty.Ordered := Value.ordered_empty

/-- A tree that is read from a document is ordered. -/
theorem ordered_of_ofDocument {text : String} {tree : ParamTree} (h : ofDocument text = .ok tree) :
    tree.Ordered := by
  unfold ofDocument at h
  split at h
  · cases h
  · rename_i root hroot
    cases h
    obtain ⟨fields, -, hvalues⟩ := Option.bind_eq_some_iff.1 hroot
    exact Toml.Node.ordered_of_fieldValues? fields hvalues

theorem Ordered.insert {tree after : ParamTree} {key : String} {value : Value} (h : tree.Ordered)
    (ordered : value.Ordered) (hinsert : tree.insert key value = .ok after) : after.Ordered :=
  Param.Fields.ordered_set? ordered h (insert_eq_ok_iff.1 hinsert)

theorem Ordered.erase {tree : ParamTree} (h : tree.Ordered) (key : String) :
    (tree.erase key).Ordered :=
  Param.Fields.ordered_erase _ h

end ParamTree

end ControlRig
