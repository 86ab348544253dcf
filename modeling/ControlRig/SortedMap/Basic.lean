/-!
# Maps kept in the order of their keys

Almost everything the rig holds is a finite map from names: the resources of a registry, the
components of a configuration, the configurations of a catalog, the fields of a parameter table.
All of them are shown, walked and compared in the order of their keys (by code point), so the order
is part of the type: a `SortedMap` is its list of entries with strictly increasing keys, and two
maps with the same entries are the same value.

The operations are defined on plain entry lists first (`Entries`), because parameter tables nest
inside their own values and cannot carry a proof field there. The lookup laws below need no order;
the order is what makes the representation unique (`SortedMap.ext_find?` in `SortedMap.Lemmas`).
-/

namespace ControlRig

/-! ## Entry lists -/

namespace Entries

variable {α β : Type}

/-- The value at the first entry with the key. -/
def find? (key : String) : List (String × α) → Option α
  | [] => none
  | (k, v) :: rest => if k = key then some v else find? key rest

/-- Put a value at its place in key order; an entry with the same key is replaced. -/
def insert (key : String) (value : α) : List (String × α) → List (String × α)
  | [] => [(key, value)]
  | (k, v) :: rest =>
    if k = key then (key, value) :: rest
    else if key < k then (key, value) :: (k, v) :: rest
    else (k, v) :: insert key value rest

/-- Drop every entry with the key. -/
def erase (key : String) : List (String × α) → List (String × α)
  | [] => []
  | (k, v) :: rest => if k = key then erase key rest else (k, v) :: erase key rest

/-- The keys, in the order of the entries. -/
def keys (entries : List (String × α)) : List String :=
  entries.map (·.1)

/-- Strictly increasing keys. -/
def Increasing (entries : List (String × α)) : Prop :=
  entries.Pairwise (fun a b => a.1 < b.1)

instance (entries : List (String × α)) : Decidable (Increasing entries) :=
  inferInstanceAs (Decidable (List.Pairwise _ _))

@[simp] theorem find?_nil (key : String) : find? key ([] : List (String × α)) = none := rfl

theorem find?_cons (key : String) (e : String × α) (rest : List (String × α)) :
    find? key (e :: rest) = if e.1 = key then some e.2 else find? key rest := rfl

theorem insert_nil (key : String) (value : α) : insert key value [] = [(key, value)] := rfl

theorem insert_cons (key : String) (value : α) (e : String × α) (rest : List (String × α)) :
    insert key value (e :: rest) =
      if e.1 = key then (key, value) :: rest
      else if key < e.1 then (key, value) :: e :: rest
      else e :: insert key value rest := rfl

theorem erase_cons (key : String) (e : String × α) (rest : List (String × α)) :
    erase key (e :: rest) = if e.1 = key then erase key rest else e :: erase key rest := rfl

/-- The value just put in is the value found. -/
@[simp] theorem find?_insert_self (key : String) (value : α) (entries : List (String × α)) :
    find? key (insert key value entries) = some value := by
  induction entries with
  | nil => simp [insert_nil, find?_cons]
  | cons e rest ih => grind [insert_cons, find?_cons]

/-- Every other key reads as before. -/
theorem find?_insert_of_ne {key other : String} (h : key ≠ other) (value : α)
    (entries : List (String × α)) :
    find? other (insert key value entries) = find? other entries := by
  induction entries with
  | nil => simp [insert_nil, find?_cons, h]
  | cons e rest ih => grind [insert_cons, find?_cons]

/-- An erased key is absent. -/
@[simp] theorem find?_erase_self (key : String) (entries : List (String × α)) :
    find? key (erase key entries) = none := by
  induction entries with
  | nil => rfl
  | cons e rest ih => grind [erase_cons, find?_cons]

/-- Erasing one key leaves the others as they were. -/
theorem find?_erase_of_ne {key other : String} (h : key ≠ other) (entries : List (String × α)) :
    find? other (erase key entries) = find? other entries := by
  induction entries with
  | nil => rfl
  | cons e rest ih => grind [erase_cons, find?_cons]

/-- Insertion adds one entry and no other. -/
theorem mem_insert {key : String} {value : α} {entries : List (String × α)} {e : String × α}
    (h : e ∈ insert key value entries) : e = (key, value) ∨ e ∈ entries := by
  induction entries with
  | nil => simpa [insert_nil] using h
  | cons hd rest ih => grind [insert_cons]

theorem erase_sublist (key : String) (entries : List (String × α)) :
    (erase key entries).Sublist entries := by
  induction entries with
  | nil => exact List.Sublist.slnil
  | cons hd rest ih =>
    rw [erase_cons]
    split
    · exact ih.cons _
    · exact ih.cons_cons _

/-- Insertion keeps the order. -/
theorem Increasing.insert {entries : List (String × α)} (h : Increasing entries) (key : String)
    (value : α) : Increasing (insert key value entries) := by
  induction entries with
  | nil => exact List.pairwise_singleton _ _
  | cons hd rest ih =>
    have hrest : Increasing rest := List.Pairwise.of_cons h
    have hhead : ∀ e ∈ rest, hd.1 < e.1 := fun e he => (List.pairwise_cons.1 h).1 e he
    rw [insert_cons]
    split
    · exact List.pairwise_cons.2 ⟨by grind, hrest⟩
    · split
      · exact List.pairwise_cons.2 ⟨by grind [String.lt_trans], h⟩
      · exact List.pairwise_cons.2 ⟨fun e he => by grind [mem_insert he], ih hrest⟩

/-- Erasing keeps the order. -/
theorem Increasing.erase {entries : List (String × α)} (h : Increasing entries) (key : String) :
    Increasing (erase key entries) :=
  List.Pairwise.sublist (erase_sublist key entries) h

/-- Changing the values keeps the order. -/
theorem Increasing.map {entries : List (String × α)} (h : Increasing entries)
    (f : String → α → β) : Increasing (entries.map (fun e => (e.1, f e.1 e.2))) :=
  List.Pairwise.map _ (fun _ _ hlt => hlt) h

end Entries

/-! ## The map type -/

/-- A finite map from names, as its entries in strictly increasing key order. -/
structure SortedMap (α : Type) where
  /-- The entries, smallest key first. -/
  entries : List (String × α)
  /-- The keys increase strictly, so each occurs once. -/
  increasing : Entries.Increasing entries

namespace SortedMap

variable {α β : Type}

instance [Repr α] : Repr (SortedMap α) := ⟨fun m prec => reprPrec m.entries prec⟩

instance [DecidableEq α] : DecidableEq (SortedMap α) := fun a b =>
  decidable_of_iff (a.entries = b.entries) (by
    constructor
    · intro h
      cases a
      cases b
      cases h
      rfl
    · intro h
      rw [h])

/-- The map without entries. -/
def empty : SortedMap α := ⟨[], List.Pairwise.nil⟩

instance : EmptyCollection (SortedMap α) := ⟨empty⟩

instance : Inhabited (SortedMap α) := ⟨empty⟩

/-- The value at a key. -/
def find? (m : SortedMap α) (key : String) : Option α :=
  Entries.find? key m.entries

/-- Whether the key has a value. -/
def contains (m : SortedMap α) (key : String) : Bool :=
  (m.find? key).isSome

/-- Put a value at a key, replacing what was there. -/
def insert (m : SortedMap α) (key : String) (value : α) : SortedMap α :=
  ⟨Entries.insert key value m.entries, m.increasing.insert key value⟩

/-- Drop a key. -/
def erase (m : SortedMap α) (key : String) : SortedMap α :=
  ⟨Entries.erase key m.entries, m.increasing.erase key⟩

/-- Replace every value by a function of its key and itself. -/
def mapValues (f : String → α → β) (m : SortedMap α) : SortedMap β :=
  ⟨m.entries.map (fun e => (e.1, f e.1 e.2)), m.increasing.map f⟩

/-- Replace the value at a key, if there is one. -/
def modify (m : SortedMap α) (key : String) (f : α → α) : SortedMap α :=
  m.mapValues (fun k v => if k = key then f v else v)

/-- The map of a list of entries; of two with the same key the later one counts. -/
def ofList (entries : List (String × α)) : SortedMap α :=
  entries.foldl (fun m e => m.insert e.1 e.2) empty

/-- The keys, increasing. -/
def keys (m : SortedMap α) : List String := Entries.keys m.entries

/-- The values, in key order. -/
def values (m : SortedMap α) : List α := m.entries.map (·.2)

/-- The number of entries. -/
def size (m : SortedMap α) : Nat := m.entries.length

/-- Whether there is no entry. -/
def isEmpty (m : SortedMap α) : Bool := m.entries.isEmpty

@[simp] theorem find?_empty (key : String) : (empty : SortedMap α).find? key = none := rfl

@[simp] theorem find?_insert_self (m : SortedMap α) (key : String) (value : α) :
    (m.insert key value).find? key = some value :=
  Entries.find?_insert_self key value m.entries

theorem find?_insert_of_ne (m : SortedMap α) {key other : String} (h : key ≠ other) (value : α) :
    (m.insert key value).find? other = m.find? other :=
  Entries.find?_insert_of_ne h value m.entries

@[simp] theorem find?_erase_self (m : SortedMap α) (key : String) :
    (m.erase key).find? key = none :=
  Entries.find?_erase_self key m.entries

theorem find?_erase_of_ne (m : SortedMap α) {key other : String} (h : key ≠ other) :
    (m.erase key).find? other = m.find? other :=
  Entries.find?_erase_of_ne h m.entries

@[simp] theorem keys_mapValues (f : String → α → β) (m : SortedMap α) :
    (m.mapValues f).keys = m.keys := by
  simp [keys, mapValues, Entries.keys, Function.comp_def]

@[simp] theorem size_mapValues (f : String → α → β) (m : SortedMap α) :
    (m.mapValues f).size = m.size := by
  simp [size, mapValues]

end SortedMap

end ControlRig
