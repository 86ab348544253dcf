import ControlRig.SortedMap.Lemmas

/-!
# Sets of names

The resources of a configuration, of a registry and of a transition are sets of names, listed in
increasing order wherever they are shown or acted on one by one. A `NameSet` is that list, so sets
with the same members are equal (`NameSet.ext_mem`) and the list needs no sorting when it is read.
-/

namespace ControlRig

/-- A finite set of names, as its strictly increasing list. -/
structure NameSet where
  /-- The members, smallest first. -/
  names : List String
  /-- The members increase strictly, so each occurs once. -/
  increasing : names.Pairwise (· < ·)
  deriving DecidableEq

namespace NameSet

instance : Repr NameSet := ⟨fun s prec => reprPrec s.names prec⟩

instance : Membership String NameSet := ⟨fun s name => name ∈ s.names⟩

instance (name : String) (s : NameSet) : Decidable (name ∈ s) :=
  inferInstanceAs (Decidable (name ∈ s.names))

theorem mem_def {name : String} {s : NameSet} : name ∈ s ↔ name ∈ s.names := Iff.rfl

/-- The set without members. -/
def empty : NameSet := ⟨[], List.Pairwise.nil⟩

instance : EmptyCollection NameSet := ⟨empty⟩

instance : Inhabited NameSet := ⟨empty⟩

/-- Put a name at its place in an increasing list. -/
def insertName (name : String) : List String → List String
  | [] => [name]
  | n :: rest =>
    if n = name then n :: rest
    else if name < n then name :: n :: rest
    else n :: insertName name rest

@[simp] theorem mem_insertName {name other : String} {names : List String} :
    other ∈ insertName name names ↔ other = name ∨ other ∈ names := by
  induction names with
  | nil => simp [insertName]
  | cons n rest ih => grind [insertName]

theorem insertName_increasing {names : List String} (h : names.Pairwise (· < ·)) (name : String) :
    (insertName name names).Pairwise (· < ·) := by
  induction names with
  | nil => exact List.pairwise_singleton _ _
  | cons n rest ih =>
    have hrest := List.Pairwise.of_cons h
    have hhead := (List.pairwise_cons.1 h).1
    unfold insertName
    split
    · exact h
    · split
      · exact List.pairwise_cons.2 ⟨by grind [String.lt_trans], h⟩
      · exact List.pairwise_cons.2 ⟨fun e he => by grind [mem_insertName], ih hrest⟩

/-- Add a member. -/
def insert (s : NameSet) (name : String) : NameSet :=
  ⟨insertName name s.names, insertName_increasing s.increasing name⟩

/-- The set of the names in a list. -/
def ofList (names : List String) : NameSet :=
  names.foldl insert empty

/-- The members that pass a test. -/
def filter (s : NameSet) (p : String → Bool) : NameSet :=
  ⟨s.names.filter p, s.increasing.filter p⟩

/-- The members of the first set that are not in the second. -/
def diff (s t : NameSet) : NameSet := s.filter (fun n => !t.names.contains n)

/-- The members of both sets. -/
def inter (s t : NameSet) : NameSet := s.filter t.names.contains

/-- The members of either set. -/
def union (s t : NameSet) : NameSet := t.names.foldl insert s

instance : SDiff NameSet := ⟨diff⟩
instance : Inter NameSet := ⟨inter⟩
instance : Union NameSet := ⟨union⟩

/-- Whether the set has no member. -/
def isEmpty (s : NameSet) : Bool := s.names.isEmpty

/-! ## Membership -/

@[simp] theorem not_mem_empty (name : String) : name ∉ (∅ : NameSet) := List.not_mem_nil

@[simp] theorem mem_insert {s : NameSet} {name other : String} :
    other ∈ s.insert name ↔ other = name ∨ other ∈ s :=
  mem_insertName

theorem mem_foldl_insert {names : List String} {s : NameSet} {name : String} :
    name ∈ names.foldl insert s ↔ name ∈ s ∨ name ∈ names := by
  induction names generalizing s with
  | nil => simp
  | cons n rest ih =>
    rw [List.foldl_cons, ih, mem_insert, List.mem_cons]
    exact ⟨fun h => h.elim (fun h => h.elim (fun h => .inr (.inl h)) .inl) (fun h => .inr (.inr h)),
      fun h => h.elim (fun h => .inl (.inr h)) (fun h => h.elim (fun h => .inl (.inl h)) .inr)⟩

@[simp] theorem mem_ofList {names : List String} {name : String} :
    name ∈ ofList names ↔ name ∈ names := by
  simp [ofList, mem_foldl_insert, show name ∉ empty from not_mem_empty name]

@[simp] theorem mem_union {s t : NameSet} {name : String} : name ∈ s ∪ t ↔ name ∈ s ∨ name ∈ t :=
  mem_foldl_insert

@[simp] theorem mem_sdiff {s t : NameSet} {name : String} : name ∈ s \ t ↔ name ∈ s ∧ name ∉ t := by
  show name ∈ s.names.filter _ ↔ _
  simp [List.mem_filter, mem_def]

@[simp] theorem mem_inter {s t : NameSet} {name : String} : name ∈ s ∩ t ↔ name ∈ s ∧ name ∈ t := by
  show name ∈ s.names.filter _ ↔ _
  simp [List.mem_filter, mem_def]

@[simp] theorem isEmpty_iff {s : NameSet} : s.isEmpty = true ↔ s = ∅ := by
  obtain ⟨names, h⟩ := s
  cases names with
  | nil => exact ⟨fun _ => rfl, fun _ => rfl⟩
  | cons n rest => exact ⟨fun h => by simp [isEmpty] at h, fun h => by cases h⟩

/-- Increasing lists with the same members are the same list. -/
theorem eq_of_mem_iff {a b : List String} (ha : a.Pairwise (· < ·)) (hb : b.Pairwise (· < ·))
    (h : ∀ n, n ∈ a ↔ n ∈ b) : a = b := by
  induction a generalizing b with
  | nil =>
    cases b with
    | nil => rfl
    | cons y ys => exact absurd ((h y).2 (List.mem_cons_self ..)) List.not_mem_nil
  | cons x xs ih =>
    cases b with
    | nil => exact absurd ((h x).1 (List.mem_cons_self ..)) List.not_mem_nil
    | cons y ys =>
      have hxs := (List.pairwise_cons.1 ha).1
      have hys := (List.pairwise_cons.1 hb).1
      have hxy : x = y := by
        rcases List.mem_cons.1 ((h x).1 (List.mem_cons_self ..)) with he | hx
        · exact he
        · rcases List.mem_cons.1 ((h y).2 (List.mem_cons_self ..)) with he | hy
          · exact he.symm
          · exact absurd (hys x hx) (String.lt_asymm (hxs y hy))
      subst hxy
      congr 1
      refine ih (List.Pairwise.of_cons ha) (List.Pairwise.of_cons hb) fun n => ?_
      have hn := h n
      grind [String.lt_irrefl]

/-- Sets with the same members are equal. -/
theorem ext_mem {s t : NameSet} (h : ∀ n, n ∈ s ↔ n ∈ t) : s = t := by
  obtain ⟨a, ha⟩ := s
  obtain ⟨b, hb⟩ := t
  have hab : a = b := eq_of_mem_iff ha hb h
  subst hab
  rfl

end NameSet

/-- The set of keys of a map. -/
def SortedMap.keySet {α : Type} (m : SortedMap α) : NameSet := ⟨m.keys, m.keys_increasing⟩

@[simp] theorem SortedMap.mem_keySet {α : Type} {m : SortedMap α} {key : String} :
    key ∈ m.keySet ↔ key ∈ m.keys := Iff.rfl

end ControlRig
