import ControlRig.Param.Access

/-!
# The laws of a parameter tree

What is written at a path is found there, and nothing is found to have changed at a path that
neither leads to it nor goes on from it (`Param.Apart`). **Writing works exactly if the way is
open** (`Param.Fields.set?_isSome_iff`), that is if no value but tables lies on it; and whoever has
written once can write there again.

Walks are recursive on the path, with the last name as a case of its own. `Fields.below` is what a
step that is not the last finds, for the reader and the writer alike, so each law is one induction
with one step for both.
-/

namespace ControlRig

namespace Param.Fields

/-- The fields that a walk goes on with below a name: new ones where nothing is, none where the way
is blocked. -/
def below (name : String) (fields : Fields) : Option Fields :=
  match Entries.find? name fields with
  | none => some []
  | some (.table inner) => some inner
  | some _ => none

theorem at?_last (name : String) (fields : Fields) :
    (Value.table fields).at? [name] = Entries.find? name fields := by
  unfold Value.at?
  cases Entries.find? name fields <;> rfl

theorem at?_cons {path : List String} (h : path ≠ []) (name : String) (fields : Fields) :
    (Value.table fields).at? (name :: path) =
      (below name fields).bind fun inner => (Value.table inner).at? path := by
  obtain ⟨next, rest, rfl⟩ := List.exists_cons_of_ne_nil h
  rw [Value.at?, below]
  cases Entries.find? name fields with
  | none => rfl
  | some value => cases value <;> rfl

theorem set?_cons {path : List String} (h : path ≠ []) (value : Value) (name : String)
    (fields : Fields) :
    set? value (name :: path) fields = (below name fields).bind fun inner =>
      (set? value path inner).map fun inner => Entries.insert name (.table inner) fields := by
  obtain ⟨next, rest, rfl⟩ := List.exists_cons_of_ne_nil h
  rw [set?, below]
  cases Entries.find? name fields with
  | none => rfl
  | some value => cases value <;> rfl

/-! ## What is written -/

/-- Below the end of the path is what is written there. -/
theorem at?_set?_self {value : Value} {path : List String} {fields after : Fields}
    (h : set? value path fields = some after) (rest : List String) :
    (Value.table after).at? (path ++ rest) = value.at? rest := by
  induction path generalizing fields after with
  | nil => cases h
  | cons name path ih =>
    by_cases hlast : path = []
    · subst hlast
      cases h
      show (Value.table _).at? (name :: rest) = _
      rw [Value.at?, Entries.find?_insert_self]
    · rw [set?_cons hlast, Option.bind_eq_some_iff] at h
      obtain ⟨inner, -, h⟩ := h
      obtain ⟨inner', hset, rfl⟩ := Option.map_eq_some_iff.1 h
      rw [List.cons_append, Value.at?, Entries.find?_insert_self]
      exact ih hset

/-- Paths of which neither goes on from the other. -/
def Apart (path other : List String) : Prop := ¬ path <+: other ∧ ¬ other <+: path

instance (path other : List String) : Decidable (Apart path other) :=
  inferInstanceAs (Decidable (_ ∧ _))

theorem Apart.tail {name : String} {path other : List String}
    (h : Apart (name :: path) (name :: other)) : Apart path other :=
  ⟨fun hp => h.1 (List.cons_prefix_cons.2 ⟨rfl, hp⟩),
    fun hp => h.2 (List.cons_prefix_cons.2 ⟨rfl, hp⟩)⟩

theorem Apart.ne_nil {path other : List String} (h : Apart path other) : other ≠ [] := by
  rintro rfl
  exact h.2 List.nil_prefix

/-- Where the paths part, another value at the one makes no difference to the other. -/
theorem at?_insert_of_ne {name other : String} (h : name ≠ other) (value : Value)
    (path : List String) (fields : Fields) :
    (Value.table (Entries.insert name value fields)).at? (other :: path) =
      (Value.table fields).at? (other :: path) := by
  rw [Value.at?, Value.at?, Entries.find?_insert_of_ne h]

theorem at?_set?_of_apart {value : Value} {path other : List String} {fields after : Fields}
    (h : set? value path fields = some after) (apart : Apart path other) :
    (Value.table after).at? other = (Value.table fields).at? other := by
  induction path generalizing other fields after with
  | nil => cases h
  | cons name path ih =>
    cases other with
    | nil => exact absurd rfl apart.ne_nil
    | cons n other =>
      by_cases hn : name = n
      · -- the paths go on together, so neither of them ends here
        subst hn
        have hpath : path ≠ [] := fun he => apart.1 (by simp [he])
        have hother : other ≠ [] := fun he => apart.2 (by simp [he])
        rw [set?_cons hpath, Option.bind_eq_some_iff] at h
        obtain ⟨inner, hbelow, h⟩ := h
        obtain ⟨inner', hset, rfl⟩ := Option.map_eq_some_iff.1 h
        rw [at?_cons hother name fields, hbelow, Value.at?, Entries.find?_insert_self]
        exact ih hset apart.tail
      · by_cases hlast : path = []
        · subst hlast
          cases h
          exact at?_insert_of_ne hn _ _ _
        · rw [set?_cons hlast, Option.bind_eq_some_iff] at h
          obtain ⟨inner, -, h⟩ := h
          obtain ⟨inner', -, rfl⟩ := Option.map_eq_some_iff.1 h
          exact at?_insert_of_ne hn _ _ _

/-! ## What is dropped -/

theorem erase_cons {path : List String} (h : path ≠ []) (name : String) (fields : Fields) :
    erase (name :: path) fields = fields ∨ ∃ inner, below name fields = some inner ∧
      erase (name :: path) fields = Entries.insert name (.table (erase path inner)) fields := by
  obtain ⟨next, rest, rfl⟩ := List.exists_cons_of_ne_nil h
  rw [erase, below]
  cases Entries.find? name fields with
  | none => exact .inl rfl
  | some value =>
    cases value with
    | table inner => exact .inr ⟨inner, rfl, rfl⟩
    | _ => exact .inl rfl

theorem at?_erase_of_apart {path other : List String} (fields : Fields)
    (apart : Apart path other) :
    (Value.table (erase path fields)).at? other = (Value.table fields).at? other := by
  induction path generalizing other fields with
  | nil => rfl
  | cons name path ih =>
    cases other with
    | nil => exact absurd rfl apart.ne_nil
    | cons n other =>
      by_cases hlast : path = []
      · subst hlast
        have hn : name ≠ n := fun he => apart.1 (by simp [he])
        show (Value.table (Entries.erase name fields)).at? (n :: other) = _
        rw [Value.at?, Value.at?, Entries.find?_erase_of_ne hn]
      · rcases erase_cons hlast name fields with heq | ⟨inner, hbelow, heq⟩
        · rw [heq]
        · rw [heq]
          by_cases hn : name = n
          · subst hn
            have hother : other ≠ [] := fun he => apart.2 (by simp [he])
            rw [at?_cons hother name fields, hbelow, Value.at?, Entries.find?_insert_self]
            exact ih inner apart.tail
          · exact at?_insert_of_ne hn _ _ _

/-! ## Where writing works -/

/-- Nothing but tables lies on the way to the end of a path. -/
def Open (path : List String) (fields : Fields) : Prop :=
  ∀ front back value, path = front ++ back → front ≠ [] → back ≠ [] →
    (Value.table fields).at? front = some value → ∃ inner, value = .table inner

theorem open_nil (fields : Fields) : Open [] fields := by
  intro front back _ hpath hfront
  exact absurd (List.append_eq_nil_iff.1 hpath.symm).1 hfront

theorem open_cons {path : List String} (h : path ≠ []) {name : String} {fields : Fields} :
    Open (name :: path) fields ↔ ∃ inner, below name fields = some inner ∧ Open path inner := by
  constructor
  · intro hopen
    obtain ⟨inner, hbelow⟩ : ∃ inner, below name fields = some inner := by
      have hfirst := hopen [name] path
      rw [at?_last] at hfirst
      unfold below
      cases hfind : Entries.find? name fields with
      | none => exact ⟨[], rfl⟩
      | some value =>
        obtain ⟨inner, rfl⟩ := hfirst value rfl (List.cons_ne_nil _ _) h hfind
        exact ⟨inner, rfl⟩
    refine ⟨inner, hbelow, fun front back value hpath hfront hback hfind => ?_⟩
    refine hopen (name :: front) back value (by rw [hpath, List.cons_append])
      (List.cons_ne_nil _ _) hback ?_
    rw [at?_cons hfront, hbelow]
    exact hfind
  · rintro ⟨inner, hbelow, hopen⟩ front back value hpath hfront hback hfind
    obtain ⟨n, front, rfl⟩ := List.exists_cons_of_ne_nil hfront
    obtain ⟨rfl, rfl⟩ := List.cons.inj hpath
    by_cases hlast : front = []
    · subst hlast
      rw [at?_last] at hfind
      unfold below at hbelow
      rw [hfind] at hbelow
      cases value with
      | table fields => exact ⟨fields, rfl⟩
      | _ => cases hbelow
    · rw [at?_cons hlast, hbelow] at hfind
      exact hopen front back value rfl hlast hback hfind

/-- **Writing works exactly if there is a way and it is open.** -/
theorem set?_isSome_iff {value : Value} {path : List String} {fields : Fields} :
    (set? value path fields).isSome ↔ path ≠ [] ∧ Open path fields := by
  induction path generalizing fields with
  | nil => simp [set?]
  | cons name path ih =>
    by_cases hlast : path = []
    · subst hlast
      refine iff_of_true rfl ⟨List.cons_ne_nil _ _, fun front back _ hpath hfront hback => ?_⟩
      rcases List.append_eq_singleton_iff.1 hpath.symm with ⟨rfl, -⟩ | ⟨-, rfl⟩
      · exact absurd rfl hfront
      · exact absurd rfl hback
    · rw [set?_cons hlast, open_cons hlast]
      cases hbelow : below name fields with
      | none => simp
      | some inner => simp [ih, hlast]

instance (path : List String) (fields : Fields) : Decidable (Open path fields) :=
  decidable_of_iff (path = [] ∨ (set? (.table []) path fields).isSome) <| by
    rw [set?_isSome_iff]
    constructor
    · rintro (rfl | ⟨-, hopen⟩)
      · exact open_nil fields
      · exact hopen
    · intro hopen
      by_cases hpath : path = []
      · exact .inl hpath
      · exact .inr ⟨hpath, hopen⟩

/-- Where something is found the way is open. -/
theorem open_of_at? {path : List String} {fields : Fields} {value : Value}
    (h : (Value.table fields).at? path = some value) : Open path fields := by
  induction path generalizing fields with
  | nil => exact open_nil fields
  | cons name path ih =>
    by_cases hlast : path = []
    · subst hlast
      exact (set?_isSome_iff.1 (show (set? value [name] fields).isSome from rfl)).2
    · rw [at?_cons hlast, Option.bind_eq_some_iff] at h
      obtain ⟨inner, hbelow, hfind⟩ := h
      exact (open_cons hlast).2 ⟨inner, hbelow, ih hfind⟩

end Param.Fields

/-! ## Where a path leads -/

/-- A path leads from a value to another, through one table for each of its names. -/
inductive Value.Leads : Value → List String → Value → Prop
  | here (value : Value) : Leads value [] value
  | through {fields : Param.Fields} {name : String} {path : List String} {inner value : Value} :
      Entries.find? name fields = some inner → Leads inner path value →
      Leads (.table fields) (name :: path) value

theorem Value.at?_eq_some_iff {start value : Value} {path : List String} :
    start.at? path = some value ↔ start.Leads path value := by
  induction path generalizing start with
  | nil =>
    rw [Value.at?]
    constructor
    · intro h
      cases h
      exact .here _
    · intro h
      cases h
      rfl
  | cons name path ih =>
    constructor
    · intro h
      cases start with
      | table fields =>
        rw [Value.at?] at h
        cases hfind : Entries.find? name fields with
        | none =>
          rw [hfind] at h
          cases h
        | some inner =>
          rw [hfind] at h
          exact .through hfind (ih.1 h)
      | _ => cases h
    · intro h
      cases h with
      | through hfind hleads =>
        rw [Value.at?, hfind]
        exact ih.2 hleads

/-! ## Trees and keys -/

namespace ParamTree

variable {tree after : ParamTree} {key other : String} {value : Value}

/-- Keys of which neither leads to the other. -/
abbrev Apart (key other : String) : Prop :=
  Param.Fields.Apart (Param.segments key) (Param.segments other)

/-- Something can be written at a key. -/
def Writable (tree : ParamTree) (key : String) : Prop :=
  Param.segments key ≠ [] ∧ Param.Fields.Open (Param.segments key) tree.root

/-- Nothing is at a key that has no path. -/
theorem get?_of_nil (h : Param.segments key = []) : tree.get? key = none := by
  rw [get?, h]

theorem get?_of_ne_nil (h : Param.segments key ≠ []) :
    tree.get? key = (Value.table tree.root).at? (Param.segments key) := by
  obtain ⟨name, path, heq⟩ := List.exists_cons_of_ne_nil h
  rw [get?, heq]

/-- There is something at a key: it has a path, and the path leads to a value. -/
def Has (tree : ParamTree) (key : String) : Prop :=
  Param.segments key ≠ [] ∧ ∃ value, (Value.table tree.root).Leads (Param.segments key) value

theorem hasEntry_iff : tree.hasEntry key = true ↔ tree.Has key := by
  rw [hasEntry, Has]
  by_cases hpath : Param.segments key = []
  · rw [get?_of_nil hpath]
    exact iff_of_false Bool.false_ne_true fun h => h.1 hpath
  · rw [get?_of_ne_nil hpath, Option.isSome_iff_exists]
    simp only [Value.at?_eq_some_iff]
    exact ⟨fun h => ⟨hpath, h⟩, And.right⟩

instance (tree : ParamTree) (key : String) : Decidable (tree.Has key) :=
  decidable_of_iff _ hasEntry_iff

theorem insert_eq_ok_iff :
    tree.insert key value = .ok after ↔
      Param.Fields.set? value (Param.segments key) tree.root = some after.root := by
  unfold insert
  cases Param.Fields.set? value (Param.segments key) tree.root with
  | none => simp
  | some root =>
    constructor
    · intro h
      cases h
      rfl
    · intro h
      cases h
      rfl

/-- **Writing works exactly where it can.** -/
theorem Writable.insert (h : tree.Writable key) (value : Value) :
    ∃ after, tree.insert key value = .ok after := by
  have hsome : (Param.Fields.set? value (Param.segments key) tree.root).isSome :=
    Param.Fields.set?_isSome_iff.2 h
  obtain ⟨root, hset⟩ := Option.isSome_iff_exists.1 hsome
  exact ⟨⟨root⟩, insert_eq_ok_iff.2 hset⟩

theorem set?_of_not_writable (h : ¬ tree.Writable key) (value : Value) :
    Param.Fields.set? value (Param.segments key) tree.root = none := by
  rw [← Option.not_isSome_iff_eq_none, Param.Fields.set?_isSome_iff]
  exact h

theorem insert_of_not_writable (h : ¬ tree.Writable key) (value : Value) :
    tree.insert key value = .error (.notATable key) := by
  rw [insert, set?_of_not_writable h]

/-- What was written is found. -/
theorem get?_insert_self (h : tree.insert key value = .ok after) : after.get? key = some value := by
  rw [insert_eq_ok_iff] at h
  have hsome : Param.segments key ≠ [] := by
    intro hnil
    rw [hnil] at h
    cases h
  rw [get?_of_ne_nil hsome, ← List.append_nil (Param.segments key),
    Param.Fields.at?_set?_self h []]
  cases value <;> rfl

theorem get?_insert_of_apart (h : tree.insert key value = .ok after) (apart : Apart key other) :
    after.get? other = tree.get? other := by
  rw [insert_eq_ok_iff] at h
  rw [get?_of_ne_nil apart.ne_nil, get?_of_ne_nil apart.ne_nil,
    Param.Fields.at?_set?_of_apart h apart]

theorem get?_erase_of_apart (tree : ParamTree) (apart : Apart key other) :
    (tree.erase key).get? other = tree.get? other := by
  rw [get?_of_ne_nil apart.ne_nil, get?_of_ne_nil apart.ne_nil]
  exact Param.Fields.at?_erase_of_apart tree.root apart

/-- Where there is a value, it can be written over. -/
theorem writable_of_get? (h : tree.get? key = some value) : tree.Writable key := by
  unfold get? at h
  split at h
  · cases h
  · exact ⟨by assumption, Param.Fields.open_of_at? h⟩

/-! ## Published texts -/

/-- **A text that is published where it can be is the text that is read**, and can be replaced. -/
theorem Writable.publish (h : tree.Writable key) (text : String) :
    (tree.publish key text).1.text? key = some text ∧
      (tree.publish key text).1.Writable key := by
  obtain ⟨after, hinsert⟩ := h.insert (.string text)
  have hget := get?_insert_self hinsert
  unfold ParamTree.publish text?
  rw [hinsert]
  dsimp only
  rw [hget]
  exact ⟨rfl, writable_of_get? hget⟩

theorem get?_publish_of_apart (tree : ParamTree) (text : String) (apart : Apart key other) :
    (tree.publish key text).1.get? other = tree.get? other := by
  unfold publish
  cases hinsert : tree.insert key (.string text) with
  | error e => rfl
  | ok after => exact get?_insert_of_apart hinsert apart

/-- Below what is no table, a text is refused. -/
theorem publish_below (h : tree.get? other = some value) (leaf : ∀ fields, value ≠ .table fields)
    (text : String) (below : Param.segments other <+: Param.segments key)
    (apart : Param.segments other ≠ Param.segments key) : (tree.publish key text).1 = tree := by
  unfold publish
  cases hinsert : tree.insert key (.string text) with
  | error e => rfl
  | ok after =>
    have hset := insert_eq_ok_iff.1 hinsert
    obtain ⟨-, hopen⟩ := Param.Fields.set?_isSome_iff.1 (Option.isSome_of_eq_some hset)
    obtain ⟨back, hback⟩ := below
    have hne : back ≠ [] := by
      rintro rfl
      exact apart ((List.append_nil _).symm.trans hback)
    have hfront := (writable_of_get? h).1
    rw [get?_of_ne_nil hfront] at h
    obtain ⟨fields, rfl⟩ := hopen _ back value hback.symm hfront hne h
    exact absurd rfl (leaf fields)

/-- **A text spares what is no table, unless it is published there or above it.** -/
theorem get?_publish_of_not_prefix (h : tree.get? other = some value)
    (leaf : ∀ fields, value ≠ .table fields) (text : String)
    (beside : ¬ Param.segments key <+: Param.segments other) :
    (tree.publish key text).1.get? other = some value := by
  by_cases hbelow : Param.segments other <+: Param.segments key
  · rw [publish_below h leaf text hbelow fun heq => beside (heq ▸ List.prefix_rfl)]
    exact h
  · rw [tree.get?_publish_of_apart text ⟨beside, hbelow⟩]
    exact h

/-- A text that is published where something is found, or above it, takes its place. -/
theorem get?_publish_of_prefix (h : tree.get? other = some value) (text : String)
    (usable : Param.segments key ≠ []) (above : Param.segments key <+: Param.segments other) :
    ∃ rest, (tree.publish key text).1.get? other = (Value.string text).at? rest := by
  obtain ⟨rest, hrest⟩ := above
  have hother := writable_of_get? h
  -- the way to the key is a part of a way that is open
  have hwritable : tree.Writable key := by
    refine ⟨usable, fun front back inner hpath hfront hback hfind => ?_⟩
    refine hother.2 front (back ++ rest) inner ?_ hfront (List.append_ne_nil_of_left_ne_nil hback _)
      hfind
    rw [← hrest, hpath, List.append_assoc]
  obtain ⟨after, hinsert⟩ := hwritable.insert (.string text)
  refine ⟨rest, ?_⟩
  unfold publish
  rw [hinsert]
  dsimp only
  rw [get?_of_ne_nil hother.1, ← hrest, Param.Fields.at?_set?_self (insert_eq_ok_iff.1 hinsert)]

end ParamTree

/-- An access does not write at a key, above it or below it. -/
def Param.Access.Spares (key : String) : Param.Access → Prop
  | .insert other _ => ParamTree.Apart other key
  | .remove other => ParamTree.Apart other key
  | .publish other _ => ParamTree.Apart other key
  | .get _ => True
  | .has _ => True
  | .text _ => True

instance (key : String) (access : Param.Access) : Decidable (access.Spares key) :=
  match access with
  | .insert other _ => inferInstanceAs (Decidable (ParamTree.Apart other key))
  | .remove other => inferInstanceAs (Decidable (ParamTree.Apart other key))
  | .publish other _ => inferInstanceAs (Decidable (ParamTree.Apart other key))
  | .get _ => isTrue trivial
  | .has _ => isTrue trivial
  | .text _ => isTrue trivial

theorem Param.Access.Spares.get? {key : String} {access : Param.Access} (h : access.Spares key)
    (tree : ParamTree) : (access.perform tree).2.1.get? key = tree.get? key := by
  cases access with
  | insert other value =>
    unfold perform
    cases hinsert : tree.insert other value with
    | error e => simp [hinsert]
    | ok after => simp [hinsert, ParamTree.get?_insert_of_apart hinsert h]
  | remove other => exact tree.get?_erase_of_apart h
  | publish other text => exact tree.get?_publish_of_apart text h
  | get other => rfl
  | has other => rfl
  | text other => rfl

end ControlRig
