import ControlRig.Proofs.Param.Key
import ControlRig.Proofs.Param.Order

/-!
# Writing and removing in place

There is one tree, and whoever writes changes it while following the path: each table that is
missing is opened as soon as the walk comes to it, and stays open whatever happens further on
(`Param.Fields.put`). The tree's own functions do not show that. They hand out a whole new tree or
none, so that a refusal leaves nothing behind by construction. Here the walks are told as they
happen, and **what is left after a walk that is refused is the tree as it was**
(`Param.Fields.put_of_refused`): a walk that has opened a table has nothing but new ones ahead, and
new ones refuse nothing.

The laws are laws of keys. Which keys lead to a key, go on from it or part from it is a matter of
their paths.
-/

namespace ControlRig

theorem Value.at?_append (value : Value) (path rest : List String) :
    value.at? (path ++ rest) = (value.at? path).bind (·.at? rest) := by
  induction path generalizing value with
  | nil =>
    rw [List.nil_append, Value.at?]
    rfl
  | cons name path ih =>
    cases value with
    | table fields =>
      rw [List.cons_append, Value.at?, Value.at?]
      cases Entries.find? name fields with
      | none => rfl
      | some inner => exact ih inner
    | _ => rfl

/-- Only a table leads on. -/
theorem Value.exists_table_of_at? {found value : Value} {path : List String} (h : path ≠ [])
    (leads : found.at? path = some value) : ∃ fields, found = .table fields := by
  obtain ⟨name, rest, rfl⟩ := List.exists_cons_of_ne_nil h
  cases found with
  | table fields => exact ⟨fields, rfl⟩
  | _ => cases leads

namespace Param.Fields

/-! ## Writing -/

/-- Follow a path and put a value at its end: whether there was a way, and the fields afterwards,
with all that was opened before. -/
def put (value : Value) : List String → Fields → Bool × Fields
  | [], fields => (false, fields)
  | [name], fields => (true, Entries.insert name value fields)
  | name :: next :: path, fields =>
    match below name fields with
    | none => (false, fields)
    | some inner =>
      let p := put value (next :: path) inner
      (p.1, Entries.insert name (.table p.2) fields)

theorem put_cons {path : List String} (h : path ≠ []) (value : Value) {name : String}
    {fields inner : Fields} (hbelow : below name fields = some inner) :
    put value (name :: path) fields =
      ((put value path inner).1, Entries.insert name (.table (put value path inner).2) fields) := by
  obtain ⟨next, rest, rfl⟩ := List.exists_cons_of_ne_nil h
  rw [put, hbelow]

theorem put_blocked {path : List String} (h : path ≠ []) (value : Value) {name : String}
    {fields : Fields} (hbelow : below name fields = none) :
    put value (name :: path) fields = (false, fields) := by
  obtain ⟨next, rest, rfl⟩ := List.exists_cons_of_ne_nil h
  rw [put, hbelow]

/-- A walk that comes to its end has put the value there. -/
theorem put_of_set? {value : Value} {path : List String} {fields after : Fields}
    (h : set? value path fields = some after) : put value path fields = (true, after) := by
  induction path generalizing fields after with
  | nil => cases h
  | cons name path ih =>
    by_cases hlast : path = []
    · subst hlast
      cases h
      rfl
    · rw [set?_cons hlast, Option.bind_eq_some_iff] at h
      obtain ⟨inner, hbelow, h⟩ := h
      obtain ⟨inner', hset, rfl⟩ := Option.map_eq_some_iff.1 h
      rw [put_cons hlast value hbelow, ih hset]

/-- New tables refuse nothing. -/
theorem set?_new {value : Value} {path : List String} (h : path ≠ []) :
    set? value path [] ≠ none := by
  refine Option.isSome_iff_ne_none.1 (set?_isSome_iff.2 ⟨h, ?_⟩)
  intro front back found _ hfront _ hfind
  obtain ⟨name, rest, rfl⟩ := List.exists_cons_of_ne_nil hfront
  cases hfind

/-- **A walk that is refused leaves everything as it was.** -/
theorem put_of_refused {value : Value} {path : List String} {fields : Fields}
    (ordered : (Value.table fields).Ordered) (h : set? value path fields = none) :
    put value path fields = (false, fields) := by
  induction path generalizing fields with
  | nil => rfl
  | cons name path ih =>
    by_cases hlast : path = []
    · subst hlast
      cases h
    · cases hbelow : below name fields with
      | none => exact put_blocked hlast value hbelow
      | some inner =>
        rw [set?_cons hlast, hbelow, Option.bind_some, Option.map_eq_none_iff] at h
        have hinner := ih (ordered_below ordered hbelow) h
        -- the walk was refused below a table that was there, for a new one would have let it pass
        have hthere : Entries.find? name fields = some (.table inner) := by
          unfold below at hbelow
          split at hbelow
          · cases hbelow
            exact absurd h (set?_new hlast)
          · cases hbelow
            assumption
          · cases hbelow
        have hincreasing := (Value.ordered_table_iff.1 ordered).1
        rw [put_cons hlast value hbelow, hinner, hincreasing.insert_of_find? hthere]

/-! ## Removing -/

/-- Follow a path and take away what is at its end, if the path leads there. -/
def take : List String → Fields → Option Value × Fields
  | [], fields => (none, fields)
  | [name], fields => (Entries.find? name fields, Entries.erase name fields)
  | name :: next :: path, fields =>
    match Entries.find? name fields with
    | some (.table inner) =>
      let p := take (next :: path) inner
      (p.1, Entries.insert name (.table p.2) fields)
    | _ => (none, fields)

/-- What is taken away is what was found there, and it is erased. -/
theorem take_eq {path : List String} (h : path ≠ []) (fields : Fields) :
    take path fields = ((Value.table fields).at? path, erase path fields) := by
  induction path generalizing fields with
  | nil => exact absurd rfl h
  | cons name path ih =>
    cases path with
    | nil =>
      rw [take, at?_last]
      rfl
    | cons next rest =>
      rw [take, erase, Value.at?]
      cases Entries.find? name fields with
      | none => rfl
      | some found =>
        cases found with
        | table inner =>
          dsimp only
          rw [ih (List.cons_ne_nil _ _)]
        | _ => rfl

/-- Neither at the end of a path that was erased nor below it is anything left. -/
theorem at?_erase_self {path : List String} (h : path ≠ []) (rest : List String)
    (fields : Fields) : (Value.table (erase path fields)).at? (path ++ rest) = none := by
  induction path generalizing fields with
  | nil => exact absurd rfl h
  | cons name path ih =>
    cases path with
    | nil =>
      show (Value.table (Entries.erase name fields)).at? (name :: rest) = none
      rw [Value.at?, Entries.find?_erase_self]
    | cons next path =>
      rw [erase, List.cons_append]
      split
      · rename_i inner hfind
        rw [Value.at?, Entries.find?_insert_self]
        exact ih (List.cons_ne_nil _ _) inner
      · rename_i hno
        rw [Value.at?]
        cases hfind : Entries.find? name fields with
        | none => rfl
        | some found =>
          cases found with
          | table inner => exact absurd hfind (hno inner)
          | _ => rfl

/-- Where nothing is found, erasing changes nothing. -/
theorem erase_of_missing {path : List String} {fields : Fields}
    (ordered : (Value.table fields).Ordered) (missing : (Value.table fields).at? path = none) :
    erase path fields = fields := by
  induction path generalizing fields with
  | nil => rfl
  | cons name path ih =>
    cases path with
    | nil =>
      rw [at?_last] at missing
      exact Entries.erase_of_find? missing
    | cons next path =>
      rw [erase]
      split
      · rename_i inner hfind
        obtain ⟨hincreasing, hinner⟩ := Value.ordered_table_iff.1 ordered
        rw [Value.at?, hfind] at missing
        rw [ih (hinner name _ hfind) missing, hincreasing.insert_of_find? hfind]
      · rfl

end Param.Fields

namespace ParamTree

open Param

variable {tree after : ParamTree} {key front other : String} {value : Value}

/-! ## Trees -/

/-- Write a value at a key: what comes of it, and the tree afterwards, which is there in any case.
-/
def write (tree : ParamTree) (key : String) (value : Value) : Except ParamError Unit × ParamTree :=
  let p := Fields.put value (segments key) tree.root
  (if p.1 then .ok () else .error (.notATable key), ⟨p.2⟩)

/-- Remove what is at a key: what that was, and the tree afterwards. -/
def remove (tree : ParamTree) (key : String) : Option Value × ParamTree :=
  let p := Fields.take (segments key) tree.root
  (p.1, ⟨p.2⟩)

theorem write_of_insert (h : tree.insert key value = .ok after) :
    tree.write key value = (.ok (), after) := by
  rw [write, Fields.put_of_set? (insert_eq_ok_iff.1 h)]
  rfl

theorem write_of_not_writable (ordered : tree.Ordered) (h : ¬ tree.Writable key) (value : Value) :
    tree.insert key value = .error (.notATable key) ∧
      tree.write key value = (.error (.notATable key), tree) := by
  refine ⟨insert_of_not_writable h value, ?_⟩
  rw [write, Fields.put_of_refused ordered (set?_of_not_writable h value)]
  rfl

theorem remove_eq (tree : ParamTree) (key : String) :
    tree.remove key = (tree.get? key, tree.erase key) := by
  by_cases hpath : segments key = []
  · rw [remove, get?, erase, hpath]
    rfl
  · rw [remove, Fields.take_eq hpath, get?_of_ne_nil hpath]
    rfl

/-! ## Keys on the way to others -/

/-- A key leads to another one: its path is the beginning of the other's, and not all of it. -/
def LeadsTo (front key : String) : Prop :=
  segments front ≠ [] ∧ ∃ back, back ≠ [] ∧ segments key = segments front ++ back

/-- **A key can be written at if no key that leads to it is taken by anything but a table.** -/
theorem writable_iff : tree.Writable key ↔ segments key ≠ [] ∧
    ∀ front, LeadsTo front key → ∀ found, tree.get? front = some found →
      ∃ fields, found = .table fields := by
  refine and_congr_right fun _ => ⟨?_, ?_⟩
  · rintro hopen front ⟨hfront, back, hback, hkey⟩ found hfound
    rw [get?_of_ne_nil hfront] at hfound
    exact hopen _ back found hkey hfront hback hfound
  · intro h path back found hkey hpath hback hfound
    have hprefix : path <+: segments key := ⟨back, hkey.symm⟩
    obtain ⟨front, rfl⟩ := exists_key_of_prefix hprefix
    refine h front ⟨hpath, back, hback, hkey⟩ found ?_
    rw [get?_of_ne_nil hpath]
    exact hfound

/-- What leads to a key at which something is found is a table. -/
theorem get?_of_leadsTo (h : tree.get? key = some value) (leads : LeadsTo front key) :
    ∃ fields, tree.get? front = some (.table fields) := by
  obtain ⟨hfront, back, hback, hkey⟩ := leads
  have hpath : segments key ≠ [] := by
    rw [hkey]
    exact List.append_ne_nil_of_left_ne_nil hfront back
  rw [get?_of_ne_nil hpath, hkey, Value.at?_append, Option.bind_eq_some_iff] at h
  obtain ⟨found, hfound, hleads⟩ := h
  obtain ⟨fields, rfl⟩ := Value.exists_table_of_at? hback hleads
  exact ⟨fields, (get?_of_ne_nil hfront).trans hfound⟩

/-- What is found below a key that was written at is what is found in the value. -/
theorem get?_insert_below (h : tree.insert key value = .ok after) {rest : List String}
    (hother : segments other = segments key ++ rest) : after.get? other = value.at? rest := by
  have hset := insert_eq_ok_iff.1 h
  have hkey := (Fields.set?_isSome_iff.1 (Option.isSome_of_eq_some hset)).1
  have hpath : segments other ≠ [] := by
    rw [hother]
    exact List.append_ne_nil_of_left_ne_nil hkey rest
  rw [get?_of_ne_nil hpath, hother, Fields.at?_set?_self hset]

/-! ## The laws -/

/-- What writing a value at a key does. -/
structure Writing (tree : ParamTree) (key : String) (value : Value) : Prop where
  /-- It is what an access does. -/
  performed : (Access.insert key value).perform tree =
    (match (tree.write key value).1 with
      | .ok () => .done
      | .error e => .refused e, (tree.write key value).2, [])
  works_iff : (tree.write key value).1 = .ok () ↔ segments key ≠ [] ∧
    ∀ front, LeadsTo front key → ∀ found, tree.get? front = some found →
      ∃ fields, found = .table fields
  below : (tree.write key value).1 = .ok () → ∀ other rest,
    segments other = segments key ++ rest → (tree.write key value).2.get? other = value.at? rest
  beside : (tree.write key value).1 = .ok () → ∀ other, Apart key other →
    (tree.write key value).2.get? other = tree.get? other
  above : (tree.write key value).1 = .ok () → ∀ front, LeadsTo front key →
    ∃ fields, (tree.write key value).2.get? front = some (.table fields)
  refused : (tree.write key value).1 ≠ .ok () →
    tree.write key value = (.error (.notATable key), tree)
  ordered : value.Ordered → (tree.write key value).2.Ordered

/-- What removing what is at a key does. -/
structure Removing (tree : ParamTree) (key : String) : Prop where
  /-- It is what an access does. -/
  performed : (Access.remove key).perform tree =
    (.value (tree.remove key).1, (tree.remove key).2, [])
  found : (tree.remove key).1 = tree.get? key
  gone : (tree.remove key).2.get? key = none
  gone_below : segments key ≠ [] → ∀ other, segments key <+: segments other →
    (tree.remove key).2.get? other = none
  beside : ∀ other, Apart key other → (tree.remove key).2.get? other = tree.get? other
  missing : tree.get? key = none → (tree.remove key).2 = tree
  ordered : (tree.remove key).2.Ordered

theorem writing (ordered : tree.Ordered) (key : String) (value : Value) :
    tree.Writing key value := by
  by_cases hwritable : tree.Writable key
  · obtain ⟨after, hinsert⟩ := hwritable.insert value
    have hwrite := write_of_insert hinsert
    refine ⟨?_, ?_, fun _ other rest hother => ?_, fun _ other hapart => ?_,
      fun _ front hleads => ?_, fun hno => ?_, fun hvalue => ?_⟩
    · rw [Access.perform, hinsert, hwrite]
    · rw [hwrite]
      exact iff_of_true rfl (writable_iff.1 hwritable)
    · rw [hwrite]
      exact get?_insert_below hinsert hother
    · rw [hwrite]
      exact get?_insert_of_apart hinsert hapart
    · rw [hwrite]
      exact get?_of_leadsTo (get?_insert_self hinsert) hleads
    · rw [hwrite] at hno
      exact absurd rfl hno
    · rw [hwrite]
      exact ordered.insert hvalue hinsert
  · obtain ⟨hinsert, hwrite⟩ := write_of_not_writable ordered hwritable value
    have hno : (tree.write key value).1 ≠ .ok () := by
      rw [hwrite]
      nofun
    refine ⟨?_, ?_, fun hok => absurd hok hno, fun hok => absurd hok hno,
      fun hok => absurd hok hno, fun _ => hwrite, fun _ => ?_⟩
    · rw [Access.perform, hinsert, hwrite]
    · exact iff_of_false hno fun h => hwritable (writable_iff.2 h)
    · rw [hwrite]
      exact ordered

theorem removing (ordered : tree.Ordered) (key : String) : tree.Removing key := by
  have hbelow : segments key ≠ [] → ∀ other, segments key <+: segments other →
      (tree.erase key).get? other = none := by
    rintro hkey other ⟨rest, hother⟩
    have hpath : segments other ≠ [] := by
      rw [← hother]
      exact List.append_ne_nil_of_left_ne_nil hkey rest
    rw [get?_of_ne_nil hpath, ← hother]
    exact Fields.at?_erase_self hkey rest tree.root
  have hremove := tree.remove_eq key
  refine ⟨?_, ?_, ?_, ?_, fun other hapart => ?_, fun hmissing => ?_, ?_⟩
  · rw [Access.perform, hremove]
  · rw [hremove]
  · rw [hremove]
    by_cases hkey : segments key = []
    · exact get?_of_nil hkey
    · exact hbelow hkey key List.prefix_rfl
  · rw [hremove]
    exact hbelow
  · rw [hremove]
    exact tree.get?_erase_of_apart hapart
  · rw [hremove]
    by_cases hkey : segments key = []
    · rw [erase, hkey]
      rfl
    · rw [get?_of_ne_nil hkey] at hmissing
      rw [erase, Fields.erase_of_missing ordered hmissing]
  · rw [hremove]
    exact ordered.erase key

/-- **A tree changes where it is told to, and nowhere else.** Writing works exactly if the key has a
path and no key that leads to it is taken by anything but a table. Then the value is found at the
key, what is in the value below it, tables above it, and every key that parts from it reads as
before; a writer that is refused leaves the whole tree as it was, with no table opened half the way.
Removing hands out what was found at the key and leaves nothing there, and again every key that
parts from it reads as before; where nothing was found nothing changes. The names in the tables of
the tree increase, as they do in every tree that is read from a document, and go on to do so. -/
theorem changes_where_told (tree : ParamTree) (ordered : tree.Ordered) (key : String)
    (value : Value) : tree.Writing key value ∧ tree.Removing key :=
  ⟨writing ordered key value, removing ordered key⟩

/-- The parameters of an arm. -/
def arm : ParamTree :=
  ⟨[("arm", .table [("ip", .string "10.0.0.2"), ("joint_state", .table [("rate", .integer 250)])])]⟩

theorem changes_where_told_arm :
    (arm.write "arm/ip/port" (.integer 1) = (.error (.notATable "arm/ip/port"), arm) ∧
      (arm.remove "arm/ip/port").2 = arm) ∧
    ((arm.write "/arm//motor/" (.table [("top", .integer 9)])).2.get? "arm/motor/top" =
        some (.integer 9) ∧
      (arm.write "/arm//motor/" (.table [("top", .integer 9)])).2.get? "arm/joint_state/rate" =
        some (.integer 250)) ∧
    (arm.remove "arm/joint_state").1 = some (.table [("rate", .integer 250)]) ∧
      (arm.remove "arm/joint_state").2.get? "arm/joint_state/rate" = none := by
  have hordered : arm.Ordered := by
    have hstate : (Value.table [("rate", .integer 250)]).Ordered :=
      Value.ordered_table (List.pairwise_singleton _ _)
        (List.forall_mem_singleton.2 (Value.ordered_of_leaf fun _ => Value.noConfusion))
    have hparts : (Value.table [("ip", .string "10.0.0.2"),
        ("joint_state", .table [("rate", .integer 250)])]).Ordered :=
      Value.ordered_table (by decide)
        (List.forall_mem_cons.2
          ⟨Value.ordered_of_leaf fun _ => Value.noConfusion, List.forall_mem_singleton.2 hstate⟩)
    exact Value.ordered_table (List.pairwise_singleton _ _) (List.forall_mem_singleton.2 hparts)
  obtain ⟨hport, hnoPort⟩ := changes_where_told arm hordered "arm/ip/port" (.integer 1)
  obtain ⟨hmotor, -⟩ :=
    changes_where_told arm hordered "/arm//motor/" (.table [("top", .integer 9)])
  obtain ⟨-, hstate⟩ := changes_where_told arm hordered "arm/joint_state" (.integer 1)
  have hworks : (arm.write "/arm//motor/" (.table [("top", .integer 9)])).1 = .ok () := rfl
  refine ⟨⟨hport.refused fun hok => ?_, hnoPort.missing rfl⟩,
    ⟨hmotor.below hworks "arm/motor/top" ["top"] (by decide), ?_⟩, hstate.found.trans rfl,
    hstate.gone_below (by decide) _ (by decide)⟩
  · obtain ⟨-, hway⟩ := hport.works_iff.1 hok
    obtain ⟨fields, hfields⟩ := hway "arm/ip" ⟨by decide, ["port"], by decide, by decide⟩ _ rfl
    cases hfields
  · exact (hmotor.beside hworks "arm/joint_state/rate" (by decide)).trans rfl

end ParamTree

end ControlRig
