import ControlRig.Proofs.Param.InPlace
import Mathlib.Logic.Relation

/-!
# The spellings of a key

A key can be spelled in many ways, because a slash that does not part two names says nothing. Which
texts are spellings of one key is told here without taking a key apart: slashes are put in or left
out at either end and beside other slashes (`Param.Respelled`). **Keys have the same path exactly if
they are spellings of one another** (`Param.respelled_iff`), since every key can be brought into one
form, with a slash after each of its names.

To a tree, a key with a path is one that serves (`ParamTree.Serves`): whatever is put there, with
nothing else in the tree, is found under the spellings of the key and nowhere else. For what lies
above it is larger, what lies below it is smaller, and beside it there is nothing. In a tree that
does hold something else, a text can fail to be published at such a key, and there is one reason
only (`ParamTree.publication`).
-/

namespace ControlRig

namespace Param

/-- A key, and the same key with one more slash that says nothing: at its beginning, at its end, or
beside another slash. -/
inductive ExtraSlash : String → String → Prop
  | leading (key : String) : ExtraSlash key ("/" ++ key)
  | trailing (key : String) : ExtraSlash key (key ++ "/")
  | repeated (front back : String) : ExtraSlash (front ++ "/" ++ back) (front ++ "//" ++ back)

/-- Spellings of one key: slashes that say nothing are put in or left out, any number of times. -/
abbrev Respelled : String → String → Prop := Relation.EqvGen ExtraSlash

theorem append_slashes (front back : String) :
    front ++ "//" ++ back = front ++ "/" ++ ("/" ++ back) := by
  rw [← String.append_assoc, @String.append_assoc front "/" "/"]
  rfl

theorem ExtraSlash.segments_eq {key other : String} (h : ExtraSlash key other) :
    segments key = segments other := by
  cases h with
  | leading => exact (segments_append "" key).symm
  | trailing =>
    have hend := segments_append key ""
    rw [String.append_empty] at hend
    exact (hend.trans (List.append_nil _)).symm
  | repeated front back =>
    rw [append_slashes, segments_append, segments_append]
    exact congrArg _ (segments_append "" back).symm

/-- A key goes on being respelled where it goes on from another one. -/
theorem Respelled.below {key other : String} (h : Respelled key other) (front : String) :
    Respelled (front ++ "/" ++ key) (front ++ "/" ++ other) := by
  induction h with
  | rel key other hextra =>
    refine .rel _ _ ?_
    cases hextra with
    | leading =>
      -- a slash at the beginning comes to stand beside the one in front of it
      rw [← append_slashes]
      exact .repeated front key
    | trailing =>
      rw [← String.append_assoc]
      exact .trailing _
    | repeated before back =>
      rw [← String.append_assoc, ← String.append_assoc, ← String.append_assoc,
        ← String.append_assoc]
      exact .repeated _ back
  | refl key => exact .refl _
  | symm key other _ ih => exact .symm _ _ ih
  | trans key mid other _ _ ih ih' => exact .trans _ _ _ ih ih'

/-- Before the first slash is nothing, and then the slash says nothing, or a name. -/
theorem respelled_spelled_part {part : String} (h : '/' ∉ part.toList) (rest : String)
    (ih : Respelled (spelled (segments rest)) rest) :
    Respelled (spelled (segments (part ++ "/" ++ rest))) (part ++ "/" ++ rest) := by
  rw [segments_append]
  by_cases hempty : part = ""
  · subst hempty
    exact .trans _ _ _ ih (.rel _ _ (.leading rest))
  · rw [segments_of_isName ⟨hempty, h⟩]
    exact ih.below part

theorem respelled_spelled_append (cs : List Char) : ∀ part : String, '/' ∉ part.toList →
    Respelled (spelled (segments (part ++ String.ofList cs))) (part ++ String.ofList cs) := by
  induction cs with
  | nil =>
    intro part hpart
    rw [String.ofList_nil, String.append_empty]
    -- the part itself, once it has got a slash after it
    have hslash := respelled_spelled_part hpart "" (.refl _)
    rw [String.append_empty, ← (ExtraSlash.trailing part).segments_eq] at hslash
    exact .trans _ _ _ hslash (.symm _ _ (.rel _ _ (.trailing part)))
  | cons c cs ih =>
    intro part hpart
    rw [String.ofList_cons, ← String.append_assoc]
    by_cases hc : c = '/'
    · subst hc
      have hrest := ih "" nofun
      rw [String.empty_append] at hrest
      exact respelled_spelled_part hpart _ hrest
    · refine ih _ fun hmem => ?_
      rw [String.toList_append, List.mem_append] at hmem
      rcases hmem with hmem | hmem
      · exact hpart hmem
      · exact hc (List.mem_singleton.1 (by simpa using hmem)).symm

/-- Every key can be brought into the form with a slash after each of its names. -/
theorem respelled_spelled (key : String) : Respelled (spelled (segments key)) key := by
  have hkey := respelled_spelled_append key.toList "" nofun
  rwa [String.empty_append, String.ofList_toList] at hkey

/-- **Keys are spellings of one another exactly if they have the same path.** -/
theorem respelled_iff {key other : String} :
    Respelled key other ↔ segments key = segments other := by
  constructor
  · intro h
    induction h with
    | rel _ _ hextra => exact hextra.segments_eq
    | refl _ => rfl
    | symm _ _ _ ih => exact ih.symm
    | trans _ _ _ _ _ ih ih' => exact ih.trans ih'
  · intro h
    have hkey := respelled_spelled key
    rw [h] at hkey
    exact .trans _ _ _ (.symm _ _ hkey) (respelled_spelled other)

end Param

/-! ## What a key serves for -/

/-- Whatever a path of some length leads to is smaller. -/
theorem Value.Leads.sizeOf_lt {start value : Value} {path : List String}
    (h : start.Leads path value) (hpath : path ≠ []) : sizeOf value < sizeOf start := by
  induction h with
  | here => exact absurd rfl hpath
  | @through fields name rest inner value hfind hleads ih =>
    have hinner : sizeOf inner < sizeOf (Value.table fields) := by
      have hmem := List.sizeOf_lt_of_mem (Entries.mem_of_find? hfind)
      rw [Prod.mk.sizeOf_spec] at hmem
      rw [Value.table.sizeOf_spec]
      omega
    by_cases hrest : rest = []
    · subst hrest
      cases hleads
      exact hinner
    · exact Nat.lt_trans (ih hrest) hinner

theorem Value.eq_nil_of_at?_self {value : Value} {path : List String}
    (h : value.at? path = some value) : path = [] := by
  cases path with
  | nil => rfl
  | cons name rest =>
    have hsmaller := (Value.at?_eq_some_iff.1 h).sizeOf_lt (List.cons_ne_nil name rest)
    exact absurd hsmaller (Nat.lt_irrefl _)

/-- **What has been put among new fields is found at the path where it was put, and nowhere else.**
-/
theorem Param.Fields.at?_set?_new_iff {value : Value} {path other : List String} {after : Fields}
    (h : set? value path [] = some after) (hother : other ≠ []) :
    (Value.table after).at? other = some value ↔ other = path := by
  have hself : (Value.table after).at? path = some value := by
    have hbelow := at?_set?_self h []
    rw [List.append_nil, Value.at?] at hbelow
    exact hbelow
  refine ⟨fun hfound => ?_, fun heq => heq ▸ hself⟩
  by_cases hbelow : path <+: other
  · -- below the path are the parts of the value
    obtain ⟨rest, rfl⟩ := hbelow
    rw [at?_set?_self h] at hfound
    rw [Value.eq_nil_of_at?_self hfound, List.append_nil]
  · by_cases habove : other <+: path
    · -- and above it is what the value is a part of
      obtain ⟨back, rfl⟩ := habove
      rw [Value.at?_append, hfound] at hself
      rw [Value.eq_nil_of_at?_self hself, List.append_nil]
    · rw [at?_set?_of_apart h ⟨hbelow, habove⟩] at hfound
      obtain ⟨name, rest, rfl⟩ := List.exists_cons_of_ne_nil hother
      cases hfound

namespace ParamTree

open Param

variable {tree : ParamTree} {key other : String}

/-- A tree knows a key under all of its spellings. -/
theorem get?_respelled (h : Respelled key other) : tree.get? other = tree.get? key := by
  rw [get?, get?, respelled_iff.1 h]

/-- A key serves: whatever is put there in an empty tree is found, by itself and as the text that it
may be, under every spelling of the key, and it is found under nothing else. -/
def Serves (key : String) : Prop :=
  ∀ value : Value, ∃ tree, empty.insert key value = .ok tree ∧
    ∀ other, (tree.get? other = some value ↔ Respelled key other) ∧
      (Respelled key other → tree.text? other = value.string?)

/-- Nothing lies in the way in an empty tree. -/
theorem writable_empty (hpath : segments key ≠ []) : empty.Writable key := by
  have hnew : (Fields.set? (.table []) (segments key) []).isSome :=
    Option.isSome_iff_ne_none.2 (Fields.set?_new hpath)
  exact Fields.set?_isSome_iff.1 hnew

/-- An empty tree takes something at a key exactly if the key has a path. -/
theorem exists_insert_empty_iff :
    (∃ value tree, empty.insert key value = .ok tree) ↔ segments key ≠ [] := by
  constructor
  · rintro ⟨value, tree, hinsert⟩
    exact (Fields.set?_isSome_iff.1 (Option.isSome_of_eq_some (insert_eq_ok_iff.1 hinsert))).1
  · intro hpath
    exact ⟨.table [], (writable_empty hpath).insert _⟩

/-- **A key serves exactly if it has a path.** -/
theorem serves_iff : Serves key ↔ segments key ≠ [] := by
  constructor
  · intro serves
    obtain ⟨tree, hinsert, -⟩ := serves (.table [])
    exact exists_insert_empty_iff.1 ⟨_, tree, hinsert⟩
  · intro hpath value
    obtain ⟨tree, hinsert⟩ := (writable_empty hpath).insert value
    refine ⟨tree, hinsert, fun other => ⟨?_, fun hrespelled => ?_⟩⟩
    · rw [respelled_iff, eq_comm (a := segments key)]
      by_cases hother : segments other = []
      · rw [get?_of_nil hother, hother]
        exact iff_of_false (Option.some_ne_none value).symm hpath.symm
      · rw [get?_of_ne_nil hother]
        exact Fields.at?_set?_new_iff (insert_eq_ok_iff.1 hinsert) hother
    · rw [text?, get?_respelled hrespelled, get?_insert_self hinsert]
      rfl

/-! ## What can come of publishing -/

/-- Something that is no table lies on the way to a key. -/
def Barred (tree : ParamTree) (key : String) : Prop :=
  ∃ front found, LeadsTo front key ∧ tree.get? front = some found ∧
    ∀ fields, found ≠ .table fields

theorem writable_iff_not_barred (hpath : segments key ≠ []) :
    tree.Writable key ↔ ¬ tree.Barred key := by
  rw [writable_iff]
  constructor
  · rintro ⟨-, hway⟩ ⟨front, found, hleads, hfound, hleaf⟩
    obtain ⟨fields, htable⟩ := hway front hleads found hfound
    exact hleaf fields htable
  · refine fun hfree => ⟨hpath, fun front hleads found hfound => ?_⟩
    cases found with
    | table fields => exact ⟨fields, rfl⟩
    | _ => exact absurd ⟨front, _, hleads, hfound, fun _ => Value.noConfusion⟩ hfree

/-- What comes of a text that is published at a key. -/
structure Publication (tree : ParamTree) (key text : String) : Prop where
  /-- It fails only where something bars the way. -/
  warns_iff : (tree.publish key text).2 ≠ [] ↔ tree.Barred key
  failed : tree.Barred key → tree.publish key text =
    (tree, ["failed to publish status '" ++ key ++ "': " ++ (ParamError.notATable key).message])
  /-- It is read under any spelling of the key, unless it failed. -/
  read_iff : ∀ other, Respelled key other →
    ((tree.publish key text).1.text? other = some text ↔ ¬ tree.Barred key)

/-- What is barred holds nothing. -/
theorem Barred.get? (h : tree.Barred key) : tree.get? key = none := by
  obtain ⟨front, found, hleads, hfound, hleaf⟩ := h
  cases hvalue : tree.get? key with
  | none => rfl
  | some value =>
    obtain ⟨fields, htable⟩ := get?_of_leadsTo hvalue hleads
    exact absurd (Option.some.inj (hfound.symm.trans htable)) (hleaf fields)

/-- **Publishing at a key that has a path fails only where something that is no table lies on the
way.** -/
theorem publication (hpath : segments key ≠ []) (tree : ParamTree) (text : String) :
    tree.Publication key text := by
  by_cases hbarred : tree.Barred key
  · have hrefused := insert_of_not_writable
      (fun h => (writable_iff_not_barred hpath).1 h hbarred) (.string text)
    have hpublish : tree.publish key text = (tree,
        ["failed to publish status '" ++ key ++ "': " ++ (ParamError.notATable key).message]) := by
      rw [publish, hrefused]
    refine ⟨?_, fun _ => hpublish, fun other hrespelled => ?_⟩
    · rw [hpublish]
      exact iff_of_true (List.cons_ne_nil _ _) hbarred
    · rw [hpublish, text?, get?_respelled hrespelled, hbarred.get?]
      exact iff_of_false nofun fun hfree => hfree hbarred
  · have hwritable := (writable_iff_not_barred hpath).2 hbarred
    obtain ⟨after, hinsert⟩ := hwritable.insert (.string text)
    refine ⟨?_, fun h => absurd h hbarred, fun other hrespelled => ?_⟩
    · rw [publish, hinsert]
      exact iff_of_false (fun h => h rfl) hbarred
    · rw [text?, get?_respelled hrespelled]
      exact iff_of_true (hwritable.publish text).1 hbarred

end ParamTree

end ControlRig
