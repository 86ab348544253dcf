import ControlRig.Param.Key

/-!
# Keys and their paths

A key is one of many spellings of its path. What a key says is said by its names alone, and **a
slash between two keys puts their paths one after the other** (`segments_append`), however many
slashes there are already. A path has a key exactly if all of it are names (`IsName`), so a law
about the keys on the way to another one is a law about the beginnings of its path
(`exists_key_of_prefix`).
-/

namespace ControlRig.Param

theorem splitAtSlashes_cons_of_ne {c : Char} (h : c ≠ '/') (cs : List Char) :
    ∃ part parts, splitAtSlashes cs = part :: parts ∧
      splitAtSlashes (c :: cs) = (c :: part) :: parts := by
  cases hsplit : splitAtSlashes cs with
  | nil =>
    -- there is always a part, if only an empty one
    cases cs with
    | nil => cases hsplit
    | cons d ds =>
      unfold splitAtSlashes at hsplit
      split at hsplit
      · cases hsplit
      · split at hsplit <;> cases hsplit
  | cons part parts =>
    refine ⟨part, parts, rfl, ?_⟩
    rw [splitAtSlashes, if_neg h, hsplit]

/-- A slash ends the last part before it, and another one begins. -/
theorem splitAtSlashes_append (cs ds : List Char) :
    splitAtSlashes (cs ++ '/' :: ds) = splitAtSlashes cs ++ splitAtSlashes ds := by
  induction cs with
  | nil => rfl
  | cons c cs ih =>
    by_cases hc : c = '/'
    · rw [List.cons_append, splitAtSlashes, splitAtSlashes, if_pos hc, if_pos hc, ih]
      rfl
    · obtain ⟨part, parts, hsplit, hcons⟩ := splitAtSlashes_cons_of_ne hc cs
      rw [hcons, List.cons_append, splitAtSlashes, if_neg hc, ih, hsplit]
      rfl

/-- **The path of two keys with a slash between them is that of the one and then that of the
other.**
-/
theorem segments_append (key rest : String) :
    segments (key ++ "/" ++ rest) = segments key ++ segments rest := by
  have htext : (key ++ "/" ++ rest).toList = key.toList ++ '/' :: rest.toList := by
    rw [String.toList_append, String.toList_append, List.append_assoc]
    rfl
  rw [segments, htext, splitAtSlashes_append, List.filter_append, List.map_append]
  rfl

/-- A text falls into empty parts alone exactly if there are only slashes in it. -/
theorem splitAtSlashes_empty_iff {cs : List Char} :
    (∀ part ∈ splitAtSlashes cs, part = []) ↔ ∀ c ∈ cs, c = '/' := by
  induction cs with
  | nil => exact iff_of_true (fun _ hpart => List.mem_singleton.1 hpart) nofun
  | cons c cs ih =>
    by_cases hc : c = '/'
    · rw [splitAtSlashes, if_pos hc, List.forall_mem_cons, List.forall_mem_cons, ih]
      exact and_congr_left fun _ => iff_of_true rfl hc
    · -- the first part holds a character, so it is not empty
      obtain ⟨part, parts, -, hcons⟩ := splitAtSlashes_cons_of_ne hc cs
      rw [hcons, List.forall_mem_cons, List.forall_mem_cons]
      exact iff_of_false (fun h => List.cons_ne_nil _ _ h.1) fun h => hc h.1

/-- A key has no path exactly if there are only slashes in it. -/
theorem segments_eq_nil_iff {key : String} : segments key = [] ↔ ∀ c ∈ key.toList, c = '/' := by
  rw [segments, List.map_eq_nil_iff, List.filter_eq_nil_iff, ← splitAtSlashes_empty_iff]
  simp only [Bool.not_eq_true', Bool.not_eq_false, List.isEmpty_iff]

/-! ## Names -/

/-- What can stand between two slashes: some characters, and no slash among them. -/
def IsName (name : String) : Prop := name ≠ "" ∧ '/' ∉ name.toList

instance (name : String) : Decidable (IsName name) := inferInstanceAs (Decidable (_ ∧ _))

theorem splitAtSlashes_of_not_mem {cs : List Char} (h : '/' ∉ cs) : splitAtSlashes cs = [cs] := by
  induction cs with
  | nil => rfl
  | cons c cs ih =>
    have hc : c ≠ '/' := fun he => h (he ▸ List.mem_cons_self)
    rw [splitAtSlashes, if_neg hc, ih fun hmem => h (List.mem_cons_of_mem _ hmem)]

/-- A name is its own path. -/
theorem segments_of_isName {name : String} (h : IsName name) : segments name = [name] := by
  have hsome : name.toList ≠ [] := fun hnil => h.1 (String.toList_eq_nil_iff.1 hnil)
  have hkept : [name.toList].filter (fun part => !part.isEmpty) = [name.toList] := by
    refine List.filter_cons_of_pos ?_
    rw [Bool.not_eq_true', List.isEmpty_eq_false_iff]
    exact hsome
  rw [segments, splitAtSlashes_of_not_mem h.2, hkept, List.map_singleton, String.ofList_toList]

theorem not_mem_of_mem_splitAtSlashes {cs part : List Char} (h : part ∈ splitAtSlashes cs) :
    '/' ∉ part := by
  induction cs generalizing part with
  | nil =>
    rw [splitAtSlashes, List.mem_singleton] at h
    subst h
    exact List.not_mem_nil
  | cons c cs ih =>
    by_cases hc : c = '/'
    · rw [splitAtSlashes, if_pos hc] at h
      rcases List.mem_cons.1 h with rfl | h
      · exact List.not_mem_nil
      · exact ih h
    · obtain ⟨first, parts, hsplit, hcons⟩ := splitAtSlashes_cons_of_ne hc cs
      rw [hcons] at h
      rw [hsplit] at ih
      rcases List.mem_cons.1 h with rfl | h
      · intro hmem
        rcases List.mem_cons.1 hmem with he | hmem
        · exact hc he.symm
        · exact ih List.mem_cons_self hmem
      · exact ih (List.mem_cons_of_mem _ h)

/-- A path is made of names. -/
theorem isName_of_mem_segments {key name : String} (h : name ∈ segments key) : IsName name := by
  obtain ⟨part, hpart, rfl⟩ := List.mem_map.1 h
  obtain ⟨hmem, hsome⟩ := List.mem_filter.1 hpart
  refine ⟨fun hempty => ?_, ?_⟩
  · have hnil : part = [] := by
      rw [← String.toList_ofList (l := part), hempty]
      rfl
    rw [hnil] at hsome
    cases hsome
  · rw [String.toList_ofList]
    exact not_mem_of_mem_splitAtSlashes hmem

/-- The key of a path with a slash after each of its names. -/
def spelled : List String → String
  | [] => ""
  | name :: path => name ++ "/" ++ spelled path

/-- Every path that is made of names has a key. -/
theorem segments_spelled {path : List String} (h : ∀ name ∈ path, IsName name) :
    segments (spelled path) = path := by
  induction path with
  | nil => rfl
  | cons name path ih =>
    obtain ⟨hname, hpath⟩ := List.forall_mem_cons.1 h
    rw [spelled, segments_append, segments_of_isName hname, ih hpath]
    rfl

/-- The beginnings of the path of a key have keys of their own. -/
theorem exists_key_of_prefix {front : List String} {key : String} (h : front <+: segments key) :
    ∃ other, segments other = front :=
  ⟨spelled front, segments_spelled fun _ hname => isName_of_mem_segments (h.subset hname)⟩

end ControlRig.Param
