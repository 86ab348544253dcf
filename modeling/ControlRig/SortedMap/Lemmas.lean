import ControlRig.SortedMap.Basic

/-!
# What a sorted map is determined by

`SortedMap.ext_find?`: two maps that answer every look-up alike are equal. This is what the key
order in the type buys: a statement about the content of a map is a statement about the map. The
rest relates the entries, the keys and the look-ups.
-/

namespace ControlRig

namespace Entries

variable {α : Type}

/-- A look-up finds only entries that are there. -/
theorem mem_of_find? {key : String} {value : α} {entries : List (String × α)}
    (h : find? key entries = some value) : (key, value) ∈ entries := by
  induction entries with
  | nil => simp at h
  | cons hd rest ih => grind [find?]

/-- In an increasing list each entry is the one its key finds. -/
theorem Increasing.find?_of_mem {entries : List (String × α)} (h : Increasing entries)
    {key : String} {value : α} (hm : (key, value) ∈ entries) : find? key entries = some value := by
  induction entries with
  | nil => simp at hm
  | cons hd rest ih =>
    have hrest : Increasing rest := List.Pairwise.of_cons h
    have hhead : ∀ e ∈ rest, hd.1 < e.1 := fun e he => (List.pairwise_cons.1 h).1 e he
    rcases List.mem_cons.1 hm with rfl | hm'
    · simp [find?]
    · have hlt : hd.1 < key := hhead _ hm'
      have hne : hd.1 ≠ key := by grind [String.lt_irrefl]
      have hstep : find? key (hd :: rest) = find? key rest := by
        obtain ⟨k, v⟩ := hd
        simpa [find?] using fun he => absurd he hne
      rw [hstep]
      exact ih hrest hm'

/-- In an increasing list, finding and holding an entry are the same. -/
theorem Increasing.find?_eq_some_iff {entries : List (String × α)} (h : Increasing entries)
    {key : String} {value : α} : find? key entries = some value ↔ (key, value) ∈ entries :=
  ⟨mem_of_find?, h.find?_of_mem⟩

/-- A key is found exactly when it is among the keys. -/
theorem find?_isSome_iff {key : String} {entries : List (String × α)} :
    (find? key entries).isSome ↔ key ∈ keys entries := by
  induction entries with
  | nil => simp [keys]
  | cons hd rest ih => grind [find?, keys]

/-- A key below every key of the list is not found. -/
theorem find?_eq_none_of_lt {key : String} {entries : List (String × α)}
    (h : ∀ e ∈ entries, key < e.1) : find? key entries = none := by
  induction entries with
  | nil => rfl
  | cons hd rest ih =>
    have hlt : key < hd.1 := h hd (List.mem_cons_self ..)
    have hne : hd.1 ≠ key := by grind [String.lt_irrefl]
    have hrest := ih (fun e he => h e (List.mem_cons_of_mem _ he))
    obtain ⟨k, v⟩ := hd
    simpa [find?_cons, hne] using hrest

/-- Increasing lists with the same look-ups are the same list. -/
theorem Increasing.ext {a b : List (String × α)} (ha : Increasing a) (hb : Increasing b)
    (h : ∀ key, find? key a = find? key b) : a = b := by
  induction a generalizing b with
  | nil =>
    cases b with
    | nil => rfl
    | cons e rest => exact absurd (h e.1) (by simp [find?_cons])
  | cons x xs ih =>
    cases b with
    | nil => exact absurd (h x.1) (by simp [find?_cons])
    | cons y ys =>
      obtain ⟨k, v⟩ := x
      obtain ⟨l, w⟩ := y
      have hxs : ∀ e ∈ xs, k < e.1 := fun e he => (List.pairwise_cons.1 ha).1 e he
      have hys : ∀ e ∈ ys, l < e.1 := fun e he => (List.pairwise_cons.1 hb).1 e he
      have hkl : k = l := by
        rcases Std.lt_trichotomy k l with hlt | heq | hlt
        · have hnone : find? k ((l, w) :: ys) = none := find?_eq_none_of_lt fun e he => by
            rcases List.mem_cons.1 he with rfl | he
            · exact hlt
            · exact String.lt_trans hlt (hys e he)
          exact absurd (h k) (by simp [hnone, find?_cons])
        · exact heq
        · have hnone : find? l ((k, v) :: xs) = none := find?_eq_none_of_lt fun e he => by
            rcases List.mem_cons.1 he with rfl | he
            · exact hlt
            · exact String.lt_trans hlt (hxs e he)
          exact absurd (h l) (by simp [hnone, find?_cons])
      subst hkl
      have hvw : v = w := by simpa [find?_cons] using h k
      subst hvw
      congr 1
      refine ih (List.Pairwise.of_cons ha) (List.Pairwise.of_cons hb) fun key => ?_
      by_cases hk : k = key
      · subst hk
        rw [find?_eq_none_of_lt hxs, find?_eq_none_of_lt hys]
      · simpa [find?_cons, hk] using h key

end Entries

namespace SortedMap

variable {α β : Type}

/-- Maps that answer every look-up alike are equal. -/
theorem ext_find? {a b : SortedMap α} (h : ∀ key, a.find? key = b.find? key) : a = b := by
  obtain ⟨as, ha⟩ := a
  obtain ⟨bs, hb⟩ := b
  have hab : as = bs := Entries.Increasing.ext ha hb h
  subst hab
  rfl

/-- Putting in what is there changes nothing. -/
theorem insert_of_find? {m : SortedMap α} {key : String} {value : α}
    (h : m.find? key = some value) : m.insert key value = m := by
  apply ext_find?
  intro other
  by_cases hother : key = other
  · subst hother
    rw [find?_insert_self, h]
  · exact find?_insert_of_ne m hother value

theorem find?_eq_some_iff {m : SortedMap α} {key : String} {value : α} :
    m.find? key = some value ↔ (key, value) ∈ m.entries :=
  m.increasing.find?_eq_some_iff

/-- A map contains a key exactly when it lists it. -/
theorem contains_iff_mem_keys {m : SortedMap α} {key : String} :
    m.contains key = true ↔ key ∈ m.keys :=
  Entries.find?_isSome_iff

/-- What stands before an entry is what has a smaller key. -/
theorem mem_before_iff {m : SortedMap α} {before after : List (String × α)} {key : String}
    {value : α} (h : m.entries = before ++ (key, value) :: after) {other : String} {v : α} :
    (other, v) ∈ before ↔ m.find? other = some v ∧ other < key := by
  have hincreasing : Entries.Increasing (before ++ (key, value) :: after) := h ▸ m.increasing
  obtain ⟨-, hfrom, hcross⟩ := List.pairwise_append.1 hincreasing
  rw [find?_eq_some_iff, h, List.mem_append, List.mem_cons]
  constructor
  · intro hb
    exact ⟨.inl hb, hcross _ hb _ List.mem_cons_self⟩
  · rintro ⟨hb | heq | ha, hlt⟩
    · exact hb
    · cases heq
      exact absurd hlt (String.lt_irrefl _)
    · exact absurd hlt (String.lt_asymm ((List.pairwise_cons.1 hfrom).1 _ ha))

/-- The first entry with some property is the one with the smallest key. -/
theorem findSome?_entries_iff {m : SortedMap α} {f : String × α → Option β} {b : β} :
    m.entries.findSome? f = some b ↔
      ∃ key value, m.find? key = some value ∧ f (key, value) = some b ∧
        ∀ other v, m.find? other = some v → other < key → f (other, v) = none := by
  rw [List.findSome?_eq_some_iff]
  constructor
  · rintro ⟨before, ⟨key, value⟩, after, hentries, hf, hbefore⟩
    have hmem : (key, value) ∈ m.entries := by
      rw [hentries]
      exact List.mem_append_right _ List.mem_cons_self
    refine ⟨key, value, find?_eq_some_iff.2 hmem, hf, fun other v hother hlt => ?_⟩
    exact hbefore _ ((mem_before_iff hentries).2 ⟨hother, hlt⟩)
  · rintro ⟨key, value, hfind, hf, hsmaller⟩
    obtain ⟨before, after, hentries⟩ := List.append_of_mem (find?_eq_some_iff.1 hfind)
    refine ⟨before, (key, value), after, hentries, hf, fun ⟨other, v⟩ hb => ?_⟩
    obtain ⟨hother, hlt⟩ := (mem_before_iff hentries).1 hb
    exact hsmaller other v hother hlt

/-- The keys increase strictly. -/
theorem keys_increasing (m : SortedMap α) : m.keys.Pairwise (· < ·) :=
  List.pairwise_map.2 m.increasing

/-- Changing the values commutes with looking up. -/
@[simp] theorem find?_mapValues (f : String → α → β) (m : SortedMap α) (key : String) :
    (m.mapValues f).find? key = (m.find? key).map (f key) := by
  obtain ⟨entries, h⟩ := m
  show Entries.find? key (entries.map (fun e => (e.1, f e.1 e.2)))
    = (Entries.find? key entries).map (f key)
  clear h
  induction entries with
  | nil => rfl
  | cons e rest ih =>
    obtain ⟨k, v⟩ := e
    by_cases hk : k = key
    · subst hk
      simp [Entries.find?_cons]
    · simpa [Entries.find?_cons, hk] using ih

theorem find?_modify_self (m : SortedMap α) (key : String) (f : α → α) :
    (m.modify key f).find? key = (m.find? key).map f := by
  simp [modify]

theorem find?_modify_of_ne (m : SortedMap α) {key other : String} (h : key ≠ other) (f : α → α) :
    (m.modify key f).find? other = m.find? other := by
  simp [modify, h.symm]

@[simp] theorem keys_modify (m : SortedMap α) (key : String) (f : α → α) :
    (m.modify key f).keys = m.keys :=
  keys_mapValues _ m

end SortedMap

end ControlRig
