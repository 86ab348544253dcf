import ControlRig.Proofs.Configuration.Rejection
import Mathlib.Data.List.Nodup
import Mathlib.Data.List.Perm.Basic

/-!
# Reading all definitions or none

A parameter value is decoded as a whole before any definition in it is checked. So **a value that is
no list of definitions is reported as such**, whatever is wrong with the definitions that precede
the item that is none. If it is a list, definitions are checked from the first to the last, and the
first that is unacceptable or repeats a name is the reason why nothing is returned
(`Definition.Refused`). Otherwise each definition has its entry, and the map does not depend on the
order of the list.
-/

namespace ControlRig

/-! ## Decoding -/

namespace Decode

variable {α : Type} {decode : Decoder α} {data : List Datum}

theorem items_eq_ok_iff {values : List α} :
    items decode data = .ok values ↔
      List.Forall₂ (fun datum value => decode datum = .ok value) data values := by
  induction data generalizing values with
  | nil =>
    rw [List.forall₂_nil_left_iff]
    exact ⟨fun h => (Except.ok.inj h).symm, fun h => h ▸ rfl⟩
  | cons datum rest ih =>
    rw [List.forall₂_cons_left_iff, items]
    constructor
    · intro h
      cases hdatum : decode datum with
      | error fault =>
        rw [hdatum] at h
        cases h
      | ok value =>
        rw [hdatum] at h
        cases hrest : items decode rest with
        | error fault =>
          rw [hrest] at h
          cases h
        | ok more =>
          rw [hrest] at h
          cases h
          exact ⟨value, more, rfl, ih.1 hrest, rfl⟩
    · rintro ⟨value, more, hvalue, hmore, rfl⟩
      rw [hvalue, ih.2 hmore]
      rfl

/-- Items cannot be decoded if one of them cannot. -/
theorem items_error_iff :
    (∃ fault, items decode data = .error fault) ↔
      ∃ datum ∈ data, ∃ fault, decode datum = .error fault := by
  induction data with
  | nil => simp [items]
  | cons datum rest ih =>
    rw [List.exists_mem_cons_iff, ← ih, items]
    cases decode datum with
    | error fault => exact iff_of_true ⟨fault, rfl⟩ (.inl ⟨fault, rfl⟩)
    | ok value => cases items decode rest <;> simp [Except.map]

end Decode

theorem Value.datumItems_eq_map (items : List Value) : datumItems items = items.map datum := by
  induction items with
  | nil => rfl
  | cons item rest ih => rw [datumItems, List.map_cons, ih]

namespace Definition

open ControlRig.Configuration

variable {value : Value} {definitions before after : List Definition} {d : Definition}
variable {known configurations : SortedMap Configuration} {e : CatalogError}

/-- A value is a list of definitions. -/
def Listed (value : Value) (definitions : List Definition) : Prop :=
  ∃ items, value = .array items ∧
    List.Forall₂ (fun item d => decode .counted item.datum = .ok d) items definitions

/-- A value is no list, or has an item that is no definition. -/
def Undecodable (value : Value) : Prop :=
  ∀ items, value = .array items → ∃ item ∈ items, ∃ fault, decode .counted item.datum = .error fault

theorem sequence_eq_ok_iff :
    Decode.sequence (decode .counted) value.datum = .ok definitions ↔ Listed value definitions := by
  cases value with
  | array items =>
    show Decode.items (decode .counted) (Value.datumItems items) = .ok definitions ↔ _
    rw [Decode.items_eq_ok_iff, Value.datumItems_eq_map, List.forall₂_map_left_iff]
    constructor
    · exact fun h => ⟨items, rfl, h⟩
    · rintro ⟨_, heq, h⟩
      cases heq
      exact h
  | _ => exact iff_of_false nofun fun ⟨_, heq, _⟩ => nomatch heq

theorem sequence_error_iff :
    (∃ fault, Decode.sequence (decode .counted) value.datum = .error fault) ↔
      Undecodable value := by
  cases value with
  | array items =>
    show (∃ fault, Decode.items (decode .counted) (Value.datumItems items) = .error fault) ↔ _
    rw [Decode.items_error_iff, Value.datumItems_eq_map]
    constructor
    · rintro ⟨_, hmem, hfault⟩ _ heq
      cases heq
      obtain ⟨item, hitem, rfl⟩ := List.mem_map.1 hmem
      exact ⟨item, hitem, hfault⟩
    · intro h
      obtain ⟨item, hitem, hfault⟩ := h items rfl
      exact ⟨item.datum, List.mem_map_of_mem hitem, hfault⟩
  | _ => exact iff_of_true ⟨_, rfl⟩ fun _ heq => nomatch heq

theorem readAll_of_listed (h : Listed value definitions) :
    readAll value = checkAll ∅ definitions := by
  rw [readAll, sequence_eq_ok_iff.2 h]

/-! ## Checking -/

/-- Every definition is accepted, and no name comes twice. -/
structure Admissible (definitions : List Definition) : Prop where
  each : ∀ d ∈ definitions, ∃ c, d.configuration = .ok c
  names : (definitions.map (·.name)).Nodup

/-- Why a list is refused: the first of the definitions to be unacceptable or to repeat a name. -/
inductive Refused (definitions : List Definition) : CatalogError → Prop
  | unacceptable {before after : List Definition} {d : Definition} {e : CatalogError} :
      definitions = before ++ d :: after → Admissible before → d.configuration = .error e →
      Refused definitions e
  | repeated {before after : List Definition} {d : Definition} {c : Configuration} :
      definitions = before ++ d :: after → Admissible before → d.configuration = .ok c →
      d.name ∈ before.map (·.name) → Refused definitions (.duplicateConfiguration d.name)

theorem admissible_iff : Admissible definitions ↔ ∃ known, checkAll ∅ definitions = .ok known := by
  rw [exists_checkAll_iff]
  constructor
  · intro h
    exact ⟨⟨fun d hd => exists_configuration_iff.1 (h.each d hd), h.names⟩, fun _ _ => rfl⟩
  · rintro ⟨h, -⟩
    exact ⟨fun d hd => exists_configuration_iff.2 (h.each d hd), h.names⟩

/-- Under a name is what the definition of this name defines, and nothing is under any other. -/
theorem find?_eq_some_iff_of_checkAll (h : checkAll ∅ definitions = .ok configurations)
    {name : String} {c : Configuration} :
    configurations.find? name = some c ↔
      ∃ d ∈ definitions, d.name = name ∧ d.configuration = .ok c := by
  obtain ⟨hsome, hnone⟩ := find?_checkAll h name
  constructor
  · intro hfind
    rcases hsome c hfind with hempty | hdefined
    · cases hempty
    · exact hdefined
  · rintro ⟨d, hd, hname, hc⟩
    cases hfind : configurations.find? name with
    | none => exact absurd hname ((hnone.1 hfind).2 d hd)
    | some found =>
      rcases hsome found hfind with hempty | ⟨d', hd', hname', hc'⟩
      · cases hempty
      · -- both are the definition of this name
        have hnames := (admissible_iff.2 ⟨configurations, h⟩).names
        cases List.inj_on_of_nodup_map hnames hd hd' (hname.trans hname'.symm)
        rw [hc] at hc'
        cases hc'
        rfl

theorem checkAll_append {mid : SortedMap Configuration} (h : checkAll known before = .ok mid)
    (rest : List Definition) : checkAll known (before ++ rest) = checkAll mid rest := by
  induction before generalizing known with
  | nil =>
    cases h
    rfl
  | cons d more ih =>
    rw [checkAll] at h
    rw [List.cons_append, checkAll]
    cases hd : d.configuration with
    | error e =>
      rw [hd] at h
      cases h
    | ok c =>
      rw [hd] at h
      dsimp only at h ⊢
      by_cases hc : known.contains c.name = true
      · rw [if_pos hc] at h
        cases h
      · rw [if_neg hc] at h ⊢
        exact ih h

/-- Up to the definition for which a list is refused, all is well. -/
theorem exists_of_checkAll_error (h : checkAll known definitions = .error e) :
    ∃ before d after mid, definitions = before ++ d :: after ∧ checkAll known before = .ok mid ∧
      (d.configuration = .error e ∨ ∃ c, d.configuration = .ok c ∧ mid.contains c.name = true ∧
        e = .duplicateConfiguration c.name) := by
  induction definitions generalizing known with
  | nil => cases h
  | cons d rest ih =>
    unfold checkAll at h
    cases hd : d.configuration with
    | error e' =>
      rw [hd] at h
      cases h
      exact ⟨[], d, rest, known, rfl, rfl, .inl hd⟩
    | ok c =>
      rw [hd] at h
      dsimp only at h
      by_cases hc : known.contains c.name = true
      · rw [if_pos hc] at h
        cases h
        exact ⟨[], d, rest, known, rfl, rfl, .inr ⟨c, hd, hc, rfl⟩⟩
      · rw [if_neg hc] at h
        obtain ⟨before, d', after, mid, rfl, hmid, hwhy⟩ := ih h
        refine ⟨d :: before, d', after, mid, rfl, ?_, hwhy⟩
        rw [checkAll, hd]
        dsimp only
        rw [if_neg hc, hmid]

theorem contains_iff_mem_names (h : checkAll ∅ definitions = .ok configurations) {name : String} :
    configurations.contains name = true ↔ name ∈ definitions.map (·.name) := by
  rw [SortedMap.contains_iff_mem_keys]
  exact (perm_keys h).mem_iff

theorem checkAll_eq_error_iff : checkAll ∅ definitions = .error e ↔ Refused definitions e := by
  constructor
  · intro h
    obtain ⟨before, d, after, mid, hsplit, hmid, hwhy⟩ := exists_of_checkAll_error h
    have hbefore := admissible_iff.2 ⟨mid, hmid⟩
    rcases hwhy with hd | ⟨c, hd, hc, rfl⟩
    · exact .unacceptable hsplit hbefore hd
    · obtain ⟨hname, -, -⟩ := make_eq_ok_iff.1 hd
      rw [hname] at hc ⊢
      exact .repeated hsplit hbefore hd ((contains_iff_mem_names hmid).1 hc)
  · intro h
    cases h with
    | unacceptable hsplit hbefore hd =>
      obtain ⟨mid, hmid⟩ := admissible_iff.1 hbefore
      rw [hsplit, checkAll_append hmid, checkAll, hd]
    | «repeated» hsplit hbefore hd hname =>
      obtain ⟨mid, hmid⟩ := admissible_iff.1 hbefore
      obtain ⟨hsame, -, -⟩ := make_eq_ok_iff.1 hd
      rw [hsplit, checkAll_append hmid, checkAll, hd]
      dsimp only
      rw [hsame, if_pos ((contains_iff_mem_names hmid).2 hname)]

/-- The order of the definitions does not matter to what becomes of them. -/
theorem checkAll_perm {others : List Definition} (h : checkAll ∅ definitions = .ok configurations)
    (perm : definitions.Perm others) : checkAll ∅ others = .ok configurations := by
  have hfirst := admissible_iff.2 ⟨configurations, h⟩
  have hsecond : Admissible others :=
    ⟨fun d hd => hfirst.each d (perm.mem_iff.2 hd), (perm.map _).nodup_iff.1 hfirst.names⟩
  obtain ⟨found, hfound⟩ := admissible_iff.1 hsecond
  rw [hfound]
  refine congrArg _ (SortedMap.ext_find? fun name => Option.ext fun c => ?_)
  rw [find?_eq_some_iff_of_checkAll hfound, find?_eq_some_iff_of_checkAll h]
  simp only [perm.mem_iff]

/-! ## Both -/

theorem Listed.perm {items others : List Value} (h : Listed (.array items) definitions)
    (perm : items.Perm others) :
    ∃ found, Listed (.array others) found ∧ definitions.Perm found := by
  obtain ⟨_, heq, hall⟩ := h
  cases heq
  obtain ⟨found, hfound, hsame⟩ := List.perm_comp_forall₂ perm.symm hall
  exact ⟨found, ⟨others, rfl, hfound⟩, hsame.symm⟩

/-- A definition is never rejected for how it is written. -/
theorem configuration_ne_parse {fault : Decode.Fault} :
    d.configuration ≠ .error (.parse fault) := by
  intro h
  cases configuration_eq_error_iff.1 h with
  | faulty _ hfaulty =>
    cases hfaulty with
    | controllers _ hfault => cases hfault

theorem exists_listed_of_readAll (h : readAll value = .ok configurations) :
    ∃ definitions, Listed value definitions ∧ checkAll ∅ definitions = .ok configurations := by
  unfold readAll at h
  cases hdecode : Decode.sequence (decode .counted) value.datum with
  | error fault =>
    rw [hdecode] at h
    cases h
  | ok definitions =>
    rw [hdecode] at h
    exact ⟨definitions, sequence_eq_ok_iff.1 hdecode, h⟩

theorem readAll_parse_iff :
    (∃ fault, readAll value = .error (.parse fault)) ↔ Undecodable value := by
  rw [← sequence_error_iff]
  cases hdecode : Decode.sequence (decode .counted) value.datum with
  | error fault =>
    refine iff_of_true ⟨fault, ?_⟩ ⟨fault, rfl⟩
    rw [readAll, hdecode]
  | ok definitions =>
    refine iff_of_false ?_ nofun
    rintro ⟨fault, h⟩
    rw [readAll_of_listed (sequence_eq_ok_iff.1 hdecode), checkAll_eq_error_iff] at h
    -- nothing that is found by checking is a fault of decoding
    cases h with
    | unacceptable _ _ hd => exact configuration_ne_parse hd

/-- **A value is read as a whole or not at all**, and the reason why not is that it is no list of
definitions, or else comes from the first definition that cannot be had next to those before. -/
theorem readAll_exact (value : Value) :
    ((∃ configurations, readAll value = .ok configurations) ↔
      ∃ definitions, Listed value definitions ∧ Admissible definitions) ∧
    (∀ configurations, readAll value = .ok configurations →
      (∀ definitions, Listed value definitions →
        configurations.keys.Perm (definitions.map (·.name)) ∧
        ∀ d ∈ definitions, ∃ c, d.configuration = .ok c ∧
          configurations.find? d.name = some c) ∧
      ∀ items others, value = .array items → items.Perm others →
        readAll (.array others) = .ok configurations) ∧
    ((∃ fault, readAll value = .error (.parse fault)) ↔ Undecodable value) ∧
    ∀ definitions, Listed value definitions →
      ∀ e, readAll value = .error e ↔ Refused definitions e := by
  refine ⟨?_, fun configurations h => ⟨?_, ?_⟩, readAll_parse_iff, ?_⟩
  · constructor
    · rintro ⟨configurations, h⟩
      obtain ⟨definitions, hlisted, hcheck⟩ := exists_listed_of_readAll h
      exact ⟨definitions, hlisted, admissible_iff.2 ⟨configurations, hcheck⟩⟩
    · rintro ⟨definitions, hlisted, hadmissible⟩
      rw [readAll_of_listed hlisted]
      exact admissible_iff.1 hadmissible
  · intro definitions hlisted
    rw [readAll_of_listed hlisted] at h
    refine ⟨perm_keys h, fun d hd => ?_⟩
    obtain ⟨c, hc⟩ := (admissible_iff.2 ⟨configurations, h⟩).each d hd
    exact ⟨c, hc, (find?_eq_some_iff_of_checkAll h).2 ⟨d, hd, rfl, hc⟩⟩
  · rintro items others rfl perm
    obtain ⟨definitions, hlisted, hcheck⟩ := exists_listed_of_readAll h
    obtain ⟨found, hfound, hsame⟩ := hlisted.perm perm
    rw [readAll_of_listed hfound]
    exact checkAll_perm hcheck hsame
  · intro definitions hlisted e
    rw [readAll_of_listed hlisted]
    exact checkAll_eq_error_iff

/-- A definition without components, as it is written. -/
def bare (name : String) : Value := .table [("name", .string name)]

theorem listed_bare (names : List String) :
    Listed (.array (names.map bare)) (names.map fun name => ⟨name, []⟩) := by
  refine ⟨_, rfl, ?_⟩
  induction names with
  | nil => exact .nil
  | cons name rest ih => exact .cons rfl ih

theorem exists_configuration_bare {name : String} (named : Text.trim name ≠ "") :
    ∃ c, configuration ⟨name, []⟩ = .ok c :=
  exists_configuration_iff.2 (wellFormed_iff_acceptable.2 ⟨named, nofun, nofun, .nil⟩)

/-- The third repeats the first, and the second does not, because names are not trimmed. The fourth
is not even looked at; but a number in its place is found before anything else. -/
theorem readAll_exact_handling_twice :
    readAll (.array (["handling", "handling ", "handling", " "].map bare)) =
        .error (.duplicateConfiguration "handling") ∧
      ∃ fault, readAll (.array (["handling", "handling ", "handling"].map bare ++ [.integer 4])) =
        .error (.parse fault) := by
  obtain ⟨-, -, -, hrefuses⟩ :=
    readAll_exact (.array (["handling", "handling ", "handling", " "].map bare))
  obtain ⟨-, -, hundecodable, -⟩ :=
    readAll_exact (.array (["handling", "handling ", "handling"].map bare ++ [.integer 4]))
  constructor
  · have hnamed : Text.trim "handling" ≠ "" ∧ Text.trim "handling " ≠ "" := by decide +kernel
    obtain ⟨c, hc⟩ := exists_configuration_bare hnamed.1
    have hsecond := exists_configuration_bare hnamed.2
    have hbefore : Admissible [⟨"handling", []⟩, ⟨"handling ", []⟩] :=
      ⟨List.forall_mem_cons.2 ⟨⟨c, hc⟩, List.forall_mem_cons.2 ⟨hsecond, nofun⟩⟩,
        by decide +kernel⟩
    exact (hrefuses _ (listed_bare _) _).2 (.repeated rfl hbefore hc (by decide +kernel))
  · refine hundecodable.2 fun items heq => ⟨.integer 4, ?_, _, rfl⟩
    cases heq
    exact List.mem_append_right _ List.mem_cons_self

end Definition

end ControlRig
