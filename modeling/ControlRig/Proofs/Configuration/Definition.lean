import ControlRig.Configuration.Definition

/-!
# What definitions define

A definition is read by going through its components once, and a list of them by going through the
list once. Here is what comes of it, said without going through anything: **the controllers of a
resource are those that its components name, in the order of the components** (`find?_grouped`), a
definition is accepted if it is well formed (`exists_configuration_iff`), and a list of them if all
of them are and no name comes twice (`exists_checkAll_iff`). What is found under a name is then what
the definition of that name defines (`find?_checkAll`).

Well-formedness is a matter of the definition alone, so that it can be told before anything is read.
-/

namespace ControlRig

namespace Component

/-- The controller of a component on a resource, if it is for that resource and has one. -/
def controllerOn (resource : String) (c : Component) : Option Controller :=
  if Text.trim c.hardwareInterface = resource then
    c.controller.map fun id =>
      ⟨Text.trim id, resource ++ "/" ++ Text.trim id, c.description, c.runtimeCheck⟩
  else none

end Component

namespace Definition

/-- The controllers that are declared for a resource, in the order of their declaration. -/
def declared (d : Definition) (resource : String) : List Controller :=
  d.components.filterMap (Component.controllerOn resource)

/-- Some component is for the resource. -/
def Needs (d : Definition) (resource : String) : Prop :=
  ∃ c ∈ d.components, Text.trim c.hardwareInterface = resource

instance (d : Definition) (resource : String) : Decidable (d.Needs resource) :=
  inferInstanceAs (Decidable (∃ c ∈ d.components, Text.trim c.hardwareInterface = resource))

/-- There is nothing wrong with a definition. -/
structure WellFormed (d : Definition) : Prop where
  named : Text.isAllBlank d.name = false
  resources : ∀ c ∈ d.components, Text.trim c.hardwareInterface ≠ ""
  controllers : ∀ resource, Configuration.ControllersWellFormed (d.declared resource)

/-! ## One definition -/

theorem find?_addComponent (components : SortedMap (List Controller)) (c : Component)
    (resource : String) :
    (addComponent components c).find? resource =
      if Text.trim c.hardwareInterface = resource then
        some ((components.find? resource).getD [] ++ (c.controllerOn resource).toList)
      else components.find? resource := by
  unfold addComponent Component.controllerOn
  by_cases hresource : Text.trim c.hardwareInterface = resource
  · subst hresource
    cases c.controller with
    | none => simp
    | some id => simp
  · rw [if_neg hresource]
    cases c.controller with
    | none => exact SortedMap.find?_insert_of_ne _ hresource _
    | some id => exact SortedMap.find?_insert_of_ne _ hresource _

/-- The components so far have left something, and the rest is added at its end. -/
theorem find?_foldl_addComponent (more : List Component) (components : SortedMap (List Controller))
    (resource : String) :
    (more.foldl addComponent components).find? resource =
      if ∃ c ∈ more, Text.trim c.hardwareInterface = resource then
        some ((components.find? resource).getD [] ++
          more.filterMap (Component.controllerOn resource))
      else components.find? resource := by
  induction more generalizing components with
  | nil => simp
  | cons c rest ih =>
    rw [List.foldl_cons, ih, find?_addComponent]
    by_cases hc : Text.trim c.hardwareInterface = resource
    · have hcons : ∃ other ∈ c :: rest, Text.trim other.hardwareInterface = resource :=
        ⟨c, List.mem_cons_self, hc⟩
      rw [if_pos hc, if_pos hcons, List.filterMap_cons]
      by_cases hrest : ∃ other ∈ rest, Text.trim other.hardwareInterface = resource
      · rw [if_pos hrest]
        cases c.controllerOn resource <;> simp
      · -- nothing in the rest is for this resource, so it adds nothing
        have hnone : rest.filterMap (Component.controllerOn resource) = [] := by
          refine List.filterMap_eq_nil_iff.2 fun other ho => ?_
          rw [Component.controllerOn, if_neg fun h => hrest ⟨other, ho, h⟩]
        rw [if_neg hrest, hnone]
        cases c.controllerOn resource <;> rfl
    · have hon : c.controllerOn resource = none := by rw [Component.controllerOn, if_neg hc]
      simp [hc, hon]

theorem find?_grouped (d : Definition) (resource : String) :
    d.grouped.find? resource =
      if d.Needs resource then some (d.declared resource) else none := by
  unfold grouped
  rw [find?_foldl_addComponent]
  rfl

theorem declared_of_not_needs {d : Definition} {resource : String} (h : ¬ d.Needs resource) :
    d.declared resource = [] := by
  refine List.filterMap_eq_nil_iff.2 fun c hc => ?_
  rw [Component.controllerOn, if_neg fun hresource => h ⟨c, hc, hresource⟩]

theorem wellFormed_grouped_iff {d : Definition} :
    Configuration.WellFormed d.name d.grouped ↔ d.WellFormed := by
  constructor
  · rintro ⟨hname, hall⟩
    have hneeded : ∀ resource, d.Needs resource →
        resource ≠ "" ∧ Configuration.ControllersWellFormed (d.declared resource) := by
      intro resource hneeds
      have hfind := d.find?_grouped resource
      rw [if_pos hneeds] at hfind
      exact hall (resource, d.declared resource) (SortedMap.find?_eq_some_iff.1 hfind)
    refine ⟨hname, fun c hc => (hneeded _ ⟨c, hc, rfl⟩).1, fun resource => ?_⟩
    by_cases hneeds : d.Needs resource
    · exact (hneeded resource hneeds).2
    · rw [declared_of_not_needs hneeds]
      exact ⟨nofun, List.nodup_nil⟩
  · intro h
    refine ⟨h.named, fun e he => ?_⟩
    have hfind := SortedMap.find?_eq_some_iff.2 he
    rw [find?_grouped] at hfind
    split at hfind
    · rename_i hneeds
      obtain ⟨c, hc, hresource⟩ := hneeds
      rw [← Option.some.inj hfind]
      exact ⟨hresource ▸ h.resources c hc, h.controllers e.1⟩
    · cases hfind

theorem exists_configuration_iff {d : Definition} :
    (∃ c, d.configuration = .ok c) ↔ d.WellFormed := by
  unfold configuration
  rw [← wellFormed_grouped_iff]
  constructor
  · rintro ⟨c, hc⟩
    obtain ⟨hname, -, hcomponents⟩ := Configuration.make_eq_ok_iff.1 hc
    rw [← hname, ← hcomponents]
    exact c.wellFormed
  · intro h
    exact ⟨⟨d.name, .idle, d.grouped, h⟩, Configuration.make_eq_ok_iff.2 ⟨rfl, rfl, rfl⟩⟩

/-- A configuration is what a definition defines, whatever its tag. -/
structure Defines (d : Definition) (c : Configuration) : Prop where
  name : c.name = d.name
  increasing : c.resources.names.Pairwise (· < ·)
  resources : ∀ resource, resource ∈ c.resources ↔ d.Needs resource
  controllers : ∀ resource, c.controllers resource = d.declared resource

theorem defines_of_configuration {d : Definition} {c : Configuration}
    (h : d.configuration = .ok c) (state : ConfigurationState) : d.Defines (c.withState state) := by
  obtain ⟨hname, -, hcomponents⟩ := Configuration.make_eq_ok_iff.1 h
  refine ⟨hname, c.resources.increasing, fun resource => ?_, fun resource => ?_⟩
  · show resource ∈ c.components.keySet ↔ _
    rw [hcomponents, SortedMap.mem_keySet, ← SortedMap.contains_iff_mem_keys, SortedMap.contains,
      find?_grouped]
    split <;> simp_all
  · show (c.components.find? resource).getD [] = _
    rw [hcomponents, find?_grouped]
    split
    · rfl
    · rename_i hneeds
      rw [declared_of_not_needs hneeds]
      rfl

/-! ## A list of definitions -/

/-- All of them are well formed, and no name comes twice. -/
structure AllWellFormed (definitions : List Definition) : Prop where
  each : ∀ d ∈ definitions, d.WellFormed
  names : (definitions.map (·.name)).Nodup

theorem exists_checkAll_iff {definitions : List Definition} {known : SortedMap Configuration} :
    (∃ configurations, checkAll known definitions = .ok configurations) ↔
      AllWellFormed definitions ∧ ∀ d ∈ definitions, known.find? d.name = none := by
  induction definitions generalizing known with
  | nil => exact iff_of_true ⟨known, rfl⟩ ⟨⟨nofun, List.nodup_nil⟩, nofun⟩
  | cons d rest ih =>
    unfold checkAll
    cases hd : d.configuration with
    | error e =>
      refine iff_of_false nofun fun h => ?_
      obtain ⟨c, hc⟩ := exists_configuration_iff.2 (h.1.each d List.mem_cons_self)
      rw [hd] at hc
      cases hc
    | ok c =>
      have hname : c.name = d.name := (Configuration.make_eq_ok_iff.1 hd).1
      have hsound : d.WellFormed := exists_configuration_iff.1 ⟨c, hd⟩
      dsimp only
      by_cases hknown : known.contains c.name = true
      · rw [if_pos hknown]
        refine iff_of_false nofun fun h => ?_
        have hfind := h.2 d List.mem_cons_self
        rw [SortedMap.contains, hname, hfind] at hknown
        cases hknown
      · have hfind : known.find? d.name = none := by
          rw [SortedMap.contains, hname] at hknown
          simpa using hknown
        -- the rest has to stay clear of this name as well
        have hclear : (∀ other ∈ rest, (known.insert c.name c).find? other.name = none) ↔
            d.name ∉ rest.map (·.name) ∧ ∀ other ∈ rest, known.find? other.name = none := by
          rw [hname, List.mem_map]
          constructor
          · intro h
            have hne : ∀ other ∈ rest, d.name ≠ other.name := by
              intro other ho heq
              have hother := h other ho
              rw [heq, SortedMap.find?_insert_self] at hother
              cases hother
            refine ⟨fun ⟨other, ho, heq⟩ => hne other ho heq.symm, fun other ho => ?_⟩
            rw [← SortedMap.find?_insert_of_ne known (hne other ho) c]
            exact h other ho
          · rintro ⟨hnot, hrest⟩ other ho
            rw [SortedMap.find?_insert_of_ne known (fun heq => hnot ⟨other, ho, heq.symm⟩) c]
            exact hrest other ho
        rw [if_neg hknown, ih, hclear]
        constructor
        · rintro ⟨⟨heach, hnodup⟩, hnot, hrest⟩
          exact ⟨⟨List.forall_mem_cons.2 ⟨hsound, heach⟩, List.nodup_cons.2 ⟨hnot, hnodup⟩⟩,
            List.forall_mem_cons.2 ⟨hfind, hrest⟩⟩
        · rintro ⟨⟨heach, hnodup⟩, hall⟩
          obtain ⟨hnot, hnodup⟩ := List.nodup_cons.1 hnodup
          exact ⟨⟨(List.forall_mem_cons.1 heach).2, hnodup⟩, hnot, (List.forall_mem_cons.1 hall).2⟩

/-- What is found was known before, or is what a definition of that name defines. -/
theorem find?_checkAll {definitions : List Definition}
    {known configurations : SortedMap Configuration}
    (h : checkAll known definitions = .ok configurations) (name : String) :
    (∀ c, configurations.find? name = some c →
      known.find? name = some c ∨ ∃ d ∈ definitions, d.name = name ∧ d.configuration = .ok c) ∧
    (configurations.find? name = none ↔
      known.find? name = none ∧ ∀ d ∈ definitions, d.name ≠ name) := by
  induction definitions generalizing known with
  | nil =>
    cases h
    exact ⟨fun c hc => .inl hc, by simp⟩
  | cons d rest ih =>
    unfold checkAll at h
    cases hd : d.configuration with
    | error e =>
      rw [hd] at h
      cases h
    | ok c =>
      have hname : c.name = d.name := (Configuration.make_eq_ok_iff.1 hd).1
      rw [hd] at h
      dsimp only at h
      split at h
      · cases h
      · obtain ⟨hsome, hnone⟩ := ih h
        rw [hname] at hsome hnone
        by_cases heq : d.name = name
        · subst heq
          rw [SortedMap.find?_insert_self] at hsome hnone
          refine ⟨fun other hother => ?_, iff_of_false (fun hn => nomatch (hnone.1 hn).1)
            fun hn => hn.2 d List.mem_cons_self rfl⟩
          rcases hsome other hother with hsame | ⟨found, hmem, hfound⟩
          · cases hsame
            exact .inr ⟨d, List.mem_cons_self, rfl, hd⟩
          · exact .inr ⟨found, List.mem_cons_of_mem _ hmem, hfound⟩
        · rw [SortedMap.find?_insert_of_ne known heq c] at hsome hnone
          refine ⟨fun other hother => ?_, ?_⟩
          · rcases hsome other hother with hsame | ⟨found, hmem, hfound⟩
            · exact .inl hsame
            · exact .inr ⟨found, List.mem_cons_of_mem _ hmem, hfound⟩
          · rw [hnone, List.forall_mem_cons]
            exact ⟨fun ⟨hk, hr⟩ => ⟨hk, heq, hr⟩, fun ⟨hk, _, hr⟩ => ⟨hk, hr⟩⟩

/-- There is one entry for each definition, under its name. -/
theorem perm_keys {definitions : List Definition} {configurations : SortedMap Configuration}
    (h : checkAll ∅ definitions = .ok configurations) :
    configurations.keys.Perm (definitions.map (·.name)) := by
  have hwell := (exists_checkAll_iff.1 ⟨configurations, h⟩).1
  have hkeys : configurations.keys.Nodup := by
    refine configurations.keys_increasing.imp fun {a b} hlt => ?_
    rintro rfl
    exact String.lt_irrefl a hlt
  refine (List.perm_ext_iff_of_nodup hkeys hwell.names).2 fun name => ?_
  -- a name is a key unless nothing is found under it
  have hnone := (find?_checkAll h name).2
  rw [← SortedMap.contains_iff_mem_keys, SortedMap.contains, List.mem_map]
  cases hfind : configurations.find? name with
  | none =>
    refine iff_of_false Bool.false_ne_true ?_
    rintro ⟨d, hd, hname⟩
    exact (hnone.1 hfind).2 d hd hname
  | some c =>
    refine iff_of_true rfl (Classical.byContradiction fun hno => ?_)
    have hfree := hnone.2 ⟨rfl, fun d hd hname => hno ⟨d, hd, hname⟩⟩
    rw [hfind] at hfree
    cases hfree

end Definition

end ControlRig
