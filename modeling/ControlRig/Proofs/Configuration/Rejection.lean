import ControlRig.Proofs.Configuration.Definition
import ControlRig.Proofs.Text.Trimming

/-!
# Which definitions are rejected, and why

A definition is accepted on four conditions that are read off its components as they are written
(`Definition.Acceptable`): texts that have to be there are not blank, and components of one resource
do not share a controller. A definition that is not accepted is rejected for one reason only.
Resources are checked in the order of their names and controllers in the order of their declaration,
so the reason is **the first fault of the smallest faulty resource** (`Definition.Rejected`),
wherever in the list its components stand.

All of it depends on what each resource has been declared for and not on how the components of
several resources are interleaved (`Definition.configuration_congr`).
-/

namespace ControlRig

/-! ## The first problem -/

namespace Configuration

variable {name resource : String} {e : CatalogError}

/-- The problem with the controllers of a resource that comes at the first of them to have one. -/
inductive ControllerFault (name resource : String) (controllers : List Controller) :
    CatalogError → Prop
  | blank {before rest : List Controller} {c : Controller} :
      controllers = before ++ c :: rest → ControllersWellFormed before →
      Text.isAllBlank c.id = true →
      ControllerFault name resource controllers (.emptyControllerId name resource)
  | repeated {before rest : List Controller} {c : Controller} :
      controllers = before ++ c :: rest → ControllersWellFormed before →
      Text.isAllBlank c.id = false → c.id ∈ before.map (·.id) →
      ControllerFault name resource controllers (.duplicateController name resource c.id)

/-- Controllers without a fault are passed over, and their ids are remembered. -/
theorem controllersProblem_append {seen : List String} {before : List Controller}
    (fine : ControllersWellFormed before) (fresh : ∀ c ∈ before, c.id ∉ seen)
    (rest : List Controller) :
    controllersProblem name resource seen (before ++ rest) =
      controllersProblem name resource ((before.map (·.id)).reverse ++ seen) rest := by
  induction before generalizing seen with
  | nil => rfl
  | cons c more ih =>
    obtain ⟨hblank, hnodup⟩ := fine
    obtain ⟨hnot, hnodup⟩ := List.nodup_cons.1 hnodup
    have hc : Text.isAllBlank c.id = false := hblank c List.mem_cons_self
    have hseen : ¬ seen.contains c.id = true := by
      rw [List.contains_iff_mem]
      exact fresh c List.mem_cons_self
    rw [List.cons_append, controllersProblem, if_neg (Bool.eq_false_iff.1 hc), if_neg hseen,
      ih ⟨fun d hd => hblank d (List.mem_cons_of_mem _ hd), hnodup⟩]
    · rw [List.map_cons, List.reverse_cons, List.append_assoc, List.singleton_append]
    · intro d hd hmem
      rcases List.mem_cons.1 hmem with heq | hmem
      · exact hnot (List.mem_map.2 ⟨d, hd, heq⟩)
      · exact fresh d (List.mem_cons_of_mem _ hd) hmem

/-- Up to the first problem there is none. -/
theorem exists_of_controllersProblem {seen : List String} {controllers : List Controller}
    (h : controllersProblem name resource seen controllers = some e) :
    ∃ before c rest, controllers = before ++ c :: rest ∧
      ControllersWellFormed before ∧ (∀ b ∈ before, b.id ∉ seen) ∧
      controllersProblem name resource ((before.map (·.id)).reverse ++ seen) [c] = some e := by
  induction controllers generalizing seen with
  | nil => cases h
  | cons c rest ih =>
    unfold controllersProblem at h
    by_cases hhere : Text.isAllBlank c.id = true ∨ seen.contains c.id = true
    · refine ⟨[], c, rest, rfl, ⟨List.forall_mem_nil _, List.nodup_nil⟩, List.forall_mem_nil _, ?_⟩
      rw [← h, controllersProblem]
      rcases hhere with hblank | hseen
      · rw [if_pos hblank, if_pos hblank]
      · simp only [List.map_nil, List.reverse_nil, List.nil_append, hseen, if_true]
    · obtain ⟨hblank, hseen⟩ := not_or.1 hhere
      rw [if_neg hblank, if_neg hseen] at h
      obtain ⟨before, d, after, rfl, ⟨hblanks, hnodup⟩, hfresh, hd⟩ := ih h
      refine ⟨c :: before, d, after, rfl, ⟨?_, ?_⟩, ?_, ?_⟩
      · exact List.forall_mem_cons.2 ⟨Bool.eq_false_iff.2 hblank, hblanks⟩
      · refine List.nodup_cons.2 ⟨fun hmem => ?_, hnodup⟩
        obtain ⟨b, hb, heq⟩ := List.mem_map.1 hmem
        exact hfresh b hb (heq ▸ List.mem_cons_self)
      · refine List.forall_mem_cons.2 ⟨fun hmem => hseen (List.contains_iff_mem.2 hmem), ?_⟩
        exact fun b hb hmem => hfresh b hb (List.mem_cons_of_mem _ hmem)
      · rw [List.map_cons, List.reverse_cons, List.append_assoc, List.singleton_append]
        exact hd

theorem controllersProblem_eq_some_iff {controllers : List Controller} :
    controllersProblem name resource [] controllers = some e ↔
      ControllerFault name resource controllers e := by
  constructor
  · intro h
    obtain ⟨before, c, rest, hsplit, hfine, -, hc⟩ := exists_of_controllersProblem h
    rw [controllersProblem] at hc
    cases hblank : Text.isAllBlank c.id with
    | true =>
      rw [if_pos hblank] at hc
      cases hc
      exact .blank hsplit hfine hblank
    | false =>
      rw [if_neg (Bool.eq_false_iff.1 hblank)] at hc
      split at hc
      · cases hc
        rename_i hseen
        refine .repeated hsplit hfine hblank ?_
        simpa using hseen
      · cases hc
  · intro h
    cases h with
    | blank hsplit hfine hblank =>
      rw [hsplit, controllersProblem_append hfine (fun _ _ => List.not_mem_nil), controllersProblem,
        if_pos hblank]
    | repeated hsplit hfine hblank hmem =>
      rw [hsplit, controllersProblem_append hfine (fun _ _ => List.not_mem_nil), controllersProblem,
        if_neg (Bool.eq_false_iff.1 hblank), if_pos]
      simpa using hmem

/-- The problem with a single entry. -/
def entryProblem (name : String) (entry : String × List Controller) : Option CatalogError :=
  if entry.1 = "" then some (.emptyResourceName name)
  else controllersProblem name entry.1 [] entry.2

theorem componentsProblem_eq (entries : List (String × List Controller)) :
    componentsProblem name entries = entries.findSome? (entryProblem name) := by
  induction entries with
  | nil => rfl
  | cons entry rest ih =>
    obtain ⟨resource, controllers⟩ := entry
    rw [componentsProblem, List.findSome?_cons, ih, entryProblem]
    by_cases hresource : resource = ""
    · rw [if_pos hresource, if_pos hresource]
    · rw [if_neg hresource, if_neg hresource]
      dsimp only
      cases controllersProblem name resource [] controllers <;> rfl

theorem make_eq_error_iff {components : SortedMap (List Controller)} :
    make name components = .error e ↔ problem name components = some e := by
  unfold make
  split
  · rename_i found h
    rw [h, Except.error.injEq, Option.some.injEq]
  · rename_i h
    refine iff_of_false nofun fun hsome => ?_
    rw [h] at hsome
    cases hsome

end Configuration

/-! ## What is asked of a definition -/

namespace Definition

open ControlRig.Configuration

variable {d : Definition} {resource : String} {e : CatalogError}

/-- What a definition has to be like, said of its components as they are written. -/
structure Acceptable (d : Definition) : Prop where
  named : Text.trim d.name ≠ ""
  resources : ∀ c ∈ d.components, Text.trim c.hardwareInterface ≠ ""
  controllers : ∀ c ∈ d.components, ∀ id, c.controller = some id → Text.trim id ≠ ""
  distinct : d.components.Pairwise fun x y =>
    Text.trim x.hardwareInterface = Text.trim y.hardwareInterface →
      ∀ i, x.controller = some i → ∀ j, y.controller = some j → Text.trim i ≠ Text.trim j

theorem controllerOn_eq_some_iff {c : Component} {controller : Controller} :
    c.controllerOn resource = some controller ↔
      Text.trim c.hardwareInterface = resource ∧ ∃ id, c.controller = some id ∧
        controller = ⟨Text.trim id, resource ++ "/" ++ Text.trim id, c.description,
          c.runtimeCheck⟩ := by
  unfold Component.controllerOn
  by_cases h : Text.trim c.hardwareInterface = resource
  · rw [if_pos h, Option.map_eq_some_iff]
    exact ⟨fun ⟨id, hid, heq⟩ => ⟨h, id, hid, heq.symm⟩,
      fun ⟨_, id, hid, heq⟩ => ⟨id, hid, heq.symm⟩⟩
  · rw [if_neg h]
    exact iff_of_false nofun fun hand => h hand.1

theorem nodup_declared_iff :
    (∀ resource, ((d.declared resource).map (·.id)).Nodup) ↔
      d.components.Pairwise fun x y =>
        Text.trim x.hardwareInterface = Text.trim y.hardwareInterface →
          ∀ i, x.controller = some i → ∀ j, y.controller = some j → Text.trim i ≠ Text.trim j := by
  have hon : ∀ resource, ((d.declared resource).map (·.id)).Nodup ↔
      d.components.Pairwise fun x y => ∀ a, x.controllerOn resource = some a →
        ∀ b, y.controllerOn resource = some b → a.id ≠ b.id := by
    intro resource
    rw [List.Nodup, List.pairwise_map, declared, List.pairwise_filterMap]
  simp only [hon, List.pairwise_iff_forall_sublist]
  constructor
  · intro h x y hxy hsame i hi j hj
    exact h (Text.trim y.hardwareInterface) hxy _ (controllerOn_eq_some_iff.2 ⟨hsame, i, hi, rfl⟩)
      _ (controllerOn_eq_some_iff.2 ⟨rfl, j, hj, rfl⟩)
  · intro h resource x y hxy a ha b hb
    obtain ⟨hx, i, hi, rfl⟩ := controllerOn_eq_some_iff.1 ha
    obtain ⟨hy, j, hj, rfl⟩ := controllerOn_eq_some_iff.1 hb
    exact h hxy (hx.trans hy.symm) i hi j hj

theorem wellFormed_iff_acceptable : d.WellFormed ↔ d.Acceptable := by
  constructor
  · intro h
    refine ⟨fun hname => ?_, h.resources, fun c hc id hid hblank => ?_, ?_⟩
    · rw [Text.trim_eq_empty_iff, h.named] at hname
      cases hname
    · have hmem : _ ∈ d.declared (Text.trim c.hardwareInterface) :=
        List.mem_filterMap.2 ⟨c, hc, controllerOn_eq_some_iff.2 ⟨rfl, id, hid, rfl⟩⟩
      have hfilled := (h.controllers _).1 _ hmem
      rw [Text.isAllBlank_trim_iff.2 hblank] at hfilled
      cases hfilled
    · exact nodup_declared_iff.1 fun resource => (h.controllers resource).2
  · intro h
    refine ⟨?_, h.resources, fun resource => ⟨fun c hc => ?_, nodup_declared_iff.2 h.distinct _⟩⟩
    · rw [Bool.eq_false_iff]
      exact fun hblank => h.named (Text.trim_eq_empty_iff.2 hblank)
    · obtain ⟨component, hmem, hon⟩ := List.mem_filterMap.1 hc
      obtain ⟨-, id, hid, rfl⟩ := controllerOn_eq_some_iff.1 hon
      rw [Bool.eq_false_iff]
      exact fun hblank => h.controllers component hmem id hid (Text.isAllBlank_trim_iff.1 hblank)

/-! ## The reason for a rejection -/

/-- What is wrong with a resource. -/
inductive Faulty (d : Definition) (resource : String) : CatalogError → Prop
  | unnamed : d.Needs resource → resource = "" → Faulty d resource (.emptyResourceName d.name)
  | controllers {e : CatalogError} : resource ≠ "" →
      ControllerFault d.name resource (d.declared resource) e → Faulty d resource e

/-- Why a definition is rejected: it has no name, or else something is wrong with a resource and
nothing with the smaller ones. -/
inductive Rejected (d : Definition) : CatalogError → Prop
  | unnamed : Text.trim d.name = "" → Rejected d .emptyConfigurationName
  | faulty {resource : String} {e : CatalogError} : Text.trim d.name ≠ "" → d.Faulty resource e →
      (∀ other, other < resource → ∀ e', ¬ d.Faulty other e') → Rejected d e

theorem find?_grouped_eq_some_iff {controllers : List Controller} :
    d.grouped.find? resource = some controllers ↔
      d.Needs resource ∧ d.declared resource = controllers := by
  rw [find?_grouped]
  by_cases h : d.Needs resource
  · rw [if_pos h, Option.some.injEq]
    exact ⟨fun heq => ⟨h, heq⟩, And.right⟩
  · rw [if_neg h]
    exact iff_of_false nofun fun hand => h hand.1

theorem Faulty.needs (h : d.Faulty resource e) : d.Needs resource := by
  cases h with
  | unnamed hneeds => exact hneeds
  | controllers hresource hfault =>
    refine Decidable.byContradiction fun hneeds => ?_
    have hnone := declared_of_not_needs hneeds
    cases hfault with
    | blank hsplit | «repeated» hsplit =>
      rw [hnone] at hsplit
      exact List.cons_ne_nil _ _ (List.append_eq_nil_iff.1 hsplit.symm).2

theorem entryProblem_iff (needs : d.Needs resource) :
    entryProblem d.name (resource, d.declared resource) = some e ↔ d.Faulty resource e := by
  unfold entryProblem
  by_cases hresource : resource = ""
  · rw [if_pos hresource]
    constructor
    · intro h
      cases h
      exact .unnamed needs hresource
    · intro h
      cases h with
      | unnamed => rfl
      | controllers hnamed => exact absurd hresource hnamed
  · rw [if_neg hresource, controllersProblem_eq_some_iff]
    constructor
    · exact .controllers hresource
    · intro h
      cases h with
      | unnamed _ hempty => exact absurd hempty hresource
      | controllers _ hfault => exact hfault

theorem configuration_eq_error_iff : d.configuration = .error e ↔ d.Rejected e := by
  rw [configuration, make_eq_error_iff, problem]
  by_cases hname : Text.isAllBlank d.name = true
  · have hempty := Text.trim_eq_empty_iff.2 hname
    rw [if_pos hname]
    constructor
    · intro h
      cases h
      exact .unnamed hempty
    · intro h
      cases h with
      | unnamed => rfl
      | faulty hnamed => exact absurd hempty hnamed
  · have hnamed : Text.trim d.name ≠ "" := fun h => hname (Text.trim_eq_empty_iff.1 h)
    rw [if_neg hname, componentsProblem_eq, SortedMap.findSome?_entries_iff]
    constructor
    · rintro ⟨resource, controllers, hfind, he, hsmaller⟩
      obtain ⟨hneeds, rfl⟩ := find?_grouped_eq_some_iff.1 hfind
      refine .faulty hnamed ((entryProblem_iff hneeds).1 he) fun other hlt e' hfault => ?_
      have hnone := hsmaller other _ (find?_grouped_eq_some_iff.2 ⟨hfault.needs, rfl⟩) hlt
      rw [(entryProblem_iff hfault.needs).2 hfault] at hnone
      cases hnone
    · intro h
      cases h with
      | unnamed hempty => exact absurd hempty hnamed
      | @faulty resource _ _ hfault hsmaller =>
        have hfind := find?_grouped_eq_some_iff.2 ⟨hfault.needs, rfl⟩
        refine ⟨resource, _, hfind, (entryProblem_iff hfault.needs).2 hfault, ?_⟩
        intro other controllers hother hlt
        obtain ⟨hneeds, rfl⟩ := find?_grouped_eq_some_iff.1 hother
        cases hproblem : entryProblem d.name (other, d.declared other) with
        | none => rfl
        | some e' => exact absurd ((entryProblem_iff hneeds).1 hproblem) (hsmaller other hlt e')

/-! ## The order of the components -/

/-- The components for a resource, in the order in which they are written. -/
def componentsFor (d : Definition) (resource : String) : List Component :=
  d.components.filter fun c => Text.trim c.hardwareInterface = resource

theorem needs_iff_componentsFor : d.Needs resource ↔ d.componentsFor resource ≠ [] := by
  rw [Ne, componentsFor, List.filter_eq_nil_iff]
  simp [Needs]

theorem declared_eq_componentsFor (d : Definition) (resource : String) :
    d.declared resource =
      (d.componentsFor resource).filterMap (Component.controllerOn resource) := by
  rw [declared, componentsFor, List.filterMap_filter]
  refine congrArg (List.filterMap · d.components) (funext fun c => ?_)
  unfold Component.controllerOn
  by_cases h : Text.trim c.hardwareInterface = resource <;> simp [h]

/-- What counts is what is written for each resource. -/
theorem configuration_congr {other : Definition} (name : other.name = d.name)
    (same : ∀ resource, other.componentsFor resource = d.componentsFor resource) :
    other.configuration = d.configuration := by
  have hgrouped : other.grouped = d.grouped := by
    refine SortedMap.ext_find? fun resource => ?_
    rw [find?_grouped, find?_grouped, declared_eq_componentsFor, declared_eq_componentsFor,
      same resource]
    exact if_congr (by rw [needs_iff_componentsFor, needs_iff_componentsFor, same]) rfl rfl
  rw [configuration, configuration, hgrouped, name]

theorem componentsFor_swap {before after : List Component} {x y : Component}
    (apart : Text.trim x.hardwareInterface ≠ Text.trim y.hardwareInterface)
    (name resource : String) :
    componentsFor ⟨name, before ++ y :: x :: after⟩ resource =
      componentsFor ⟨name, before ++ x :: y :: after⟩ resource := by
  simp only [componentsFor, List.filter_append, List.filter_cons, decide_eq_true_eq]
  by_cases hx : Text.trim x.hardwareInterface = resource
  · have hy : Text.trim y.hardwareInterface ≠ resource := fun hy => apart (hx.trans hy.symm)
    rw [if_neg hy, if_pos hx, if_pos hx, if_neg hy]
  · rw [if_neg hx, if_neg hx]

/-- **Which definitions are accepted, what they define, and why the others are rejected.** -/
theorem configuration_exact (d : Definition) :
    ((∃ c, d.configuration = .ok c) ↔ d.Acceptable) ∧
    (∀ c, d.configuration = .ok c → d.Defines c ∧ c.state = .idle) ∧
    (∀ e, d.configuration = .error e ↔ d.Rejected e) ∧
    (∀ before x y after, d.components = before ++ x :: y :: after →
      Text.trim x.hardwareInterface ≠ Text.trim y.hardwareInterface →
      configuration ⟨d.name, before ++ y :: x :: after⟩ = d.configuration) ∧
    ∀ other : Definition, other.name = d.name →
      (∀ resource, other.componentsFor resource = d.componentsFor resource) →
      other.configuration = d.configuration := by
  refine ⟨exists_configuration_iff.trans wellFormed_iff_acceptable, fun c hc => ?_,
    fun e => configuration_eq_error_iff, fun before x y after hsplit apart => ?_,
    fun other => configuration_congr⟩
  · obtain ⟨-, hstate, -⟩ := make_eq_ok_iff.1 hc
    have hdefines := defines_of_configuration hc c.state
    exact ⟨hdefines, hstate⟩
  · refine configuration_congr rfl fun resource => ?_
    rw [componentsFor_swap apart, ← hsplit]

/-- The gun has a controller without an id, but the arm comes before it, and its gripper twice. -/
def grippedTwice : Definition :=
  ⟨" welding", [⟨"gun", some " ", none, true⟩, ⟨"arm ", some "grip", none, true⟩,
    ⟨"belt", none, none, true⟩, ⟨" arm", some "\tgrip", some "again", false⟩]⟩

theorem configuration_exact_grippedTwice :
    grippedTwice.Rejected (.duplicateController " welding" "arm" "grip") ∧
      ¬ grippedTwice.Acceptable := by
  obtain ⟨haccepts, -, hrejects, -⟩ := configuration_exact grippedTwice
  have herror : grippedTwice.configuration =
      .error (.duplicateController " welding" "arm" "grip") :=
    make_eq_error_iff.2 (by rfl)
  refine ⟨(hrejects _).1 herror, fun h => ?_⟩
  obtain ⟨c, hc⟩ := haccepts.2 h
  rw [herror] at hc
  cases hc

end Definition

end ControlRig
