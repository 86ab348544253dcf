import ControlRig.Proofs.Param.Tree
import ControlRig.SortedMap.Lemmas
import ControlRig.Transition.Plan

/-!
# What a target needs parameters for

Each resource of a configuration needs an entry of its own, and so does each controller that is
declared on it. Resources come in the order of their names, and each before its controllers
(`Configuration.needs`); this is the order in which they are looked up. So **one key is missing
first, or none** (`Configuration.FirstUnmet`, `FirstUnmet.unique`): the one at which the needs are
cut when all those before it are met (`Configuration.firstUnmet_of_split`).
-/

namespace ControlRig

namespace Requirement

/-- What a resource itself needs. -/
def ofResource (resource : String) : Requirement :=
  ⟨resource, "hardware interface '" ++ resource ++ "'"⟩

/-- What a controller on a resource needs. -/
def ofController (resource : String) (controller : Controller) : Requirement :=
  ⟨controller.paramsKey, "controller '" ++ controller.id ++ "' on '" ++ resource ++ "'"⟩

end Requirement

namespace Configuration

variable {c : Configuration} {params : ParamTree}

/-- What a single resource and its controllers need parameters for. -/
def requirementsOn (resource : String) (controllers : List Controller) : List Requirement :=
  .ofResource resource :: controllers.map (.ofController resource)

/-- What a configuration needs parameters for. -/
def needs (c : Configuration) : List Requirement :=
  c.components.entries.flatMap fun e => requirementsOn e.1 e.2

/-- There are parameters for a resource and for each controller that is declared on it. -/
structure Provided (c : Configuration) (params : ParamTree) (resource : String) : Prop where
  own : params.Has resource
  controllers : ∀ controller ∈ c.controllers resource, params.Has controller.paramsKey

/-- The first key without an entry, and what needs it. -/
inductive FirstUnmet (c : Configuration) (params : ParamTree) : String → String → Prop
  | resource {resource : String} : resource ∈ c.resources →
      (∀ other ∈ c.resources, other < resource → c.Provided params other) →
      ¬ params.Has resource →
      FirstUnmet c params resource ("hardware interface '" ++ resource ++ "'")
  | controller {resource : String} {earlier later : List Controller} {controller : Controller} :
      resource ∈ c.resources →
      (∀ other ∈ c.resources, other < resource → c.Provided params other) →
      params.Has resource →
      c.controllers resource = earlier ++ controller :: later →
      (∀ other ∈ earlier, params.Has other.paramsKey) →
      ¬ params.Has controller.paramsKey →
      FirstUnmet c params controller.paramsKey
        ("controller '" ++ controller.id ++ "' on '" ++ resource ++ "'")

/-- What is looked up is what is needed. -/
theorem requirements_eq_needs (c : Configuration) : c.requirements = c.needs := rfl

theorem controllers_of_mem {resource : String} {controllers : List Controller}
    (h : (resource, controllers) ∈ c.components.entries) :
    c.controllers resource = controllers := by
  rw [Configuration.controllers, SortedMap.find?_eq_some_iff.2 h]
  rfl

theorem mem_resources_of_mem {resource : String} {controllers : List Controller}
    (h : (resource, controllers) ∈ c.components.entries) : resource ∈ c.resources :=
  List.mem_map.2 ⟨_, h, rfl⟩

theorem exists_mem_of_mem_resources {resource : String} (h : resource ∈ c.resources) :
    ∃ controllers, (resource, controllers) ∈ c.components.entries := by
  obtain ⟨⟨_, controllers⟩, hmem, rfl⟩ := List.mem_map.1 (h : resource ∈ List.map _ _)
  exact ⟨controllers, hmem⟩

/-- A resource is provided for if what it needs is there. -/
theorem provided_iff {resource : String} {controllers : List Controller}
    (h : (resource, controllers) ∈ c.components.entries) :
    c.Provided params resource ↔
      ∀ q ∈ requirementsOn resource controllers, params.Has q.key := by
  have hdeclared := controllers_of_mem h
  constructor
  · intro hprovided q hq
    rcases List.mem_cons.1 hq with rfl | hq
    · exact hprovided.own
    · obtain ⟨controller, hmem, rfl⟩ := List.mem_map.1 hq
      exact hprovided.controllers controller (hdeclared ▸ hmem)
  · intro hall
    refine ⟨hall (.ofResource resource) List.mem_cons_self, fun controller hmem => ?_⟩
    rw [hdeclared] at hmem
    exact hall (.ofController resource controller)
      (List.mem_cons_of_mem _ (List.mem_map_of_mem hmem))

theorem forall_needs_iff :
    (∀ q ∈ c.needs, params.Has q.key) ↔
      ∀ resource ∈ c.resources, c.Provided params resource := by
  unfold needs
  constructor
  · intro hall resource hresource
    obtain ⟨controllers, hmem⟩ := exists_mem_of_mem_resources hresource
    exact (provided_iff hmem).2 fun q hq => hall q (List.mem_flatMap.2 ⟨_, hmem, hq⟩)
  · intro hall q hq
    obtain ⟨⟨resource, controllers⟩, hmem, hneeds⟩ := List.mem_flatMap.1 hq
    exact (provided_iff hmem).1 (hall resource (mem_resources_of_mem hmem)) q hneeds

/-- A concatenation that is cut at one of its members is cut within one of its parts. -/
theorem exists_cut_of_flatMap {α β : Type} {f : α → List β} {xs : List α} {met rest : List β}
    {q : β} (h : xs.flatMap f = met ++ q :: rest) :
    ∃ before x after earlier later, xs = before ++ x :: after ∧ f x = earlier ++ q :: later ∧
      met = before.flatMap f ++ earlier := by
  induction xs generalizing met with
  | nil => simp at h
  | cons x xs ih =>
    rw [List.flatMap_cons, List.append_eq_append_iff] at h
    rcases h with ⟨more, rfl, hrest⟩ | ⟨more, hx, hrest⟩
    · -- all of the first part is before the cut
      obtain ⟨before, y, after, earlier, later, rfl, hy, rfl⟩ := ih hrest
      exact ⟨x :: before, y, after, earlier, later, rfl, hy, by simp⟩
    · cases more with
      | nil =>
        obtain ⟨before, y, after, earlier, later, rfl, hy, hmet⟩ := @ih [] hrest.symm
        refine ⟨x :: before, y, after, earlier, later, rfl, hy, ?_⟩
        rw [List.append_nil] at hx
        rw [List.flatMap_cons, hx, List.append_assoc, ← hmet, List.append_nil]
      | cons y more =>
        cases hrest
        exact ⟨[], x, xs, met, more, rfl, hx, rfl⟩

/-- **What is reported is what is missing first.** -/
theorem firstUnmet_of_split {met rest : List Requirement} {q : Requirement}
    (split : c.needs = met ++ q :: rest)
    (there : ∀ p ∈ met, params.Has p.key) (missing : ¬ params.Has q.key) :
    c.FirstUnmet params q.key q.owner := by
  obtain ⟨before, ⟨resource, controllers⟩, after, earlier, later, hentries, hon, rfl⟩ :=
    exists_cut_of_flatMap split
  have hmem : (resource, controllers) ∈ c.components.entries := by
    rw [hentries]
    exact List.mem_append_right _ List.mem_cons_self
  -- entries are in the order of their names, so a smaller resource is before the cut
  have hsmaller : ∀ other ∈ c.resources, other < resource → c.Provided params other := by
    intro other hother hlt
    obtain ⟨others, hothers⟩ := exists_mem_of_mem_resources hother
    refine (provided_iff hothers).2 fun p hp => there p (List.mem_append_left _ ?_)
    have hbefore : (other, others) ∈ before :=
      (SortedMap.mem_before_iff hentries).2 ⟨SortedMap.find?_eq_some_iff.2 hothers, hlt⟩
    exact List.mem_flatMap.2 ⟨_, hbefore, hp⟩
  cases earlier with
  | nil =>
    cases hon
    exact .resource (mem_resources_of_mem hmem) hsmaller missing
  | cons own others =>
    obtain ⟨rfl, hcontrollers⟩ := List.cons.inj hon
    obtain ⟨met, more, rfl, rfl, hmore⟩ := List.map_eq_append_iff.1 hcontrollers
    obtain ⟨controller, unmet, rfl, rfl, rfl⟩ := List.map_eq_cons_iff.1 hmore
    refine .controller (mem_resources_of_mem hmem) hsmaller ?_ (controllers_of_mem hmem) ?_ missing
    · exact there (.ofResource resource) (List.mem_append_right _ List.mem_cons_self)
    · intro other hother
      refine there (.ofController resource other) (List.mem_append_right _ ?_)
      exact List.mem_cons_of_mem _ (List.mem_map_of_mem hother)

/-- The first resource that is not provided for. -/
structure FirstLacking (c : Configuration) (params : ParamTree) (resource : String) : Prop where
  mem : resource ∈ c.resources
  smaller : ∀ other ∈ c.resources, other < resource → c.Provided params other
  lacking : ¬ c.Provided params resource

theorem FirstLacking.unique {resource other : String} (h : c.FirstLacking params resource)
    (hother : c.FirstLacking params other) : other = resource := by
  rcases Std.lt_trichotomy other resource with hlt | heq | hgt
  · exact absurd (h.smaller other hother.mem hlt) hother.lacking
  · exact heq
  · exact absurd (hother.smaller resource h.mem hgt) h.lacking

/-- What is unmet first is so among the needs of the first resource that is not provided for. -/
theorem FirstUnmet.exists_resource {key owner : String} (h : c.FirstUnmet params key owner) :
    ∃ resource, c.FirstLacking params resource ∧
      (requirementsOn resource (c.controllers resource)).find? (!params.hasEntry ·.key) =
        some ⟨key, owner⟩ := by
  have missed {key : String} (h : ¬ params.Has key) : (!params.hasEntry key) = true := by
    rw [← ParamTree.hasEntry_iff] at h
    simpa using h
  have met {key : String} (h : params.Has key) : (!(!params.hasEntry key)) = true := by
    rw [Bool.not_not]
    exact ParamTree.hasEntry_iff.2 h
  cases h with
  | resource hmem hsmaller hmissing =>
    refine ⟨_, ⟨hmem, hsmaller, fun hprovided => hmissing hprovided.own⟩, ?_⟩
    exact List.find?_cons_of_pos (missed hmissing)
  | @controller resource earlier later controller hmem hsmaller hown hcut hearlier hmissing =>
    refine ⟨resource, ⟨hmem, hsmaller, fun hprovided => hmissing ?_⟩, ?_⟩
    · refine hprovided.controllers controller ?_
      rw [hcut]
      exact List.mem_append_right _ List.mem_cons_self
    · rw [hcut]
      refine List.find?_eq_some_iff_append.2 ⟨missed hmissing, .ofResource resource ::
        earlier.map (.ofController resource), later.map (.ofController resource), ?_, ?_⟩
      · simp [requirementsOn, Requirement.ofController]
      · intro q hq
        rcases List.mem_cons.1 hq with rfl | hq
        · exact met hown
        · obtain ⟨other, hother, rfl⟩ := List.mem_map.1 hq
          exact met (hearlier other hother)

/-- **Only one key is missing first**, and one owner needs it. -/
theorem FirstUnmet.unique {key owner other otherOwner : String} (h : c.FirstUnmet params key owner)
    (hother : c.FirstUnmet params other otherOwner) : other = key ∧ otherOwner = owner := by
  obtain ⟨resource, hfirst, hfind⟩ := h.exists_resource
  obtain ⟨second, hsecond, hfind'⟩ := hother.exists_resource
  cases hfirst.unique hsecond
  cases hfind.symm.trans hfind'
  exact ⟨rfl, rfl⟩

end Configuration

namespace Transition

/-- What a target needs parameters for; nothing without one. -/
def requirementsOf (target : Option Configuration) : List Requirement :=
  target.elim [] Configuration.needs

end Transition

end ControlRig
