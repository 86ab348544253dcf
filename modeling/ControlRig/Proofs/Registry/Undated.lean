import ControlRig.Proofs.Registry.Calls

/-!
# Registries without their dates

All that a registry remembers of time is when it loaded what it holds, and nothing but the state of
a resource ever depends on that. `SimRegistry.undated` forgets it. **Calls come to the same on a
registry and on its undated form** (`perform_undated`), and so do readings if resources need no time
to initialize (`stateAt_undated`).
-/

namespace ControlRig

namespace SortedMap

variable {α β : Type} (f : String → α → β)

theorem mapValues_insert (m : SortedMap α) (key : String) (value : α) :
    (m.insert key value).mapValues f = (m.mapValues f).insert key (f key value) := by
  apply ext_find?
  intro other
  by_cases h : key = other
  · subst h
    simp
  · simp [find?_insert_of_ne _ h]

theorem mapValues_erase (m : SortedMap α) (key : String) :
    (m.erase key).mapValues f = (m.mapValues f).erase key := by
  apply ext_find?
  intro other
  by_cases h : key = other
  · subst h
    simp
  · simp [find?_erase_of_ne _ h]

theorem mapValues_foldl_erase (names : List String) (m : SortedMap α) :
    (names.foldl .erase m).mapValues f = names.foldl .erase (m.mapValues f) := by
  induction names generalizing m with
  | nil => rfl
  | cons n rest ih => rw [List.foldl_cons, List.foldl_cons, ih, mapValues_erase]

theorem mapValues_modify {g : α → α} {h : β → β} (comm : ∀ key a, f key (g a) = h (f key a))
    (m : SortedMap α) (key : String) :
    (m.modify key g).mapValues f = (m.mapValues f).modify key h := by
  apply ext_find?
  intro other
  by_cases heq : key = other
  · subst heq
    rw [find?_mapValues, find?_modify_self, find?_modify_self, find?_mapValues, Option.map_map,
      Option.map_map]
    exact congrArg (Option.map · _) (funext fun a => comm key a)
  · simp [find?_modify_of_ne _ heq]

theorem mapValues_foldl_modify {g : α → α} {h : β → β}
    (comm : ∀ key a, f key (g a) = h (f key a)) (names : List String) (m : SortedMap α) :
    (names.foldl (fun m n => m.modify n g) m).mapValues f =
      names.foldl (fun m n => m.modify n h) (m.mapValues f) := by
  induction names generalizing m with
  | nil => rfl
  | cons n rest ih => rw [List.foldl_cons, List.foldl_cons, ih, mapValues_modify f comm]

end SortedMap

def Held.undated (h : Held) : Held := { h with loadedAt := .start }

namespace SimRegistry

def undated (r : SimRegistry) : SimRegistry :=
  { r with held := r.held.mapValues fun _ => Held.undated }

@[simp] theorem undated_held (r : SimRegistry) :
    r.undated.held = r.held.mapValues fun _ => Held.undated := rfl

@[simp] theorem undated_faults (r : SimRegistry) : r.undated.faults = r.faults := rfl

@[simp] theorem undated_latency (r : SimRegistry) : r.undated.latency = r.latency := rfl

@[simp] theorem undated_calls (r : SimRegistry) : r.undated.calls = r.calls := rfl

theorem undated_enter (r : SimRegistry) (operation : Operation) :
    (r.enter operation).undated = r.undated.enter operation := rfl

theorem find?_undated (r : SimRegistry) (resource : String) :
    r.undated.held.find? resource = (r.held.find? resource).map Held.undated :=
  SortedMap.find?_mapValues _ _ _

/-- Starting controllers takes no notice of dates. -/
theorem startAll_undated (faults : Faults) (configuration : Configuration)
    (strictness : Strictness) (resources : List String) (held : SortedMap Held) :
    startAll faults configuration strictness resources (held.mapValues fun _ => Held.undated) =
      { startAll faults configuration strictness resources held with
        held := (startAll faults configuration strictness resources held).held.mapValues
          fun _ => Held.undated } := by
  induction resources generalizing held with
  | nil => rfl
  | cons resource rest ih =>
    unfold startAll
    rw [SortedMap.find?_mapValues]
    cases held.find? resource with
    | none => rfl
    | some h =>
      have hinsert (running : List String) :
          (held.mapValues fun _ => Held.undated).insert resource
              { h.undated with controllers := running } =
            (held.insert resource { h with controllers := running }).mapValues
              fun _ => Held.undated := by
        rw [SortedMap.mapValues_insert]
        rfl
      have hcontrollers : h.undated.controllers = h.controllers := rfl
      simp only [Option.map_some, hcontrollers, hinsert, ih]
      split <;> rfl

end SimRegistry

def Performance.undated (p : Performance) : Performance := { p with registry := p.registry.undated }

namespace SimRegistry

theorem effect_undated (r : SimRegistry) (now : Instant) (operation : Operation) :
    (r.effect now operation).undated = r.undated.effect .start operation := by
  cases operation with
  | listLoaded =>
    simp only [effect, undated_faults, undated_held, SortedMap.keys_mapValues]
    split <;> rfl
  | load resource =>
    have hcontains : r.undated.held.contains resource = r.held.contains resource := by
      rw [SortedMap.contains, SortedMap.contains, find?_undated, Option.isSome_map]
    have hinsert : r.undated.held.insert resource (.fresh .start) =
        (r.held.insert resource (.fresh now)).mapValues fun _ => Held.undated := by
      rw [SortedMap.mapValues_insert]
      rfl
    simp only [effect, undated_faults, hcontains, hinsert]
    split
    · rfl
    · split <;> rfl
  | unload resources =>
    simp only [effect, undated_faults, undated_held, ← SortedMap.mapValues_foldl_erase]
    split <;> rfl
  | purge =>
    by_cases hfaults : r.faults.unload = true
    · have hundated : r.undated.faults.unload = true := hfaults
      simp only [effect, hfaults, hundated, ↓reduceIte]
      rfl
    · have hundated : ¬ r.undated.faults.unload = true := hfaults
      simp only [effect, hfaults, hundated]
      rfl
  | startControllers resources configuration strictness =>
    simp only [effect, undated_faults, undated_held, startAll_undated]
    split <;> rfl
  | stopControllers resources =>
    let cleared (h : Held) : Held := { h with controllers := [] }
    have hstop := SortedMap.mapValues_foldl_modify (fun _ => Held.undated) (g := cleared)
      (h := cleared) (fun _ _ => rfl) resources r.held
    by_cases hfaults : r.faults.stop = true
    · have hundated : r.undated.faults.stop = true := hfaults
      simp only [effect, hfaults, hundated, ↓reduceIte]
      rfl
    · have hundated : ¬ r.undated.faults.stop = true := hfaults
      simp only [effect, hfaults, hundated, undated_held]
      rw [← hstop]
      rfl

/-- **A call comes to the same on a registry without its dates.** -/
theorem perform_undated (r : SimRegistry) (now : Instant) (limit : Duration)
    (operation : Operation) :
    (r.perform now limit operation).undated = r.undated.perform .start limit operation := by
  unfold perform
  rw [undated_latency, ← effect_undated r now]
  split <;> rfl

/-- Resources that need no time to initialize read the same at all times. -/
theorem stateAt_undated {r : SimRegistry} (prompt : r.initDelay = .zero) (now : Instant)
    (resource : String) : r.stateAt now resource = r.undated.stateAt .start resource := by
  have hdone (d : Duration) : ¬ d < r.initDelay := by
    rw [prompt]
    exact Nat.not_lt_zero _
  unfold stateAt
  rw [find?_undated]
  cases r.held.find? resource with
  | none => rfl
  | some held =>
    have hundone (d : Duration) : ¬ d < r.undated.initDelay := hdone d
    simp only [Option.map_some, hdone, hundone, undated_faults]
    rfl

end SimRegistry

end ControlRig
