import ControlRig.Registry.Simulated
import ControlRig.Proofs.Procedure.Observation

/-!
# What each call does to a simulated registry

One lemma for each operation and each kind of answer, so that nobody else has to open
`SimRegistry.run`. Two facts hold of every call and come first: it changes nothing of the registry
but what is held and the marks of the call itself (`run_registry`), and it either runs out of time
or has its effect (`run_cases`).

The effect is stated by look-ups (`held.find?`) where resources matter one by one, and by the set
`loaded` where only their names do.
-/

namespace ControlRig

/-! ## Held resources as a set -/

namespace SortedMap

variable {α : Type}

theorem mem_keys_iff {m : SortedMap α} {key : String} : key ∈ m.keys ↔ (m.find? key).isSome :=
  contains_iff_mem_keys.symm

theorem not_mem_keys_iff {m : SortedMap α} {key : String} : key ∉ m.keys ↔ m.find? key = none := by
  rw [mem_keys_iff, Bool.not_eq_true, Option.isSome_eq_false_iff, Option.isNone_iff_eq_none]

/-- Erasing several keys erases those and no others. -/
theorem find?_foldl_erase (names : List String) (m : SortedMap α) (key : String) :
    (names.foldl .erase m).find? key = if key ∈ names then none else m.find? key := by
  induction names generalizing m with
  | nil => simp
  | cons n rest ih =>
    rw [List.foldl_cons, ih]
    by_cases hrest : key ∈ rest
    · simp [hrest]
    · by_cases hn : n = key
      · subst hn
        simp
      · have hne : ¬ key = n := fun h => hn h.symm
        simp [hrest, hne, find?_erase_of_ne m hn]

/-- Changing the values at several keys leaves the others as they were. -/
theorem find?_foldl_modify_of_not_mem (f : α → α) {names : List String} (m : SortedMap α)
    {key : String} (h : key ∉ names) :
    (names.foldl (fun m n => m.modify n f) m).find? key = m.find? key := by
  induction names generalizing m with
  | nil => rfl
  | cons n rest ih =>
    have hn : n ≠ key := fun heq => h (heq ▸ List.mem_cons_self)
    rw [List.foldl_cons, ih _ fun hm => h (List.mem_cons_of_mem _ hm), find?_modify_of_ne m hn]

@[simp] theorem keys_foldl_modify (f : α → α) (names : List String) (m : SortedMap α) :
    (names.foldl (fun m n => m.modify n f) m).keys = m.keys := by
  induction names generalizing m with
  | nil => rfl
  | cons n rest ih =>
    rw [List.foldl_cons, ih, keys_modify]

end SortedMap

namespace NameSet

/-- The names of a set, gathered again, are the set. -/
@[simp] theorem ofList_names (s : NameSet) : ofList s.names = s :=
  ext_mem fun _ => mem_ofList

end NameSet

namespace SimRegistry

variable {r : SimRegistry} {now : Instant} {limit : Duration}

theorem mem_loaded_iff {resource : String} :
    resource ∈ r.loaded ↔ (r.held.find? resource).isSome :=
  SortedMap.mem_keys_iff

theorem not_mem_loaded_iff {resource : String} :
    resource ∉ r.loaded ↔ r.held.find? resource = none :=
  SortedMap.not_mem_keys_iff

/-- Nothing runs on what is not loaded. -/
theorem running_of_not_mem {resource : String} (h : resource ∉ r.loaded) :
    r.running resource = [] := by
  rw [running, not_mem_loaded_iff.1 h]
  rfl

@[simp] theorem ofList_keys (r : SimRegistry) : NameSet.ofList r.held.keys = r.loaded :=
  NameSet.ofList_names r.loaded

/-- Registries that hold the same resources have the same ones loaded. -/
theorem loaded_congr {s : SimRegistry} (h : s.held = r.held) : s.loaded = r.loaded := by
  rw [loaded, loaded, h]

/-! ## Every call -/

/-- An effect is one on what is held. -/
theorem effect_registry (r : SimRegistry) (t : Instant) (operation : Operation) :
    ∃ held, (r.effect t operation).registry = { r with held := held } := by
  cases operation with
  | startControllers resources configuration strictness =>
    refine ⟨(startAll r.faults configuration strictness resources r.held).held, ?_⟩
    simp only [effect]
    split <;> rfl
  | load resource =>
    simp only [effect]
    split
    · exact ⟨r.held, rfl⟩
    · split
      · exact ⟨r.held, rfl⟩
      · exact ⟨_, rfl⟩
  | listLoaded =>
    simp only [effect]
    split <;> exact ⟨r.held, rfl⟩
  | unload resources | purge | stopControllers resources =>
    simp only [effect]
    split
    · exact ⟨r.held, rfl⟩
    · exact ⟨_, rfl⟩

/-- An effect does not depend on the marks of calls. -/
theorem effect_enter (r : SimRegistry) (entered : Operation) (t : Instant) (operation : Operation) :
    ((r.enter entered).effect t operation).answer = (r.effect t operation).answer ∧
      ((r.enter entered).effect t operation).registry.held =
        (r.effect t operation).registry.held := by
  cases operation with
  | listLoaded => by_cases h : r.faults.list = true <;> simp [effect, enter, h]
  | load resource =>
    by_cases hf : resource ∈ r.faults.loads
    · simp [effect, enter, hf]
    · by_cases hh : r.held.contains resource = true <;> simp [effect, enter, hf, hh]
  | unload resources | purge => by_cases h : r.faults.unload = true <;> simp [effect, enter, h]
  | startControllers resources configuration strictness =>
    simp only [effect, enter]
    cases (startAll r.faults configuration strictness resources r.held).error <;> exact ⟨rfl, rfl⟩
  | stopControllers resources => by_cases h : r.faults.stop = true <;> simp [effect, enter, h]

/-- A call changes what is held and leaves its own marks, and nothing else. -/
theorem run_registry (r : SimRegistry) (now : Instant) (limit : Duration) (operation : Operation) :
    (r.run now limit operation).registry =
      { r with
        held := (r.run now limit operation).registry.held
        calls := r.calls ++ [operation.call]
        busy := false
        reentrant := r.reentrant || r.busy } := by
  unfold run perform
  split
  · rfl
  · obtain ⟨held, h⟩ :=
      effect_registry (r.enter operation) (now.after (r.wait limit)) operation
    simp only [leave]
    rw [h]
    rfl

@[simp] theorem run_calls (r : SimRegistry) (now : Instant) (limit : Duration)
    (operation : Operation) :
    (r.run now limit operation).registry.calls = r.calls ++ [operation.call] := by
  rw [run_registry]

@[simp] theorem run_faults (r : SimRegistry) (now : Instant) (limit : Duration)
    (operation : Operation) : (r.run now limit operation).registry.faults = r.faults := by
  rw [run_registry]

@[simp] theorem run_latency (r : SimRegistry) (now : Instant) (limit : Duration)
    (operation : Operation) : (r.run now limit operation).registry.latency = r.latency := by
  rw [run_registry]

@[simp] theorem run_initDelay (r : SimRegistry) (now : Instant) (limit : Duration)
    (operation : Operation) : (r.run now limit operation).registry.initDelay = r.initDelay := by
  rw [run_registry]

/-- A call runs out of time, or it has its effect. -/
theorem run_cases (r : SimRegistry) (now : Instant) (limit : Duration) (operation : Operation) :
    (limit < r.latency ∧
      (r.run now limit operation).answer = .error (.timeout operation.call.name limit) ∧
      (r.run now limit operation).registry.held = r.held) ∨
    (¬ limit < r.latency ∧ ∃ t,
      (r.run now limit operation).answer = (r.effect t operation).answer ∧
      (r.run now limit operation).registry.held = (r.effect t operation).registry.held) := by
  unfold run perform
  by_cases hlate : limit < r.latency
  · exact .inl ⟨hlate, by simp [enter, hlate], by simp [enter, leave, hlate]⟩
  · -- entering only leaves marks, which the effect does not look at
    refine .inr ⟨hlate, now.after (r.wait limit), ?_⟩
    have hent := effect_enter r operation (now.after (r.wait limit)) operation
    simp only [enter, hlate, if_false, leave] at hent ⊢
    exact hent

/-- An answer of a simulated registry is one that its operation admits. -/
theorem run_admits {operation : Operation} {names : List String}
    (h : (r.run now limit operation).answer = .ok names) : operation.Admits names := by
  obtain ⟨-, hans, -⟩ | ⟨-, t, hans, -⟩ := run_cases r now limit operation
  · rw [hans] at h
    cases h
  · rw [hans] at h
    cases operation with
    | listLoaded | startControllers resources configuration strictness => trivial
    | load resource =>
      simp only [effect] at h
      split at h
      · cases h
      · split at h <;> cases h
        rfl
    | unload resources | purge | stopControllers resources =>
      simp only [effect] at h
      split at h <;> cases h
      rfl

/-! ## Single operations -/

@[simp] theorem run_listLoaded_held (r : SimRegistry) (now : Instant) (limit : Duration) :
    (r.run now limit .listLoaded).registry.held = r.held := by
  obtain ⟨-, -, hheld⟩ | ⟨-, t, -, hheld⟩ := run_cases r now limit .listLoaded
  · exact hheld
  · rw [hheld, effect]
    split <;> rfl

/-- A listing tells the truth, and shows that calls get an answer in time. -/
theorem run_listLoaded_ok {names : List String}
    (h : (r.run now limit .listLoaded).answer = .ok names) :
    names = r.held.keys ∧ ¬ limit < r.latency := by
  obtain ⟨-, hans, -⟩ | ⟨hlate, t, hans, -⟩ := run_cases r now limit .listLoaded
  · rw [hans] at h
    cases h
  · rw [hans, effect] at h
    split at h <;> cases h
    exact ⟨rfl, hlate⟩

/-- Where calls are in time, a listing works exactly if it is not made to fail. -/
theorem run_listLoaded (now : Instant) (intime : ¬ limit < r.latency) :
    (r.run now limit .listLoaded).answer =
      if r.faults.list then .error (.queryFailed "registry did not answer")
      else .ok r.held.keys := by
  obtain ⟨hlate, -, -⟩ | ⟨-, t, hans, -⟩ := run_cases r now limit .listLoaded
  · exact absurd hlate intime
  · rw [hans]
    simp only [effect]
    split <;> rfl

/-- What is loaded was not there before, and is there as good as new. -/
theorem run_load_ok {resource : String} {names : List String}
    (h : (r.run now limit (.load resource)).answer = .ok names) :
    r.held.find? resource = none ∧ ∃ t,
      (r.run now limit (.load resource)).registry.held = r.held.insert resource (.fresh t) := by
  obtain ⟨-, hans, -⟩ | ⟨-, t, hans, hheld⟩ := run_cases r now limit (.load resource)
  · rw [hans] at h
    cases h
  · rw [hheld]
    rw [hans] at h
    simp only [effect] at h ⊢
    by_cases hf : resource ∈ r.faults.loads
    · simp [hf] at h
    · by_cases hc : r.held.contains resource = true
      · simp [hf, hc] at h
      · refine ⟨?_, t, by simp [hf, hc]⟩
        exact not_mem_loaded_iff.1 fun hm => hc (SortedMap.contains_iff_mem_keys.2 hm)

/-- What is loaded does not refuse to be. -/
theorem willing_of_run_load {resource : String} {names : List String}
    (h : (r.run now limit (.load resource)).answer = .ok names) : resource ∉ r.faults.loads := by
  intro hf
  obtain ⟨-, hans, -⟩ | ⟨-, t, hans, -⟩ := run_cases r now limit (.load resource)
  · rw [hans] at h
    cases h
  · rw [hans, effect, if_pos hf] at h
    cases h

/-- A resource that is as good as new and ready does not stall. -/
theorem not_stalled_of_ready {resource : String} {t : Instant}
    (h : r.held.find? resource = some (.fresh t))
    (ready : (r.stateAt now resource).isReady = true) : resource ∉ r.faults.stalls := by
  intro hstalls
  rw [stateAt, h] at ready
  simp [Held.fresh, hstalls, ResourceState.isReady] at ready

/-- Where calls are in time, a resource that is not there and does not refuse is loaded, at the
moment at which the call ends. -/
theorem run_load {resource : String} (now : Instant) (intime : ¬ limit < r.latency)
    (willing : resource ∉ r.faults.loads) (new : resource ∉ r.loaded) :
    (r.run now limit (.load resource)).answer = .ok [] ∧
      (r.run now limit (.load resource)).registry.held =
        r.held.insert resource (.fresh (now.after (r.wait limit))) := by
  have hnew : r.held.contains resource = false :=
    Bool.eq_false_iff.2 fun hc => new (SortedMap.contains_iff_mem_keys.1 hc)
  simp [run, perform, enter, leave, effect, intime, willing, hnew]

/-- A load that fails changes nothing. -/
theorem run_load_error {resource : String} {e : RegistryError}
    (h : (r.run now limit (.load resource)).answer = .error e) :
    (r.run now limit (.load resource)).registry.held = r.held := by
  obtain ⟨-, -, hheld⟩ | ⟨-, t, hans, hheld⟩ := run_cases r now limit (.load resource)
  · exact hheld
  · rw [hheld]
    rw [hans] at h
    simp only [effect] at h ⊢
    by_cases hf : resource ∈ r.faults.loads
    · simp [hf]
    · by_cases hc : r.held.contains resource = true
      · simp [hf, hc]
      · simp [hf, hc] at h

/-- Where calls are in time, unloading works exactly if it is not made to fail, and then it unloads
what it was asked to. -/
theorem run_unload (now : Instant) (intime : ¬ limit < r.latency) (resources : List String) :
    (r.run now limit (.unload resources)).answer =
        (if r.faults.unload then .error (.unloadFailed (", ".intercalate resources)) else .ok []) ∧
      (r.run now limit (.unload resources)).registry.held =
        (if r.faults.unload then r.held else resources.foldl .erase r.held) := by
  obtain ⟨hlate, -, -⟩ | ⟨-, t, hans, hheld⟩ := run_cases r now limit (.unload resources)
  · exact absurd hlate intime
  · rw [hans, hheld]
    simp only [effect]
    split <;> exact ⟨rfl, rfl⟩

/-- Unloading that fails changes nothing. -/
theorem run_unload_error {resources : List String} {e : RegistryError}
    (h : (r.run now limit (.unload resources)).answer = .error e) :
    (r.run now limit (.unload resources)).registry.held = r.held := by
  obtain ⟨-, -, hheld⟩ | ⟨-, t, hans, hheld⟩ := run_cases r now limit (.unload resources)
  · exact hheld
  · rw [hheld]
    rw [hans] at h
    simp only [effect] at h ⊢
    split at h
    · rw [if_pos ‹_›]
    · cases h

/-- Where calls are in time, a purge works exactly if unloading is not made to fail, and then it
leaves nothing. -/
theorem run_purge (now : Instant) (intime : ¬ limit < r.latency) :
    (r.run now limit .purge).answer =
        (if r.faults.unload then .error (.unloadFailed "purge") else .ok []) ∧
      (r.run now limit .purge).registry.held = (if r.faults.unload then r.held else ∅) := by
  obtain ⟨hlate, -, -⟩ | ⟨-, t, hans, hheld⟩ := run_cases r now limit .purge
  · exact absurd hlate intime
  · rw [hans, hheld]
    simp only [effect]
    split <;> exact ⟨rfl, rfl⟩

/-- Where calls are in time, stopping controllers works exactly if it is not made to fail. -/
theorem run_stopControllers (now : Instant) (intime : ¬ limit < r.latency)
    (resources : List String) :
    (r.run now limit (.stopControllers resources)).answer =
      if r.faults.stop then .error (.stopFailed (", ".intercalate resources)) else .ok [] := by
  obtain ⟨hlate, -, -⟩ | ⟨-, t, hans, -⟩ := run_cases r now limit (.stopControllers resources)
  · exact absurd hlate intime
  · rw [hans]
    simp only [effect]
    split <;> rfl

/-- Stopping controllers leaves everything loaded, and says nothing of other resources. -/
theorem run_stopControllers_find? (r : SimRegistry) (now : Instant) (limit : Duration)
    (resources : List String) {key : String}
    (other : key ∉ resources) :
    (r.run now limit (.stopControllers resources)).registry.held.find? key =
      r.held.find? key := by
  obtain ⟨-, -, hheld⟩ | ⟨-, t, -, hheld⟩ := run_cases r now limit (.stopControllers resources)
  · rw [hheld]
  · rw [hheld]
    simp only [effect]
    split
    · rfl
    · exact SortedMap.find?_foldl_modify_of_not_mem _ _ other

@[simp] theorem run_stopControllers_loaded (r : SimRegistry) (now : Instant) (limit : Duration)
    (resources : List String) :
    (r.run now limit (.stopControllers resources)).registry.loaded = r.loaded := by
  apply NameSet.ext_mem
  intro key
  have hkeys : (r.run now limit (.stopControllers resources)).registry.held.keys = r.held.keys := by
    obtain ⟨-, -, hheld⟩ | ⟨-, t, -, hheld⟩ := run_cases r now limit (.stopControllers resources)
    · rw [hheld]
    · rw [hheld]
      simp only [effect]
      split
      · rfl
      · exact SortedMap.keys_foldl_modify _ _ _
  rw [loaded, loaded, SortedMap.mem_keySet, SortedMap.mem_keySet, hkeys]

end SimRegistry

end ControlRig
