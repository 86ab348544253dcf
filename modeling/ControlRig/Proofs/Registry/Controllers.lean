import ControlRig.Proofs.Registry.Calls

/-!
# What starting controllers comes to

Starting walks over resources and, on each of them, over the declared controllers; what it does to
one controller depends on what runs already, on the injected faults and on the strictness. This file
says what is there in the end, **without the walk**: on each resource runs what was declared and
either ran before or is not made to fail, and what was skipped is the rest of the declaration
(`mem_startOn_running`, `startOn_skipped`). That the walk visits each resource once is where
`Nodup` comes in; a configuration's resources are a set, so its callers have it for free.

Nothing here needs the start to have been successful except where a lemma says so by `failed = none`
or `error = none`. In particular no controller is ever started twice (`startAll_nodup`).
-/

namespace ControlRig

/-! ## What is declared -/

namespace Configuration

/-- The controllers that a configuration declares for a resource, in the order of declaration. -/
def declared (c : Configuration) (resource : String) : List String :=
  (c.controllers resource).map (·.id)

/-- The controllers that are declared for a resource; none without a configuration. -/
def declaredBy (c : Option Configuration) (resource : String) : List String :=
  c.elim [] (·.declared resource)

end Configuration

namespace SimRegistry

variable {faults : Faults} {configuration : Configuration} {strictness : Strictness}

/-! ## One resource -/

section

variable {fails : String → Bool}

/-- A best-effort start never gives up. -/
theorem startDeclared_bestEffort (declared : List Controller) (running : List String) :
    (startDeclared fails .bestEffort declared running).failed = none := by
  induction declared generalizing running with
  | nil => rfl
  | cons c rest ih =>
    unfold startDeclared
    split
    · exact ih running
    · split
      · exact ih running
      · exact ih _

/-- Where no declared controller is made to fail, no start gives up. -/
theorem startDeclared_willing {declared : List Controller}
    (willing : ∀ c ∈ declared, fails c.id = false) (running : List String) :
    (startDeclared fails strictness declared running).failed = none := by
  induction declared generalizing running with
  | nil => rfl
  | cons c rest ih =>
    have hrest : ∀ c ∈ rest, fails c.id = false :=
      fun c hc => willing c (List.mem_cons_of_mem _ hc)
    unfold startDeclared
    rw [willing c List.mem_cons_self, if_neg Bool.false_ne_true]
    split
    · exact ih hrest running
    · exact ih hrest _

/-- A strict start skips nothing. -/
theorem startDeclared_strict (declared : List Controller) (running : List String) :
    (startDeclared fails .strict declared running).skipped = [] := by
  induction declared generalizing running with
  | nil => rfl
  | cons c rest ih =>
    unfold startDeclared
    split
    · exact ih running
    · split
      · rfl
      · exact ih _

/-- Nothing is started that runs already. -/
theorem startDeclared_nodup (declared : List Controller) {running : List String}
    (h : running.Nodup) : (startDeclared fails strictness declared running).running.Nodup := by
  induction declared generalizing running with
  | nil => exact h
  | cons c rest ih =>
    unfold startDeclared
    by_cases hrun : c.id ∈ running
    · rw [if_pos (List.contains_iff_mem.2 hrun)]
      exact ih h
    · rw [if_neg fun hc => hrun (List.contains_iff_mem.1 hc)]
      by_cases hf : fails c.id = true
      · rw [if_pos hf]
        cases strictness with
        | strict => exact h
        | bestEffort => exact ih h
      · rw [if_neg hf]
        apply ih
        refine List.nodup_append.2 ⟨h, by simp, ?_⟩
        rintro a ha b hb rfl
        exact hrun (List.mem_singleton.1 hb ▸ ha)

/-- What runs after a start that did not give up. -/
theorem mem_startDeclared_running {declared : List Controller} {running : List String} (id : String)
    (h : (startDeclared fails strictness declared running).failed = none) :
    id ∈ (startDeclared fails strictness declared running).running ↔
      id ∈ running ∨ (id ∈ declared.map (·.id) ∧ fails id = false) := by
  induction declared generalizing running with
  | nil => simp [startDeclared]
  | cons c rest ih =>
    unfold startDeclared at h ⊢
    rw [List.map_cons, List.mem_cons]
    -- the controller runs already, or it is made to fail, or it is started
    by_cases hrun : c.id ∈ running
    · simp only [List.contains_iff_mem.2 hrun, if_true] at h ⊢
      rw [ih h]
      constructor
      · rintro (hin | ⟨hin, hf⟩)
        · exact .inl hin
        · exact .inr ⟨.inr hin, hf⟩
      · rintro (hin | ⟨rfl | hin, hf⟩)
        · exact .inl hin
        · exact .inl hrun
        · exact .inr ⟨hin, hf⟩
    · have hcon : running.contains c.id = false := by simpa using hrun
      cases hf : fails c.id with
      | true =>
        simp only [hcon, hf, if_true, Bool.false_eq_true, if_false] at h ⊢
        cases strictness with
        | strict => simp at h
        | bestEffort =>
          rw [ih h]
          constructor
          · rintro (hin | ⟨hin, hid⟩)
            · exact .inl hin
            · exact .inr ⟨.inr hin, hid⟩
          · rintro (hin | ⟨rfl | hin, hid⟩)
            · exact .inl hin
            · rw [hf] at hid
              cases hid
            · exact .inr ⟨hin, hid⟩
      | false =>
        simp only [hcon, hf, Bool.false_eq_true, if_false] at h ⊢
        rw [ih h, List.mem_append, List.mem_singleton]
        constructor
        · rintro ((hin | rfl) | ⟨hin, hid⟩)
          · exact .inl hin
          · exact .inr ⟨.inl rfl, hf⟩
          · exact .inr ⟨.inr hin, hid⟩
        · rintro (hin | ⟨rfl | hin, hid⟩)
          · exact .inl (.inl hin)
          · exact .inl (.inr rfl)
          · exact .inr ⟨hin, hid⟩

/-- What a start that did not give up has skipped: the declared controllers that do not run now. -/
theorem startDeclared_skipped {declared : List Controller} {running : List String}
    (h : (startDeclared fails strictness declared running).failed = none) :
    (startDeclared fails strictness declared running).skipped =
      (declared.map (·.id)).filter fun id =>
        id ∉ (startDeclared fails strictness declared running).running := by
  induction declared generalizing running with
  | nil => rfl
  | cons c rest ih =>
    have hself := mem_startDeclared_running c.id h
    rw [List.map_cons, List.filter_cons]
    unfold startDeclared at h hself ⊢
    by_cases hrun : c.id ∈ running
    · simp only [List.contains_iff_mem.2 hrun, if_true] at h hself ⊢
      have hin := hself.2 (.inl hrun)
      simp only [hin, not_true, decide_false, Bool.false_eq_true, if_false]
      exact ih h
    · have hcon : running.contains c.id = false := by simpa using hrun
      cases hf : fails c.id with
      | true =>
        simp only [hcon, hf, if_true, Bool.false_eq_true, if_false] at h hself ⊢
        cases strictness with
        | strict => simp at h
        | bestEffort =>
          have hout : c.id ∉ (startDeclared fails .bestEffort rest running).running := by
            rw [hself]
            simp [hrun]
          simp only [hout, not_false_eq_true, decide_true, if_true]
          rw [ih h]
      | false =>
        simp only [hcon, hf, Bool.false_eq_true, if_false] at h hself ⊢
        have hin := hself.2 (.inr ⟨List.mem_cons_self, trivial⟩)
        simp only [hin, not_true, decide_false, Bool.false_eq_true, if_false]
        exact ih h

end

/-- The controllers that run on a resource after a start that did not give up: of those declared,
the ones that ran before and the ones that are not made to fail. -/
theorem mem_startOn_running {resource id : String} {running : List String}
    (h : (startOn faults configuration strictness resource running).failed = none) :
    id ∈ (startOn faults configuration strictness resource running).running ↔
      id ∈ configuration.declared resource ∧
        (id ∈ running ∨ controllerName resource id ∉ faults.controllers) := by
  unfold startOn at h ⊢
  rw [mem_startDeclared_running id h]
  have hdecl : (configuration.controllers resource).any (fun c => decide (c.id = id)) = true ↔
      id ∈ configuration.declared resource := by
    simp [Configuration.declared]
  rw [List.mem_filter, hdecl, ← Configuration.declared, decide_eq_false_iff_not]
  constructor
  · rintro (⟨hrun, hd⟩ | ⟨hd, hf⟩)
    · exact ⟨hd, .inl hrun⟩
    · exact ⟨hd, .inr hf⟩
  · rintro ⟨hd, hrun | hf⟩
    · exact .inl ⟨hrun, hd⟩
    · exact .inr ⟨hd, hf⟩

theorem startOn_skipped {resource : String} {running : List String}
    (h : (startOn faults configuration strictness resource running).failed = none) :
    (startOn faults configuration strictness resource running).skipped =
      (configuration.declared resource).filter fun id =>
        id ∉ (startOn faults configuration strictness resource running).running :=
  startDeclared_skipped h

/-- A start does not give up on a resource if it is a best-effort start or has nothing to give up
for. -/
theorem startOn_failed {resource : String} (running : List String)
    (willing : strictness = .bestEffort ∨
      ∀ id ∈ configuration.declared resource, controllerName resource id ∉ faults.controllers) :
    (startOn faults configuration strictness resource running).failed = none := by
  unfold startOn
  rcases willing with rfl | hwilling
  · exact startDeclared_bestEffort _ _
  · exact startDeclared_willing
      (fun c hc => decide_eq_false (hwilling c.id (List.mem_map_of_mem hc))) _

theorem startOn_nodup (resource : String) {running : List String} (h : running.Nodup) :
    (startOn faults configuration strictness resource running).running.Nodup :=
  startDeclared_nodup _ (h.filter _)

/-! ## Several resources -/

/-- The controllers that run on a resource, among those held. -/
def runningIn (held : SortedMap Held) (resource : String) : List String :=
  ((held.find? resource).map (·.controllers)).getD []

theorem running_eq (r : SimRegistry) (resource : String) :
    r.running resource = runningIn r.held resource := rfl

/-- Where nothing runs, nothing runs once controllers have been stopped. -/
theorem runningIn_foldl_stop (names : List String) {held : SortedMap Held} {resource : String}
    (h : runningIn held resource = []) :
    runningIn (names.foldl (fun held resource =>
      held.modify resource fun h => { h with controllers := [] }) held) resource = [] := by
  induction names generalizing held with
  | nil => exact h
  | cons n rest ih =>
    refine ih ?_
    rw [runningIn]
    by_cases hn : n = resource
    · subst hn
      rw [SortedMap.find?_modify_self]
      cases held.find? n <;> rfl
    · rw [SortedMap.find?_modify_of_ne _ hn]
      exact h

/-- A start leaves other resources as they were, successful or not. -/
theorem startAll_find?_of_not_mem (names : List String) {held : SortedMap Held} {resource : String}
    (h : resource ∉ names) :
    (startAll faults configuration strictness names held).held.find? resource =
      held.find? resource := by
  induction names generalizing held with
  | nil => rfl
  | cons n rest ih =>
    have hne : n ≠ resource := fun heq => h (heq ▸ List.mem_cons_self)
    have hrest : resource ∉ rest := fun hm => h (List.mem_cons_of_mem _ hm)
    unfold startAll
    cases hx : held.find? n with
    | none => rfl
    | some x =>
      dsimp only
      split
      · exact SortedMap.find?_insert_of_ne _ hne _
      · exact (ih hrest).trans (SortedMap.find?_insert_of_ne _ hne _)

/-- A start loads nothing and unloads nothing, successful or not. -/
theorem startAll_isSome (faults : Faults) (configuration : Configuration) (strictness : Strictness)
    (names : List String) (held : SortedMap Held) (resource : String) :
    ((startAll faults configuration strictness names held).held.find? resource).isSome =
      (held.find? resource).isSome := by
  induction names generalizing held with
  | nil => rfl
  | cons n rest ih =>
    unfold startAll
    cases hx : held.find? n with
    | none => rfl
    | some x =>
      have hins : ∀ y,
          ((held.insert n y).find? resource).isSome = (held.find? resource).isSome := by
        intro y
        by_cases hn : n = resource
        · subst hn
          rw [SortedMap.find?_insert_self, hx]
          rfl
        · rw [SortedMap.find?_insert_of_ne _ hn]
      dsimp only
      split
      · exact hins _
      · exact (ih _).trans (hins _)

/-- No start makes a controller run twice, successful or not. -/
theorem startAll_nodup (names : List String) {held : SortedMap Held}
    (h : ∀ resource, (runningIn held resource).Nodup) (resource : String) :
    (runningIn (startAll faults configuration strictness names held).held resource).Nodup := by
  induction names generalizing held with
  | nil => exact h resource
  | cons n rest ih =>
    unfold startAll
    cases hx : held.find? n with
    | none => exact h resource
    | some x =>
      have hn : x.controllers.Nodup := by
        have := h n
        rwa [runningIn, hx] at this
      have hins : ∀ other, (runningIn (held.insert n { x with controllers :=
          (startOn faults configuration strictness n x.controllers).running }) other).Nodup := by
        intro other
        by_cases ho : n = other
        · subst ho
          rw [runningIn, SortedMap.find?_insert_self]
          exact startOn_nodup n hn
        · rw [runningIn, SortedMap.find?_insert_of_ne _ ho]
          exact h other
      dsimp only
      split
      · exact hins resource
      · exact ih hins

/-- What the first resource of a successful start was, and what was left to be done. -/
theorem startAll_cons_ok {resource : String} {rest : List String} {held : SortedMap Held}
    (h : (startAll faults configuration strictness (resource :: rest) held).error = none) :
    ∃ x started, held.find? resource = some x ∧
      started = startOn faults configuration strictness resource x.controllers ∧
      started.failed = none ∧
      startAll faults configuration strictness (resource :: rest) held =
        let more := startAll faults configuration strictness rest
          (held.insert resource { x with controllers := started.running })
        { more with skipped := started.skipped.map (resource, ·) ++ more.skipped } := by
  simp only [startAll] at h ⊢
  cases hx : held.find? resource with
  | none => simp [hx] at h
  | some x =>
    simp only [hx] at h ⊢
    refine ⟨x, _, rfl, rfl, ?_⟩
    cases hf : (startOn faults configuration strictness resource x.controllers).failed with
    | some id => simp [hf] at h
    | none => exact ⟨rfl, rfl⟩

/-- A successful start finds every resource and gives up on none. Each is found as it was in the
beginning, because the walk visits it once. -/
theorem startAll_find? {names : List String} {held : SortedMap Held} (nodup : names.Nodup)
    (h : (startAll faults configuration strictness names held).error = none) {resource : String}
    (mem : resource ∈ names) :
    ∃ x, held.find? resource = some x ∧
      (startOn faults configuration strictness resource x.controllers).failed = none ∧
      (startAll faults configuration strictness names held).held.find? resource =
        some { x with controllers :=
          (startOn faults configuration strictness resource x.controllers).running } := by
  induction names generalizing held with
  | nil => simp at mem
  | cons n rest ih =>
    have hn : n ∉ rest := (List.nodup_cons.1 nodup).1
    have hrest : rest.Nodup := (List.nodup_cons.1 nodup).2
    obtain ⟨x, started, hx, rfl, hfail, heq⟩ := startAll_cons_ok h
    rw [heq] at h ⊢
    rcases List.mem_cons.1 mem with rfl | hm
    · -- the rest of the walk does not come back to this resource
      refine ⟨x, hx, hfail, ?_⟩
      exact (startAll_find?_of_not_mem rest hn).trans (SortedMap.find?_insert_self _ _ _)
    · have hne : n ≠ resource := fun he => hn (he ▸ hm)
      obtain ⟨y, hy, hrun⟩ := ih hrest h hm
      rw [SortedMap.find?_insert_of_ne _ hne] at hy
      exact ⟨y, hy, hrun⟩

/-- A start of loaded resources, none of which it gives up on, is successful. -/
theorem startAll_error {names : List String} {held : SortedMap Held}
    (there : ∀ resource ∈ names, (held.find? resource).isSome)
    (willing : strictness = .bestEffort ∨ ∀ resource ∈ names,
      ∀ id ∈ configuration.declared resource, controllerName resource id ∉ faults.controllers) :
    (startAll faults configuration strictness names held).error = none := by
  induction names generalizing held with
  | nil => rfl
  | cons n rest ih =>
    obtain ⟨x, hx⟩ := Option.isSome_iff_exists.1 (there n List.mem_cons_self)
    have hon : (startOn faults configuration strictness n x.controllers).failed = none :=
      startOn_failed _ (willing.imp_right fun hw => hw n List.mem_cons_self)
    unfold startAll
    rw [hx]
    dsimp only
    rw [hon]
    dsimp only
    apply ih
    · intro resource hm
      by_cases hn : n = resource
      · subst hn
        rw [SortedMap.find?_insert_self]
        rfl
      · rw [SortedMap.find?_insert_of_ne _ hn]
        exact there resource (List.mem_cons_of_mem _ hm)
    · exact willing.imp_right fun hw resource hm => hw resource (List.mem_cons_of_mem _ hm)

/-- What a successful start has skipped: resource by resource, the declared controllers that do not
run now. -/
theorem startAll_skipped {names : List String} {held : SortedMap Held} (nodup : names.Nodup)
    (h : (startAll faults configuration strictness names held).error = none) :
    (startAll faults configuration strictness names held).skipped =
      names.flatMap fun resource =>
        ((configuration.declared resource).filter fun id =>
          id ∉ runningIn (startAll faults configuration strictness names held).held resource).map
            (resource, ·) := by
  induction names generalizing held with
  | nil => rfl
  | cons n rest ih =>
    have hn : n ∉ rest := (List.nodup_cons.1 nodup).1
    have hrest : rest.Nodup := (List.nodup_cons.1 nodup).2
    obtain ⟨x, started, hx, rfl, hfail, heq⟩ := startAll_cons_ok h
    rw [heq] at h ⊢
    have hnow : runningIn (startAll faults configuration strictness rest (held.insert n
        { x with controllers :=
          (startOn faults configuration strictness n x.controllers).running })).held n =
        (startOn faults configuration strictness n x.controllers).running := by
      rw [runningIn, startAll_find?_of_not_mem rest hn, SortedMap.find?_insert_self]
      rfl
    dsimp only at h ⊢
    rw [List.flatMap_cons, ih hrest h, startOn_skipped hfail, hnow]

/-- A strict start that is successful has skipped nothing. -/
theorem startAll_strict {names : List String} {held : SortedMap Held}
    (h : (startAll faults configuration .strict names held).error = none) :
    (startAll faults configuration .strict names held).skipped = [] := by
  induction names generalizing held with
  | nil => rfl
  | cons n rest ih =>
    obtain ⟨x, started, -, rfl, -, heq⟩ := startAll_cons_ok h
    rw [heq] at h ⊢
    dsimp only at h ⊢
    rw [ih h, startOn, startDeclared_strict]
    rfl

/-! ## The call -/

variable {r : SimRegistry} {now : Instant} {limit : Duration}

/-- Stopping controllers starts none. -/
theorem run_stopControllers_running (r : SimRegistry) (now : Instant) (limit : Duration)
    (resources : List String) {resource : String} (h : r.running resource = []) :
    (r.run now limit (.stopControllers resources)).registry.running resource = [] := by
  obtain ⟨-, -, hheld⟩ | ⟨-, t, -, hheld⟩ := run_cases r now limit (.stopControllers resources)
  · rw [running_eq, hheld]
    exact h
  · rw [running_eq, hheld]
    simp only [effect]
    split
    · exact h
    · exact runningIn_foldl_stop resources h

/-- Starting loads nothing and unloads nothing. -/
@[simp] theorem run_startControllers_loaded (r : SimRegistry) (now : Instant) (limit : Duration)
    (resources : List String) (configuration : Configuration) (strictness : Strictness) :
    (r.run now limit (.startControllers resources configuration strictness)).registry.loaded =
      r.loaded := by
  apply NameSet.ext_mem
  intro key
  rw [mem_loaded_iff, mem_loaded_iff]
  obtain ⟨-, -, hheld⟩ | ⟨-, t, -, hheld⟩ :=
    run_cases r now limit (.startControllers resources configuration strictness)
  · rw [hheld]
  · rw [hheld, ← startAll_isSome r.faults configuration strictness resources r.held key]
    simp only [effect]
    split <;> rfl

/-- Where calls are in time, a start of loaded resources that it does not give up on is successful.
-/
theorem run_startControllers {resources : List String} (now : Instant)
    (intime : ¬ limit < r.latency) (there : ∀ resource ∈ resources, resource ∈ r.loaded)
    (willing : strictness = .bestEffort ∨ ∀ resource ∈ resources,
      ∀ id ∈ configuration.declared resource, controllerName resource id ∉ r.faults.controllers) :
    ∃ skipped, (r.run now limit (.startControllers resources configuration strictness)).answer =
      .ok skipped := by
  have herror := startAll_error (fun resource hm => mem_loaded_iff.1 (there resource hm)) willing
  obtain ⟨hlate, -, -⟩ | ⟨-, t, hans, -⟩ :=
    run_cases r now limit (.startControllers resources configuration strictness)
  · exact absurd hlate intime
  · rw [hans]
    simp only [effect]
    rw [herror]
    exact ⟨_, rfl⟩

/-- A start that is answered with names has gone through without an error, and skipped these. -/
theorem run_startControllers_ok {resources names : List String}
    (h : (r.run now limit (.startControllers resources configuration strictness)).answer =
      .ok names) :
    (startAll r.faults configuration strictness resources r.held).error = none ∧
      (r.run now limit (.startControllers resources configuration strictness)).registry.held =
        (startAll r.faults configuration strictness resources r.held).held ∧
      names = (startAll r.faults configuration strictness resources r.held).skipped.map
        fun (resource, id) => controllerName resource id := by
  obtain ⟨-, hans, -⟩ | ⟨-, t, hans, hheld⟩ :=
    run_cases r now limit (.startControllers resources configuration strictness)
  · rw [hans] at h
    cases h
  · rw [hheld]
    rw [hans] at h
    simp only [effect] at h ⊢
    cases he : (startAll r.faults configuration strictness resources r.held).error with
    | some e => simp [he] at h
    | none =>
      simp only [he, Except.ok.injEq] at h
      exact ⟨rfl, rfl, h.symm⟩

end SimRegistry

end ControlRig
