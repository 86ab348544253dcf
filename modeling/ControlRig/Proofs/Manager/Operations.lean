import ControlRig.Manager.Monitor
import ControlRig.Proofs.Manager.Failure
import ControlRig.Proofs.Rig.Continuation
import ControlRig.Proofs.Rig.Hush

/-!
# What an operation comes to

Where no collaborator crashes, every operation of the manager comes to an outcome, and there are
only two kinds of what it does on the way. It may look around and leave the registry, the memory and
the parameters as they are (`Rig.Alike`), the catalog apart when it is read again. Or **it carries
out one transition, and takes note of it exactly if that succeeds** (`Manager.Transits`).

There is one lemma for each operation. Whoever has to know what an operation does to the manager
cites it, and what a transition does to a registry is found in the files on transitions.
-/

namespace ControlRig

/-! ## Looking around -/

namespace Rig

/-- Rigs that are alike in everything that an operation can change for others. -/
structure Alike (rig after : Rig) : Prop where
  registry : after.registry = rig.registry
  memory : after.memory = rig.memory
  params : after.params = rig.params
  armed : after.armed = rig.armed

theorem Alike.refl (rig : Rig) : rig.Alike rig := ⟨rfl, rfl, rfl, rfl⟩

theorem Alike.trans {a b c : Rig} (hab : a.Alike b) (hbc : b.Alike c) : a.Alike c :=
  ⟨hbc.registry.trans hab.registry, hbc.memory.trans hab.memory, hbc.params.trans hab.params,
    hbc.armed.trans hab.armed⟩

theorem Alike.calm {rig after : Rig} (h : rig.Alike after) (calm : rig.armed = ∅) :
    after.armed = ∅ :=
  h.armed.trans calm

theorem alike_note (rig : Rig) (level : Level) (message : String) :
    rig.Alike (rig.note level message) :=
  ⟨rfl, rfl, rfl, rfl⟩

/-- Where only the log and the cue for the end of the monitor differ, nothing has changed for
others. -/
theorem alike_of_hushed {rig after : Rig} (h : after.hushed = rig.hushed) : rig.Alike after := by
  refine ⟨?_, ?_, ?_, ?_⟩
  · exact (congrArg Rig.registry h :)
  · exact (congrArg Rig.memory h :)
  · exact (congrArg Rig.params h :)
  · exact (congrArg Rig.armed h :)

/-- The registry holds what is active, and nothing else. -/
def InStep (rig : Rig) : Prop :=
  Configuration.resourcesOf rig.memory.active = rig.registry.loaded

instance (rig : Rig) : Decidable rig.InStep := inferInstanceAs (Decidable (_ = _))

end Rig

/-- What is logged makes no difference. -/
theorem Procedure.exists_run_log {β : Type} {rig : Rig} {level : Level} {message : String}
    {f : Unit → Procedure β} {Q : β → Rig → Prop}
    (h : ∀ noted, rig.Alike noted → ∃ b after, (f ()).run noted = (some b, after) ∧ Q b after) :
    ∃ b after, (of (.log level message) >>= f).run rig = (some b, after) ∧ Q b after :=
  exists_run_bind rfl (h _ (rig.alike_note level message))

/-- A rig whose manager's lock has just been taken. -/
def Rig.entered (rig : Rig) : Rig :=
  if rig.crashed then
    rig.note .warn "manager lock was poisoned by a panicking request; recovering"
  else rig

theorem Rig.hushed_entered (rig : Rig) : rig.entered.hushed = rig.hushed := by
  unfold entered
  split
  · exact rig.hushed_note _ _
  · rfl

theorem Rig.alike_entered (rig : Rig) : rig.Alike rig.entered := alike_of_hushed rig.hushed_entered

/-- A step comes to a value under the lock if it comes to it once the lock has been taken. -/
theorem Procedure.run_withLock_iff {α : Type} {step : ManagerState → Procedure α}
    {rig after : Rig} {a : α} : (withLock step).run rig = (some a, after) ↔
      (step rig.memory).run rig.entered = (some a, after) := by
  have htaken : (withLock step).run rig = (guarded (step rig.memory)).run rig.entered := by
    rw [withLock_eq]
    unfold Rig.entered
    show ((if rig.crashed then _ else _) >>= fun _ => guarded (step rig.memory)).run rig = _
    split <;> rfl
  rw [htaken]
  unfold guarded
  rw [run_bind, run_attempt]
  cases (step rig.memory).run rig.entered with
  | mk result mid =>
    cases result with
    | none => exact iff_of_false nofun nofun
    | some b =>
      -- giving the lock back leaves it unmarked if it was
      show (some b, { mid with crashed := mid.crashed || false }) = _ ↔ _
      rw [Bool.or_false]

theorem Procedure.run_withLock {α : Type} {step : ManagerState → Procedure α} {rig after : Rig}
    {a : α} (h : (step rig.memory).run rig.entered = (some a, after)) :
    (withLock step).run rig = (some a, after) :=
  run_withLock_iff.2 h

/-- A transition does not ask whether the monitor is to end. -/
theorem Transition.run_heedless (options : Options) (active target : Option Configuration)
    (strictness : Strictness) (limit : Duration) :
    (run options active target strictness limit).Composed Action.Heedless := by
  have hwatches : ∀ action : Action, action.Watches → action.Heedless := by
    intro action hwatches
    cases action <;> trivial
  have hparts : Parts (Procedure.Composed Action.Heedless) :=
    { Procedure.compositional_composed Action.Heedless with
      call := fun _ _ => .of _ trivial
      hasEntry := fun _ => .of _ trivial
      log := fun _ _ => .of _ trivial
      verification := fun options resources =>
        (Verification.run_passive options resources).mono hwatches }
  exact hparts.run options target strictness limit active

/-! ## Taking note -/

/-- A rig after its manager has taken note of a transition. -/
def Rig.committed (rig : Rig) (m : Manager) (state : ManagerState)
    (active : Option Configuration) : Rig :=
  Rig.publish { rig with memory := state.commit active rig.clock } m.settings.statusKey
    (ManagerState.statusText (active.map (·.name)))

namespace Manager

open Procedure

variable (m : Manager) {rig begin : Rig}

theorem run_commit (calm : rig.armed = ∅) (state : ManagerState) (active : Option Configuration) :
    (m.commit state active).run rig = (some (), rig.committed m state active) := by
  have hcalm : Rig.armed { rig with memory := state.commit active rig.clock } = ∅ := calm
  exact run_bind_some.2 ⟨rig.clock, rig, rfl,
    run_bind_some.2 ⟨(), { rig with memory := state.commit active rig.clock }, rfl,
      run_of_calm hcalm (.publish _ _)⟩⟩

/-- **A transition has been carried out for a manager**, from its active configuration to a target.
Messages apart, all that follows is that the manager takes note of it if it has succeeded. -/
inductive Transits (m : Manager) (rig : Rig) (target : Option Configuration)
    (strictness : Strictness) : Except ManagerError TransitionRecord → Rig → Prop
  | failed {begin mid after : Rig} {e : ManagerError} : rig.Alike begin →
      (Transition.run m.settings.transitionOptions rig.memory.active target strictness
        m.settings.requestTimeout).run begin = (some (.error e), mid) →
      mid.Alike after → Transits m rig target strictness (.error e) after
  | settled {begin mid after : Rig} {record : TransitionRecord} : rig.Alike begin →
      (Transition.run m.settings.transitionOptions rig.memory.active target strictness
        m.settings.requestTimeout).run begin = (some (.ok record), mid) →
      (mid.committed m rig.memory target).Alike after →
      Transits m rig target strictness (.ok record) after

variable {m}

/-- What is alike before and after makes no difference. -/
theorem Transits.alike {target : Option Configuration} {strictness : Strictness}
    {outcome : Except ManagerError TransitionRecord} {mid after : Rig} (before : rig.Alike begin)
    (h : m.Transits begin target strictness outcome mid) (later : mid.Alike after) :
    m.Transits rig target strictness outcome after := by
  cases h with
  | failed hbefore hrun hafter =>
    rw [before.memory] at hrun
    exact .failed (before.trans hbefore) hrun (hafter.trans later)
  | settled hbefore hrun hafter =>
    rw [before.memory] at hrun hafter
    exact .settled (before.trans hbefore) hrun (hafter.trans later)

/-- A transition comes to an outcome, with the memory and the parameters as they were. -/
theorem run_transition (calm : rig.armed = ∅) (options : Transition.Options)
    (active target : Option Configuration) (strictness : Strictness) (limit : Duration) :
    ∃ outcome mid, (Transition.run options active target strictness limit).run rig =
      (some outcome, mid) ∧ rig.Continues mid := by
  obtain ⟨outcome, seen, mid, hrun, -, -, hcontinues⟩ :=
    (Transition.run_composed options target strictness limit active).carriedOut calm
  exact ⟨outcome, mid, hrun, hcontinues⟩

theorem continues_of_transition {options : Transition.Options}
    {active target : Option Configuration} {strictness : Strictness} {limit : Duration}
    {outcome : Except ManagerError TransitionRecord} {mid : Rig} (calm : rig.armed = ∅)
    (h : (Transition.run options active target strictness limit).run rig = (some outcome, mid)) :
    rig.Continues mid := by
  obtain ⟨outcome', mid', hrun, hcontinues⟩ :=
    run_transition calm options active target strictness limit
  rw [h] at hrun
  cases hrun
  exact hcontinues

/-- What a manager that has taken note of a transition remembers, and has published. -/
structure Noted (m : Manager) (rig : Rig) (active : Option Configuration) (after : Rig) :
    Prop where
  memory : ∃ t, after.memory = rig.memory.commit active t
  params : after.params = (rig.params.publish m.settings.statusKey
    (ManagerState.statusText (active.map (·.name)))).1
  calm : after.armed = ∅

/-- After a transition that has succeeded the manager has taken note of it. -/
theorem Transits.noted {target : Option Configuration} {strictness : Strictness}
    {record : TransitionRecord} {after : Rig} (calm : rig.armed = ∅)
    (h : m.Transits rig target strictness (.ok record) after) : m.Noted rig target after := by
  cases h with
  | @settled begin mid after record hbefore hrun hafter =>
    have hcontinues := continues_of_transition (hbefore.calm calm) hrun
    refine ⟨⟨mid.clock, hafter.memory⟩, ?_, hafter.armed.trans ?_⟩
    · rw [hafter.params, ← hbefore.params, ← hcontinues.params]
      rfl
    · exact hcontinues.armed.trans (hbefore.calm calm)

theorem Transits.unwritten {target : Option Configuration} {strictness : Strictness}
    {e : ManagerError} {after : Rig} (calm : rig.armed = ∅)
    (h : m.Transits rig target strictness (.error e) after) :
    rig.Unwritten after ∧ after.armed = ∅ := by
  cases h with
  | failed hbefore hrun hafter =>
    have hcontinues := continues_of_transition (hbefore.calm calm) hrun
    refine ⟨⟨?_, ?_⟩, hafter.armed.trans (hcontinues.armed.trans (hbefore.calm calm))⟩
    · rw [hafter.memory, hcontinues.memory, hbefore.memory]
    · rw [hafter.params, hcontinues.params, hbefore.params]

/-! ## Requests -/

/-- The lock has been taken, and the active configuration is stopped. -/
theorem run_stopLocked (calm : rig.armed = ∅) (before : rig.Alike begin)
    (strictness : Strictness) :
    ∃ result after, (m.stopLocked strictness rig.memory).run begin = (some result, after) ∧
      ∃ outcome, result = outcome.map (fun _ => ()) ∧
        m.Transits rig none strictness outcome after := by
  refine exists_run_log fun noted hlogged => ?_
  have hnoted := before.trans hlogged
  obtain ⟨outcome, mid, hrun, hcontinues⟩ := run_transition (hnoted.calm calm)
    m.settings.transitionOptions rig.memory.active none strictness m.settings.requestTimeout
  refine exists_run_bind hrun ?_
  cases outcome with
  | error e =>
    exact exists_run_log fun after hafter =>
      ⟨_, _, rfl, .error e, rfl, .failed hnoted hrun hafter⟩
  | ok record =>
    have hcalm : mid.armed = ∅ := hcontinues.armed.trans (hnoted.calm calm)
    exact exists_run_bind (m.run_commit hcalm rig.memory none)
      ⟨_, _, rfl, .ok record, rfl, .settled hnoted hrun (.refl _)⟩

theorem run_stop (calm : rig.armed = ∅) (strictness : Strictness) :
    ∃ outcome after, (m.stop strictness).run rig = (some (outcome.map fun _ => ()), after) ∧
      m.Transits rig none strictness outcome after := by
  obtain ⟨_, after, hrun, outcome, rfl, htransits⟩ :=
    run_stopLocked calm rig.alike_entered strictness
  exact ⟨outcome, after, run_withLock hrun, htransits⟩

/-- **What a request to start comes to.** Nothing is to be done for what is active, nothing can be
done for what is not in the catalog, and otherwise it is a transition. -/
inductive Starts (m : Manager) (rig : Rig) (name : String) (strictness : Strictness) :
    Except ManagerError (List String) → Rig → Prop
  | active {after : Rig} : rig.memory.activeName = some name → rig.Alike after →
      Starts m rig name strictness (.ok []) after
  | unknown {after : Rig} : rig.memory.activeName ≠ some name →
      rig.memory.catalog.find? name = none → rig.Alike after →
      Starts m rig name strictness (.error (.unknownConfiguration name)) after
  | transits {target : Configuration} {outcome : Except ManagerError TransitionRecord}
      {after : Rig} : rig.memory.activeName ≠ some name →
      rig.memory.catalog.find? name = some target →
      m.Transits rig (some target) strictness outcome after →
      Starts m rig name strictness (outcome.map (·.skippedControllers)) after

theorem run_startLocked (m : Manager) (calm : rig.armed = ∅) (before : rig.Alike begin)
    (number : Nat) (name : String) (strictness : Strictness) :
    ∃ result after, (m.startLocked number name strictness rig.memory).run begin =
        (some result, after) ∧ m.Starts rig name strictness result after := by
  unfold startLocked
  by_cases hactive : rig.memory.activeName = some name
  · rw [if_pos hactive]
    exact ⟨_, _, rfl, .active hactive (before.trans (begin.alike_note _ _))⟩
  · rw [if_neg hactive]
    cases hfind : rig.memory.catalog.find? name with
    | none => exact ⟨_, _, rfl, .unknown hactive hfind before⟩
    | some target =>
      refine exists_run_log fun noted hlogged => ?_
      have hnoted := before.trans hlogged
      obtain ⟨outcome, mid, hrun, hcontinues⟩ := run_transition (hnoted.calm calm)
        m.settings.transitionOptions rig.memory.active (some target) strictness
        m.settings.requestTimeout
      refine exists_run_bind hrun ?_
      cases outcome with
      | error e =>
        exact exists_run_log fun after hafter =>
          ⟨_, _, rfl, .transits hactive hfind (.failed hnoted hrun hafter)⟩
      | ok record =>
        have hcalm : mid.armed = ∅ := hcontinues.armed.trans (hnoted.calm calm)
        refine exists_run_bind (m.run_commit hcalm rig.memory (some target)) ?_
        -- what is said at the end depends on whether something was skipped
        dsimp only
        split
        · exact exists_run_log fun after hafter =>
            ⟨_, _, rfl, .transits hactive hfind (.settled hnoted hrun hafter)⟩
        · exact exists_run_log fun after hafter =>
            ⟨_, _, rfl, .transits hactive hfind (.settled hnoted hrun hafter)⟩

theorem run_start (m : Manager) (calm : rig.armed = ∅) (name : String) (strictness : Strictness) :
    ∃ result after, (m.start name strictness).run rig = (some result, after) ∧
      m.Starts rig name strictness result after := by
  let numbered : Rig := { rig with numbers := rig.numbers + 1 }
  have hnumbered : rig.Alike numbered := ⟨rfl, rfl, rfl, rfl⟩
  obtain ⟨result, after, hrun, hstarts⟩ := m.run_startLocked calm
    (hnumbered.trans numbered.alike_entered) (rig.numbers + 1) name strictness
  exact ⟨result, after, run_bind_some.2 ⟨rig.numbers + 1, numbered, rfl, run_withLock hrun⟩,
    hstarts⟩

/-- The catalog that reading the definitions again makes of them. -/
def reading (m : Manager) (params : ParamTree) (active : Option String) :
    Except CatalogError Catalog :=
  match params.get? m.settings.catalogKey with
  | none => .error (.missingSource m.settings.catalogKey)
  | some source => Catalog.read source active

theorem run_readCatalog (m : Manager) (calm : rig.armed = ∅) (active : Option String) :
    ∃ after, (readCatalog m.settings active).run rig = (some (m.reading rig.params active), after) ∧
      rig.Alike after := by
  have hread : (definitions m.settings.catalogKey).run rig =
      (some (rig.params.get? m.settings.catalogKey), rig) := run_of_calm calm _
  unfold reading
  cases hsource : rig.params.get? m.settings.catalogKey with
  | none =>
    rw [hsource] at hread
    exact ⟨_, run_bind_some.2 ⟨none, rig, hread, rfl⟩, rig.alike_note _ _⟩
  | some source =>
    rw [hsource] at hread
    dsimp only
    cases hcatalog : Catalog.read source active with
    | error e =>
      refine ⟨rig.note .warn ("param '" ++ m.settings.catalogKey ++ "' error: " ++ e.message),
        run_bind_some.2 ⟨some source, rig, hread, ?_⟩, rig.alike_note _ _⟩
      dsimp only
      rw [hcatalog]
      rfl
    | ok catalog =>
      refine ⟨rig, run_bind_some.2 ⟨some source, rig, hread, ?_⟩, .refl rig⟩
      dsimp only
      rw [hcatalog]
      rfl

/-- **What reading the catalog again comes to.** It is taken over if it can be read, and nothing
else of the memory is. -/
inductive Refreshes (m : Manager) (rig : Rig) : Except ManagerError Catalog → Rig → Prop
  | refused {e : CatalogError} {after : Rig} :
      m.reading rig.params rig.memory.activeName = .error e → rig.Alike after →
      Refreshes m rig (.error (.catalog e)) after
  | renewed {catalog : Catalog} {after : Rig} :
      m.reading rig.params rig.memory.activeName = .ok catalog →
      Rig.Alike { rig with memory := { rig.memory with catalog := catalog } } after →
      Refreshes m rig (.ok catalog) after

theorem Refreshes.later {result : Except ManagerError Catalog} {mid after : Rig}
    (h : m.Refreshes rig result mid) (later : mid.Alike after) : m.Refreshes rig result after := by
  cases h with
  | refused hread halike => exact .refused hread (halike.trans later)
  | renewed hread halike => exact .renewed hread (halike.trans later)

theorem run_refreshLocked (m : Manager) (calm : rig.armed = ∅) (before : rig.Alike begin) :
    ∃ result after, (m.refreshLocked rig.memory).run begin = (some result, after) ∧
      m.Refreshes rig result after := by
  obtain ⟨mid, hread, hmid⟩ := m.run_readCatalog (before.calm calm) rig.memory.activeName
  rw [before.params] at hread
  have hall := before.trans hmid
  unfold refreshLocked
  cases hsource : m.reading rig.params rig.memory.activeName with
  | error e =>
    rw [hsource] at hread
    exact ⟨.error (.catalog e), mid, run_bind_some.2 ⟨.error e, mid, hread, rfl⟩,
      .refused hsource hall⟩
  | ok catalog =>
    rw [hsource] at hread
    exact ⟨.ok catalog, { mid with memory := { rig.memory with catalog := catalog } },
      run_bind_some.2 ⟨.ok catalog, mid, hread, rfl⟩,
      .renewed hsource ⟨hall.registry, rfl, hall.params, hall.armed⟩⟩

theorem run_refresh (m : Manager) (calm : rig.armed = ∅) :
    ∃ result after, m.refresh.run rig = (some (result.map fun _ => ()), after) ∧
      m.Refreshes rig result after := by
  obtain ⟨result, mid, hrun, hrefreshes⟩ := m.run_refreshLocked calm rig.alike_entered
  cases result with
  | error e =>
    exact ⟨.error e, mid, run_withLock (run_bind_some.2 ⟨.error e, mid, hrun, rfl⟩), hrefreshes⟩
  | ok catalog =>
    exact ⟨.ok catalog, _, run_withLock (run_bind_some.2 ⟨.ok catalog, mid, hrun,
      run_bind_some.2 ⟨(), _, run_inform _ mid, rfl⟩⟩), hrefreshes.later (mid.alike_note _ _)⟩

theorem run_list (m : Manager) (calm : rig.armed = ∅) :
    ∃ result after, m.list.run rig = (some (result.map Catalog.toList), after) ∧
      m.Refreshes rig result after := by
  obtain ⟨result, after, hrun, hrefreshes⟩ := m.run_refreshLocked calm rig.alike_entered
  refine ⟨result, after, run_withLock (run_bind_some.2 ⟨result, after, hrun, ?_⟩), hrefreshes⟩
  cases result <;> rfl

/-! ## Health -/

end Manager

/-- A resource that has crashed or reports an error. -/
def SimRegistry.Faulty (r : SimRegistry) (resource : String) : Prop :=
  ∀ held, r.held.find? resource = some held → held.forced = some .error

/-- Whether a resource reads as a fault is no matter of time. -/
theorem SimRegistry.isFault_stateAt {r : SimRegistry} {now : Instant} {resource : String} :
    (r.stateAt now resource).isFault = true ↔ r.Faulty resource := by
  unfold stateAt Faulty
  cases hfind : r.held.find? resource with
  | none => exact ⟨fun _ => nofun, fun _ => rfl⟩
  | some held =>
    dsimp only
    cases hforced : held.forced with
    | some state => simp [ResourceState.isFault, hforced]
    | none =>
      -- what is not forced is never an error
      have hno : ¬ ∀ h, some held = some h → h.forced = some ResourceState.error := by
        intro hall
        have hheld := hall held rfl
        rw [hforced] at hheld
        cases hheld
      dsimp only
      refine iff_of_false ?_ hno
      split
      · exact Bool.noConfusion
      · split <;> exact Bool.noConfusion

/-- No resource of the active configuration reads as an error. Without an active configuration there
is none that could. -/
def Rig.Healthy (rig : Rig) : Prop :=
  ∀ resource ∈ Configuration.resourcesOf rig.memory.active, rig.stateOf resource ≠ .error

instance (rig : Rig) : Decidable rig.Healthy := inferInstanceAs (Decidable (∀ _ ∈ _, _))

theorem Rig.stateOf_eq_error_iff {rig : Rig} {resource : String} :
    rig.stateOf resource = .error ↔ rig.registry.Faulty resource := by
  have hfault : (rig.stateOf resource).isFault = true ↔ rig.registry.Faulty resource :=
    SimRegistry.isFault_stateAt
  rw [← hfault]
  exact decide_eq_true_iff.symm

namespace Manager

open Procedure

variable {m : Manager} {rig begin : Rig}

/-- A look at several resources finds those that read as errors. -/
theorem run_faults (calm : rig.armed = ∅) (resources : List String) :
    ∃ found after, (faults resources).run rig = (some found, after) ∧ after.hushed = rig.hushed ∧
      (found = [] ↔ ∀ resource ∈ resources, rig.stateOf resource ≠ .error) := by
  induction resources generalizing rig with
  | nil => exact ⟨[], rig, rfl, rfl, fun _ => nofun, fun _ => rfl⟩
  | cons resource rest ih =>
    have hread : (readState resource).run rig = (some (rig.stateOf resource), rig.countRead) :=
      run_of_calm calm _
    have hsame := rig.hushed_countRead
    obtain ⟨more, after, hrun, hafter, hmore⟩ := ih ((Rig.alike_of_hushed hsame).calm calm)
    simp only [Rig.stateOf_of_hushed hsame] at hmore
    refine ⟨_, after, run_bind_some.2 ⟨_, _, hread, run_bind_some.2 ⟨more, after, hrun, rfl⟩⟩,
      hafter.trans hsame, ?_⟩
    have hfault : (rig.stateOf resource).isFault = true ↔ rig.stateOf resource = .error :=
      decide_eq_true_iff
    by_cases herror : rig.stateOf resource = .error
    · rw [if_pos (hfault.2 herror)]
      exact ⟨nofun, fun h => absurd herror (h resource List.mem_cons_self)⟩
    · rw [if_neg fun h => herror (hfault.1 h), hmore, List.forall_mem_cons]
      exact ⟨fun h => ⟨herror, h⟩, And.right⟩

/-- **What a check of the health comes to.** Where nothing is active, or nothing that is active is
faulty, nothing happens; otherwise it is a transition to nothing. -/
inductive Checks (m : Manager) (rig : Rig) : Except ManagerError Bool → Rig → Prop
  | healthy {after : Rig} :
      (∀ active, rig.memory.active = some active →
        ∀ resource ∈ active.resources, ¬ rig.registry.Faulty resource) →
      rig.Alike after → Checks m rig (.ok false) after
  | stops {active : Configuration} {resource : String}
      {outcome : Except ManagerError TransitionRecord} {after : Rig} :
      rig.memory.active = some active → resource ∈ active.resources →
      rig.registry.Faulty resource → m.Transits rig none .bestEffort outcome after →
      Checks m rig (outcome.map fun _ => true) after

theorem Checks.alike {result : Except ManagerError Bool} {mid after : Rig}
    (before : rig.Alike begin) (h : m.Checks begin result mid) (later : mid.Alike after) :
    m.Checks rig result after := by
  cases h with
  | healthy hsound halike =>
    rw [before.memory, before.registry] at hsound
    exact .healthy hsound (before.trans (halike.trans later))
  | stops hactive hmem hfaulty htransits =>
    rw [before.memory] at hactive
    rw [before.registry] at hfaulty
    exact .stops hactive hmem hfaulty (htransits.alike before later)

theorem stopLocked_heedless (m : Manager) (strictness : Strictness) (state : ManagerState) :
    (m.stopLocked strictness state).Composed Action.Heedless := by
  refine .bind (.of _ trivial) fun _ => .bind (Transition.run_heedless _ _ _ _ _) fun outcome => ?_
  cases outcome with
  | error e => exact .bind (.of _ trivial) fun _ => .done _
  | ok record =>
    exact .bind (.bind (.of _ trivial) fun now => .bind (.of _ trivial) fun _ => .of _ trivial)
      fun _ => .done _

/-- **A check of the health is nothing or a stop**, to the call: what is reported before the stop
makes no difference to it. -/
inductive Examines (m : Manager) (rig : Rig) : Except ManagerError Bool → Rig → Prop
  | healthy {after : Rig} :
      rig.Healthy → after.hushed = rig.hushed → Examines m rig (.ok false) after
  | stops {outcome : Except ManagerError TransitionRecord} {stopped after : Rig} :
      ¬ rig.Healthy → (m.stop .bestEffort).run rig = (some (outcome.map fun _ => ()), stopped) →
      m.Transits rig none .bestEffort outcome stopped → after.hushed = stopped.hushed →
      Examines m rig (outcome.map fun _ => true) after

/-- A stop goes the same way after a report, of which only the log and the cue are left. -/
theorem run_stopLocked_hushed (calm : rig.armed = ∅) {mid : Rig} (same : mid.hushed = rig.hushed) :
    ∃ outcome stopped after,
      (m.stop .bestEffort).run rig = (some (outcome.map fun _ => ()), stopped) ∧
      m.Transits rig none .bestEffort outcome stopped ∧
      (m.stopLocked .bestEffort rig.memory).run mid = (some (outcome.map fun _ => ()), after) ∧
      after.hushed = stopped.hushed := by
  obtain ⟨_, stopped, hlocked, outcome, rfl, htransits⟩ :=
    run_stopLocked (m := m) calm rig.alike_entered .bestEffort
  obtain ⟨hresult, hafter⟩ := (m.stopLocked_heedless .bestEffort rig.memory).asks.run_hushed
    (same.trans rig.hushed_entered.symm)
  rw [hlocked] at hresult hafter
  exact ⟨outcome, stopped, ((m.stopLocked .bestEffort rig.memory).run mid).2,
    run_withLock hlocked, htransits, Prod.ext hresult rfl, hafter⟩

theorem run_examine (m : Manager) (calm : rig.armed = ∅) :
    ∃ result after, m.checkHealth.run rig = (some result, after) ∧
      m.Examines rig result after := by
  suffices hstep : ∃ result after,
      (m.checkHealthLocked rig.memory).run rig.entered = (some result, after) ∧
        m.Examines rig result after by
    obtain ⟨result, after, hrun, hexamines⟩ := hstep
    exact ⟨result, after, run_withLock hrun, hexamines⟩
  have hentered := rig.hushed_entered
  unfold checkHealthLocked
  cases hactive : rig.memory.active with
  | none =>
    refine ⟨.ok false, _, rfl, .healthy ?_ hentered⟩
    rw [Rig.Healthy, hactive]
    exact fun resource hmem => absurd hmem (NameSet.not_mem_empty resource)
  | some active =>
    obtain ⟨found, seen, hfaults, hlook, hfound⟩ :=
      run_faults ((Rig.alike_of_hushed hentered).calm calm) active.resources.names
    have hhealthy : found = [] ↔ rig.Healthy := by
      simp only [Rig.stateOf_of_hushed hentered] at hfound
      rw [hfound, Rig.Healthy, hactive]
      exact Iff.rfl
    have hseen := hlook.trans hentered
    refine exists_run_bind hfaults ?_
    cases found with
    | nil => exact ⟨.ok false, seen, rfl, .healthy (hhealthy.1 rfl) hseen⟩
    | cons first rest =>
      have hill : ¬ rig.Healthy := fun h => List.cons_ne_nil first rest (hhealthy.2 h)
      obtain ⟨_, told, hreport, htold⟩ :=
        (reportFaults_composed active.name (first :: rest)).inquires
          ((Rig.alike_of_hushed hseen).calm calm)
      refine exists_run_bind hreport (exists_run_bind (run_warn _ told) ?_)
      have hwarned : (told.note .warn "emergency stop").hushed = rig.hushed := htold.trans hseen
      obtain ⟨outcome, stopped, after, hstop, htransits, hlocked, hsame⟩ :=
        run_stopLocked_hushed (m := m) calm hwarned
      refine exists_run_bind hlocked ⟨_, after, ?_, .stops hill hstop htransits hsame⟩
      cases outcome <;> rfl

theorem Examines.checks {result : Except ManagerError Bool} {after : Rig}
    (h : m.Examines rig result after) : m.Checks rig result after := by
  cases h with
  | healthy hhealthy hsame =>
    refine .healthy (fun active hactive resource hmem hfaulty => ?_) (Rig.alike_of_hushed hsame)
    rw [Rig.Healthy, hactive] at hhealthy
    exact hhealthy resource hmem (Rig.stateOf_eq_error_iff.2 hfaulty)
  | stops hill hstop htransits hsame =>
    obtain ⟨resource, hill⟩ := Classical.not_forall.1 hill
    obtain ⟨hmem, herror⟩ := Classical.not_imp.1 hill
    cases hactive : rig.memory.active with
    | none =>
      rw [hactive] at hmem
      exact absurd hmem (NameSet.not_mem_empty resource)
    | some active =>
      rw [hactive] at hmem
      exact .stops hactive hmem (Rig.stateOf_eq_error_iff.1 (Classical.not_not.1 herror))
        (htransits.alike (.refl rig) (Rig.alike_of_hushed hsame))

theorem run_checkHealth (m : Manager) (calm : rig.armed = ∅) :
    ∃ result after, m.checkHealth.run rig = (some result, after) ∧ m.Checks rig result after := by
  obtain ⟨result, after, hrun, hexamines⟩ := m.run_examine calm
  exact ⟨result, after, hrun, hexamines.checks⟩

/-! ## The monitor -/

theorem run_activeName (m : Manager) (rig : Rig) :
    m.activeName.run rig = (some rig.memory.activeName, rig.entered) :=
  run_withLock rfl

def CheckDue (m : Manager) (loop : MonitorLoop) : Prop :=
  (loop.tick + 1) % m.settings.monitor.healthCheckEvery = 0

instance (m : Manager) (loop : MonitorLoop) : Decidable (m.CheckDue loop) :=
  inferInstanceAs (Decidable (_ = _))

/-- **What a phase of the monitor comes to.** What it does is looking around, a check or a stop. -/
inductive Monitors (m : Manager) (rig : Rig) : MonitorPhase → MonitorPhase → Rig → Prop
  | begun {loop : MonitorLoop} {after : Rig} : loop.tick = 0 → rig.Alike after →
      Monitors m rig .starting (.passing loop) after
  | ends {loop : MonitorLoop} {after : Rig} : rig.exitRequested = true → rig.Alike after →
      Monitors m rig (.passing loop) .ending after
  | passes {loop next : MonitorLoop} {after : Rig} : rig.exitRequested = false →
      ¬ m.CheckDue loop → next.tick = loop.tick + 1 → rig.Alike after →
      Monitors m rig (.passing loop) (.passing next) after
  | checks {loop next : MonitorLoop} {found : Bool} {after : Rig} : rig.exitRequested = false →
      m.CheckDue loop → next.tick = loop.tick + 1 →
      (m.checkHealth.run (rig.elapse Rig.lookTime)).1 = some (.ok found) →
      m.Checks rig (.ok found) after → Monitors m rig (.passing loop) (.passing next) after
  | fails {loop : MonitorLoop} {e : ManagerError} {after : Rig} : rig.exitRequested = false →
      m.CheckDue loop → (m.checkHealth.run (rig.elapse Rig.lookTime)).1 = some (.error e) →
      m.Checks rig (.error e) after → Monitors m rig (.passing loop) (.over (.error e)) after
  | stops {outcome : Except ManagerError TransitionRecord} {after : Rig} :
      m.Transits rig none .bestEffort outcome after →
      Monitors m rig .ending (.over (outcome.map fun _ => ())) after
  | rests {outcome : Except ManagerError Unit} : Monitors m rig (.over outcome) (.over outcome) rig

def monitorWait (loop : MonitorLoop) : Procedure MonitorPhase := do
  let (wait, ticker) := loop.ticker.tick (← now)
  if Duration.zero < wait then sleep wait
  return .passing { loop with ticker := ticker }

theorem run_monitorWait (loop : MonitorLoop) (rig : Rig) :
    ∃ next after, (monitorWait loop).run rig = (some (.passing next), after) ∧
      next.tick = loop.tick ∧ rig.Alike after := by
  unfold monitorWait
  rw [run_bind, run_now]
  obtain ⟨wait, ticker⟩ := loop.ticker.tick rig.clock
  dsimp only
  split
  · exact ⟨_, _, rfl, rfl, ⟨rfl, rfl, rfl, rfl⟩⟩
  · exact ⟨_, _, rfl, rfl, .refl rig⟩

/-- What is left of the monitor's check after a check of the health. -/
def afterCheckHealth (m : Manager) (loop : MonitorLoop) :
    Except ManagerError Bool → Procedure (Except ManagerError MonitorLoop)
  | .error e => return .error e
  | .ok true => return .ok loop
  | .ok false => do
    let (ready, heartbeat) := loop.heartbeat.ready (← now)
    if ready then
      let active ← m.activeName
      inform ("monitor alive, active configuration: " ++ nameOrNone active)
    return .ok { loop with heartbeat := heartbeat }

/-- A pass looks whether it is to end, checks, and waits. -/
theorem monitorPass_eq (m : Manager) (loop : MonitorLoop) :
    m.monitorPass loop = of .exitRequested >>= fun ends =>
      if ends then .done .ending
      else m.monitorCheck { loop with tick := loop.tick + 1 } >>= fun
        | .error e => .done (.over (.error e))
        | .ok loop => monitorWait loop := rfl

/-- What is left of a pass after a check of the health. -/
def concludePass (m : Manager) (loop : MonitorLoop) (result : Except ManagerError Bool) :
    Procedure MonitorPhase := do
  match ← m.afterCheckHealth loop result with
  | .error e => return .over (.error e)
  | .ok loop => monitorWait loop

theorem monitorPass_of_due (m : Manager) {loop : MonitorLoop} (due : m.CheckDue loop) :
    m.monitorPass loop = of .exitRequested >>= fun ends =>
      if ends then .done .ending
      else m.checkHealth >>= m.concludePass { loop with tick := loop.tick + 1 } := by
  have hcheck : m.monitorCheck { loop with tick := loop.tick + 1 } =
      m.checkHealth >>= m.afterCheckHealth { loop with tick := loop.tick + 1 } :=
    if_neg (not_not_intro due)
  rw [monitorPass_eq, hcheck]
  simp only [Procedure.bind_assoc]
  rfl

theorem monitorPass_of_not_due (m : Manager) {loop : MonitorLoop} (undue : ¬ m.CheckDue loop) :
    m.monitorPass loop = of .exitRequested >>= fun ends =>
      if ends then .done .ending else monitorWait { loop with tick := loop.tick + 1 } := by
  have hcheck : m.monitorCheck { loop with tick := loop.tick + 1 } =
      .done (.ok { loop with tick := loop.tick + 1 }) :=
    if_pos undue
  rw [monitorPass_eq, hcheck]
  rfl

/-- After a check that has found nothing there is a sign of life at the most. -/
theorem run_concludePass (m : Manager) (loop : MonitorLoop) (result : Except ManagerError Bool)
    (mid : Rig) : ∃ next after, (m.concludePass loop result).run mid = (some next, after) ∧
      mid.Alike after ∧
      match result with
      | .error e => next = .over (.error e)
      | .ok _ => ∃ loop', next = .passing loop' ∧ loop'.tick = loop.tick := by
  unfold concludePass
  match result with
  | .error e => exact ⟨_, mid, rfl, .refl mid, rfl⟩
  | .ok true =>
    obtain ⟨last, after, hwait, htick, halike⟩ := run_monitorWait loop mid
    exact ⟨_, after, hwait, halike, last, rfl, htick⟩
  | .ok false =>
    unfold afterCheckHealth
    rw [Procedure.bind_assoc, run_bind, run_now]
    let next : MonitorLoop := { loop with heartbeat := (loop.heartbeat.ready mid.clock).2 }
    dsimp only
    split
    · rw [Procedure.bind_assoc, run_bind, run_activeName]
      obtain ⟨last, after, hwait, htick, halike⟩ := run_monitorWait next (mid.entered.note .info
        ("monitor alive, active configuration: " ++ nameOrNone mid.memory.activeName))
      exact ⟨_, after, hwait, mid.alike_entered.trans ((Rig.alike_note _ _ _).trans halike),
        last, rfl, htick⟩
    · obtain ⟨last, after, hwait, htick, halike⟩ := run_monitorWait next mid
      exact ⟨_, after, hwait, halike, last, rfl, htick⟩

theorem run_monitorPass (m : Manager) (calm : rig.armed = ∅) (loop : MonitorLoop) :
    ∃ next after, (m.monitorPass loop).run rig = (some next, after) ∧
      m.Monitors rig (.passing loop) next after := by
  let looked := rig.elapse Rig.lookTime
  have hlooked : rig.Alike looked := ⟨rfl, rfl, rfl, rfl⟩
  by_cases hdue : m.CheckDue loop
  · rw [m.monitorPass_of_due hdue, run_bind, run_exitRequested]
    dsimp only
    cases hexit : rig.exitRequested with
    | true => exact ⟨.ending, looked, rfl, .ends hexit hlooked⟩
    | false =>
      rw [if_neg Bool.false_ne_true]
      obtain ⟨result, mid, hcheck, hchecks⟩ := m.run_checkHealth (hlooked.calm calm)
      obtain ⟨next, after, hrest, halike, hnext⟩ :=
        m.run_concludePass { loop with tick := loop.tick + 1 } result mid
      have hresult : (m.checkHealth.run looked).1 = some result := by rw [hcheck]
      have hall := hchecks.alike hlooked halike
      refine ⟨next, after, run_bind_some.2 ⟨result, mid, hcheck, hrest⟩, ?_⟩
      rcases result with e | found
      · cases hnext
        exact .fails hexit hdue hresult hall
      · obtain ⟨last, rfl, htick⟩ := hnext
        exact .checks hexit hdue htick hresult hall
  · rw [m.monitorPass_of_not_due hdue, run_bind, run_exitRequested]
    dsimp only
    cases hexit : rig.exitRequested with
    | true => exact ⟨.ending, looked, rfl, .ends hexit hlooked⟩
    | false =>
      rw [if_neg Bool.false_ne_true]
      obtain ⟨last, after, hwait, htick, halike⟩ :=
        run_monitorWait { loop with tick := loop.tick + 1 } looked
      exact ⟨_, after, hwait, .passes hexit hdue htick (hlooked.trans halike)⟩

theorem run_monitorStep (m : Manager) (calm : rig.armed = ∅) (phase : MonitorPhase) :
    ∃ next after, (m.monitorStep phase).run rig = (some next, after) ∧
      m.Monitors rig phase next after := by
  match phase with
  | .starting => exact ⟨_, _, rfl, .begun rfl (rig.alike_note _ _)⟩
  | .passing loop => exact m.run_monitorPass calm loop
  | .ending =>
    have hnoted := rig.alike_note .info "exit requested, stopping the running configuration"
    obtain ⟨outcome, after, hstop, htransits⟩ := run_stop (m := m) (hnoted.calm calm) .bestEffort
    exact ⟨_, after, run_bind_some.2 ⟨_, after, run_bind_some.2 ⟨(), _, run_inform _ rig, hstop⟩,
      rfl⟩, .stops (htransits.alike hnoted (.refl after))⟩
  | .over outcome => exact ⟨_, _, rfl, .rests⟩

end Manager

end ControlRig
