import ControlRig.Proofs.Manager.Run
import ControlRig.Proofs.Param.Tree
import ControlRig.Proofs.Transition.Aftermath
import ControlRig.Proofs.Transition.Recovery

/-!
# What becomes of a stop

A stop is a transition to nothing, an emergency stop included, and like every transition it first
brings a registry in step that is not. So where a resource of the active configuration has been
lost, a stop purges the registry and loads all of the active configuration again, only to unload it.
**It succeeds if the registry is in step, or else if this loading succeeds** (`stop_comes_to`); on
a registry that is out of step it fails if what is active cannot be loaded any more
(`stop_of_lost_arm`).

What holds in either case is that nothing runs afterwards.
-/

namespace ControlRig

namespace Rig

/-- Nothing that is active refuses to load or stalls. -/
def Willing (rig : Rig) : Prop :=
  ∀ resource ∈ Configuration.resourcesOf rig.memory.active,
    resource ∉ rig.registry.faults.loads ∧ resource ∉ rig.registry.faults.stalls

instance (rig : Rig) : Decidable rig.Willing := inferInstanceAs (Decidable (∀ _ ∈ _, _))

end Rig

namespace Transition

/-- What a transition to nothing has to load. -/
theorem due_none (active : Option Configuration) (loaded : NameSet) :
    due active none loaded =
      if Configuration.resourcesOf active = loaded then ∅
      else Configuration.resourcesOf active := by
  apply NameSet.ext_mem
  intro resource
  have hnone : resource ∉ Configuration.resourcesOf none := NameSet.not_mem_empty resource
  unfold due
  split
  · simp [NameSet.mem_sdiff, hnone, NameSet.not_mem_empty]
  · simp [NameSet.mem_sdiff, NameSet.mem_union, hnone]

end Transition

namespace Manager

open Procedure Transition

variable {m : Manager} {rig after : Rig}

/-- The calls that every stop relies on are answered, and in time. -/
structure Answers (m : Manager) (rig : Rig) : Prop where
  calm : rig.armed = ∅
  lists : rig.registry.faults.list = false
  stops : rig.registry.faults.stop = false
  unloads : rig.registry.faults.unload = false
  intime : rig.registry.latency ≤ m.settings.requestTimeout

instance (m : Manager) (rig : Rig) : Decidable (m.Answers rig) :=
  decidable_of_iff (rig.armed = ∅ ∧ rig.registry.faults.list = false ∧
      rig.registry.faults.stop = false ∧ rig.registry.faults.unload = false ∧
      rig.registry.latency ≤ m.settings.requestTimeout)
    ⟨fun ⟨calm, lists, stops, unloads, intime⟩ => ⟨calm, lists, stops, unloads, intime⟩,
      fun h => ⟨h.calm, h.lists, h.stops, h.unloads, h.intime⟩⟩

/-- **What becomes of a stop.** -/
structure Stops (m : Manager) (rig : Rig) (result : Except ManagerError Unit) (after : Rig) :
    Prop where
  /-- It succeeds if there is nothing to load, or if that can be loaded and is ready in time. -/
  succeeds : rig.InStep ∨ rig.Willing ∧ rig.registry.initDelay ≤ m.settings.verifyTimeout →
    result = .ok ()
  /-- Otherwise what is to be loaded is in the way. -/
  unhindered : result = .ok () → rig.InStep ∨ rig.Willing
  inactive : result = .ok () → after.memory.active = none
  unloaded : result = .ok () → after.registry.loaded = ∅
  published : result = .ok () → rig.params.Writable m.settings.statusKey →
    after.params.text? m.settings.statusKey = some "none"
  /-- A stop that fails has not happened, as far as the manager is concerned. -/
  unwritten : ∀ e, result = .error e → rig.Unwritten after
  /-- Nothing runs afterwards, whether the stop succeeds or not. -/
  silent : ∀ resource, after.registry.running resource = []

theorem Answers.alike (h : m.Answers rig) (alike : rig.Alike after) : m.Answers after := by
  obtain ⟨calm, lists, stops, unloads, intime⟩ := h
  rw [← alike.registry] at lists stops unloads intime
  exact ⟨alike.calm calm, lists, stops, unloads, intime⟩

theorem Answers.not_late (h : m.Answers rig) :
    ¬ m.settings.requestTimeout < rig.registry.latency :=
  Nat.not_lt.2 h.intime

/-- On a registry that answers, nothing is in the way of a stop that has nothing to load, or loads
what is willing and has the time for it. -/
theorem Answers.unhindered (h : m.Answers rig)
    (way : rig.InStep ∨ rig.Willing ∧ rig.registry.initDelay ≤ m.settings.verifyTimeout)
    (strictness : Strictness) :
    Unhindered m.settings.transitionOptions rig.memory.active none strictness
      m.settings.requestTimeout rig := by
  have hway : due rig.memory.active none rig.registry.loaded ≠ ∅ →
      rig.Willing ∧ rig.registry.initDelay ≤ m.settings.verifyTimeout := by
    intro hsome
    exact way.resolve_left fun hstep => hsome ((due_none _ _).trans (if_pos hstep))
  have hwilling : ∀ resource ∈ due rig.memory.active none rig.registry.loaded,
      resource ∉ rig.registry.faults.loads ∧ resource ∉ rig.registry.faults.stalls := by
    intro resource hm
    have hsome : due rig.memory.active none rig.registry.loaded ≠ ∅ := by
      intro hempty
      rw [hempty] at hm
      exact NameSet.not_mem_empty resource hm
    have hactive : resource ∈ Configuration.resourcesOf rig.memory.active :=
      (NameSet.mem_union.1 (due_subset hm)).resolve_right (NameSet.not_mem_empty resource)
    exact (hway hsome).1 resource hactive
  exact {
    calm := h.calm
    lists := h.lists
    stops := h.stops
    unloads := h.unloads
    intime := h.not_late
    willing := fun resource hm => (hwilling resource hm).1
    sound := fun resource hm => (hwilling resource hm).2
    short := fun hsome => (hway hsome).2
    parameters := nofun
    starts := .inr fun resource hm => absurd hm (NameSet.not_mem_empty resource) }

/-- A stop that fails on a registry that was out of step fails while it loads, which is after the
purge. -/
theorem silent_of_failed (h : m.Answers rig) {active : Option Configuration}
    {strictness : Strictness} {e : ManagerError}
    (run : (Transition.run m.settings.transitionOptions active none strictness
      m.settings.requestTimeout).run rig = (some (.error e), after))
    (step : Configuration.resourcesOf active ≠ rig.registry.loaded) (resource : String) :
    after.registry.running resource = [] := by
  have hearly : e.Early := by
    rcases failed_of_run run with ⟨steps, hcourse, hsteps⟩ | ⟨loaded, steps, undone, mid, hcourse,
      hsteps, -, -⟩
    · exact absurd hsteps (stopping_begins h.not_late h.lists h.unloads hcourse)
    · exact stopping_early h.not_late h.stops h.unloads hcourse hsteps
  have hkept : resource ∉ kept active rig.registry.loaded := fun hk => step (mem_kept_iff.1 hk).2
  rw [(running_of_failed run).2 hearly resource, if_neg hkept]

/-- A transition to nothing that fails for a manager is a stop that fails. -/
theorem Transits.stuck {strictness : Strictness} {e : ManagerError}
    (h : m.Transits rig none strictness (.error e) after) (answers : m.Answers rig) :
    m.Stops rig (.error e) after := by
  have hunwritten := h.unwritten answers.calm
  have hno : (.error e : Except ManagerError Unit) ≠ .ok () := by simp
  cases h with
  | failed hbefore hrun hafter =>
    -- it has failed, so the way cannot have been clear
    have hhindered : ¬ (rig.InStep ∨
        rig.Willing ∧ rig.registry.initDelay ≤ m.settings.verifyTimeout) := by
      intro hway
      rw [Rig.InStep, Rig.Willing, ← hbefore.registry, ← hbefore.memory] at hway
      obtain ⟨record, final, hsucceeds⟩ :=
        ((answers.alike hbefore).unhindered hway strictness).succeeds
      rw [hbefore.memory, hrun] at hsucceeds
      cases hsucceeds
    have hsilent : ∀ resource, after.registry.running resource = [] := by
      intro resource
      rw [hafter.registry]
      refine silent_of_failed (answers.alike hbefore) hrun (fun hstep => ?_) resource
      rw [hbefore.registry] at hstep
      exact hhindered (.inl hstep)
    exact {
      succeeds := fun hway => absurd hway hhindered
      unhindered := fun hok => absurd hok hno
      inactive := fun hok => absurd hok hno
      unloaded := fun hok => absurd hok hno
      published := fun hok => absurd hok hno
      unwritten := fun _ _ => hunwritten.1
      silent := hsilent }

/-- A transition to nothing that has settled leaves nothing. -/
theorem Transits.emptied {strictness : Strictness} {record : TransitionRecord}
    (h : m.Transits rig none strictness (.ok record) after) : after.registry.loaded = ∅ := by
  cases h with
  | settled hbefore hrun hafter =>
    obtain ⟨steps, hcourse, hsteps⟩ := settled_of_run hrun
    rw [hafter.registry]
    exact (settled_arrives hcourse hsteps).1

/-- A transition to nothing that settles for a manager is a stop that succeeds. -/
theorem Transits.stopped {strictness : Strictness} {record : TransitionRecord}
    (h : m.Transits rig none strictness (.ok record) after) (answers : m.Answers rig) :
    m.Stops rig (.ok ()) after := by
  obtain ⟨⟨t, hmemory⟩, hparams, -⟩ := h.noted answers.calm
  have hempty := h.emptied
  cases h with
  | settled hbefore hrun hafter =>
    obtain ⟨steps, hcourse, hsteps⟩ := settled_of_run hrun
    -- it has loaded what was due, which is all that was active if it was out of step
    have hway : rig.InStep ∨ rig.Willing := by
      by_cases hstep : rig.InStep
      · exact .inl hstep
      · have hdue : due rig.memory.active none rig.registry.loaded =
            Configuration.resourcesOf rig.memory.active :=
          (due_none _ _).trans (if_neg hstep)
        have hwilling := settled_willing hcourse hsteps
        rw [hbefore.registry, hdue] at hwilling
        exact .inr hwilling
    exact {
      succeeds := fun _ => rfl
      unhindered := fun _ => hway
      inactive := fun _ => by
        rw [hmemory]
        rfl
      unloaded := fun _ => hempty
      published := fun _ hwritable => by
        rw [hparams]
        exact (hwritable.publish _).1
      unwritten := fun e herror => by cases herror
      silent := fun resource => SimRegistry.running_of_not_mem fun hm =>
        NameSet.not_mem_empty resource (hempty ▸ hm) }

theorem Transits.stops {strictness : Strictness} {outcome : Except ManagerError TransitionRecord}
    (h : m.Transits rig none strictness outcome after) (answers : m.Answers rig) :
    m.Stops rig (outcome.map fun _ => ()) after := by
  cases outcome with
  | error e => exact h.stuck answers
  | ok record => exact h.stopped answers

/-- **What becomes of a stop, and of an emergency stop.** As long as the calls that every stop
relies on are answered, a stop comes to a result; it succeeds if the registry holds what is active,
whatever the states there, and also if all that is active could be loaded again and would be ready
in time. Then nothing is active, nothing is loaded, and that is published where publishing works.
Otherwise something that is active refuses to load, stalls or takes too long, and the manager
remembers what it did. In either case nothing runs any more. A check of the health that finds a
fault comes to the same as a stop. -/
theorem stop_comes_to (m : Manager) (rig : Rig) (answers : m.Answers rig) :
    (∀ strictness, ∃ result after,
      (m.stop strictness).run rig = (some result, after) ∧ m.Stops rig result after) ∧
    ∀ active, rig.memory.active = some active →
      (∃ resource ∈ active.resources, rig.registry.Faulty resource) →
      ∃ result after, m.checkHealth.run rig = (some (result.map fun _ => true), after) ∧
        m.Stops rig result after := by
  constructor
  · intro strictness
    obtain ⟨outcome, after, hrun, htransits⟩ := run_stop (m := m) answers.calm strictness
    exact ⟨_, after, hrun, htransits.stops answers⟩
  · rintro active hactive ⟨resource, hmem, hfaulty⟩
    obtain ⟨result, after, hrun, hchecks⟩ := m.run_checkHealth answers.calm
    cases hchecks with
    | healthy hsound halike => exact absurd hfaulty (hsound active hactive resource hmem)
    | @stops _ _ outcome _ _ _ _ htransits =>
      refine ⟨outcome.map fun _ => (), after, ?_, htransits.stops answers⟩
      rw [hrun]
      cases outcome <;> rfl

end Manager

/-- Handling goes on, as far as its manager knows, but the arm has been lost. -/
def Rig.withoutArm : Rig :=
  { Transition.whileHandling with
    memory := ⟨some .handling, .empty, 1, none⟩
    registry := SimRegistry.whileHandling.forget "arm" }

namespace Manager

/-- An arm that has been lost is loaded again, and then everything is stopped. -/
theorem stop_comes_to_without_arm :
    (∃ after, (Manager.usual.stop .strict).run .withoutArm = (some (.ok ()), after) ∧
      after.memory.active = none ∧ after.registry.loaded = ∅) ∧
    ∃ after, Manager.usual.checkHealth.run .withoutArm = (some (.ok true), after) ∧
      after.params.text? Manager.usual.settings.statusKey = some "none" := by
  obtain ⟨hstop, hcheck⟩ := stop_comes_to .usual .withoutArm (by decide +kernel)
  have hway : Rig.withoutArm.InStep ∨ Rig.withoutArm.Willing ∧
      Rig.withoutArm.registry.initDelay ≤ Manager.usual.settings.verifyTimeout := by
    decide +kernel
  have hlost : Rig.withoutArm.registry.Faulty "arm" := by
    have hfind : Rig.withoutArm.registry.held.find? "arm" = none := by decide +kernel
    intro held hheld
    rw [hfind] at hheld
    cases hheld
  constructor
  · obtain ⟨result, after, hrun, hstops⟩ := hstop .strict
    obtain rfl := hstops.succeeds hway
    exact ⟨after, hrun, hstops.inactive rfl, hstops.unloaded rfl⟩
  · obtain ⟨result, after, hrun, hstops⟩ :=
      hcheck .handling rfl ⟨"arm", by decide +kernel, hlost⟩
    obtain rfl := hstops.succeeds hway
    exact ⟨after, hrun, hstops.published rfl ⟨by decide +kernel, by decide +kernel⟩⟩

end Manager

/-! ## A lost arm that cannot be loaded again -/

/-- Handling has been started, and then the arm has been lost and cannot be loaded again. -/
def Rig.withBrokenArm : Rig :=
  Manager.usual.take .handling
    (.registry ((Rig.handling.registry.forget "arm").failLoad "arm"))

/-- Handling has been started where something else is in the place of the status. -/
def Rig.withoutStatus : Rig :=
  let rig := { Rig.workshop with params := ⟨Rig.workshop.params.root ++ [("status", .integer 1)]⟩ }
  Manager.usual.take (Manager.usual.made rig) (.start "handling" .strict)

namespace Manager

/-- **A stop can fail although every call that it relies on is answered**: the arm that has been
lost would have to be loaded again. And one that succeeds need not get it published. -/
theorem stop_of_lost_arm :
    (Manager.usual.Answers .withBrokenArm ∧ Rig.withBrokenArm.memory.activeName = some "handling" ∧
      (∀ strictness, ¬ (Manager.usual.stop strictness).Succeeds .withBrokenArm) ∧
      ¬ Manager.usual.checkHealth.Succeeds .withBrokenArm) ∧
    Manager.usual.Answers .withoutStatus ∧
      (Manager.usual.stop .strict).Succeeds .withoutStatus ∧
      ((Manager.usual.stop .strict).run .withoutStatus).2.params.text?
        Manager.usual.settings.statusKey = none := by
  refine ⟨⟨by decide +kernel, by decide +kernel, fun strictness => ?_, by decide +kernel⟩,
    by decide +kernel, by decide +kernel, by decide +kernel⟩
  cases strictness <;> decide +kernel

end Manager

end ControlRig
