import ControlRig.Proofs.Manager.Stop

/-!
# A check of the health is a stop or nothing

A check reads the resources of the active configuration, and all that follows from what it has read
is whether there is an emergency stop. Where none of them reads as an error the rig is left as it
was. **Where one does, the check is a stop**, to the call and with the same outcome
(`checkHealth_exact`). So it is the configuration as it was activated that decides, and a fault of
anything else is none of the manager's business.

What the manager publishes after an emergency stop is one more text that need not arrive
(`checkHealth_of_lost_arm`).
-/

namespace ControlRig

namespace Manager

open Procedure

variable {m : Manager} {rig after : Rig}

/-- **What is to be known of a check of the health.** -/
structure Examined (m : Manager) (rig : Rig) (result : Except ManagerError Bool) (after : Rig) :
    Prop where
  sound : result = .ok false ↔ rig.Healthy
  /-- A check that finds nothing leaves messages at the most, and the cue brought forward. -/
  untouched : result = .ok false → after.hushed = rig.hushed
  /-- Any other check is a stop, and fails with its error. -/
  stops : ¬ rig.Healthy → ∃ outcome stopped,
    (m.stop .bestEffort).run rig = (some outcome, stopped) ∧
    result = outcome.map (fun _ => true) ∧ after.hushed = stopped.hushed
  inactive : result = .ok true → after.memory.active = none
  unloaded : result = .ok true → after.registry.loaded = ∅
  published : result = .ok true → rig.params.Writable m.settings.statusKey →
    after.params.text? m.settings.statusKey = some "none"
  /-- The next check has nothing to do. -/
  settled : result = .ok true → (m.checkHealth.run after).1 = some (.ok false)
  unwritten : ∀ e, result = .error e → rig.Unwritten after

/-- A resource that is not there reads as an error. -/
theorem stateOf_of_not_loaded {resource : String} (h : resource ∉ rig.registry.loaded) :
    rig.stateOf resource = .error := by
  rw [Rig.stateOf, SimRegistry.stateAt, SimRegistry.not_mem_loaded_iff.1 h]

/-- Where nothing is active there is nothing to find. -/
theorem healthy_of_inactive (h : rig.memory.active = none) : rig.Healthy := by
  rw [Rig.Healthy, h]
  exact fun resource hmem => absurd hmem (NameSet.not_mem_empty resource)

theorem Examines.examined (calm : rig.armed = ∅) {result : Except ManagerError Bool}
    (h : m.Examines rig result after) : m.Examined rig result after := by
  cases h with
  | healthy hhealthy hsame =>
    exact {
      sound := iff_of_true rfl hhealthy
      untouched := fun _ => hsame
      stops := fun hill => absurd hhealthy hill
      inactive := nofun
      unloaded := nofun
      published := nofun
      settled := nofun
      unwritten := fun _ herror => by cases herror }
  | @stops outcome stopped _ hill hstop htransits hsame =>
    have halike := Rig.alike_of_hushed hsame
    have hfound : outcome.map (fun _ => true) ≠ .ok false := by
      cases outcome <;> nofun
    have hstops : ∃ outcome' stopped', (m.stop .bestEffort).run rig = (some outcome', stopped') ∧
        outcome.map (fun _ => true) = outcome'.map (fun _ => true) ∧
        after.hushed = stopped'.hushed := by
      refine ⟨_, stopped, hstop, ?_, hsame⟩
      cases outcome <;> rfl
    cases outcome with
    | error e =>
      exact {
        sound := iff_of_false hfound hill
        untouched := fun hok => absurd hok hfound
        stops := fun _ => hstops
        inactive := nofun
        unloaded := nofun
        published := nofun
        settled := nofun
        unwritten := fun _ _ => (htransits.unwritten calm).1.trans ⟨halike.memory, halike.params⟩ }
    | ok record =>
      obtain ⟨⟨t, hmemory⟩, hparams, hcalm⟩ := htransits.noted calm
      have hinactive : after.memory.active = none := by
        rw [halike.memory, hmemory]
        rfl
      have hnext : (m.checkHealth.run after).1 = some (.ok false) := by
        obtain ⟨result, final, hrun, hexamines⟩ := m.run_examine (halike.calm hcalm)
        cases hexamines with
        | healthy => rw [hrun]
        | stops hill => exact absurd (healthy_of_inactive hinactive) hill
      exact {
        sound := iff_of_false hfound hill
        untouched := fun hok => absurd hok hfound
        stops := fun _ => hstops
        inactive := fun _ => hinactive
        unloaded := fun _ => by
          rw [halike.registry]
          exact htransits.emptied
        published := fun _ hwritable => by
          rw [halike.params, hparams]
          exact (hwritable.publish _).1
        settled := fun _ => hnext
        unwritten := fun _ herror => by cases herror }

/-- **A check of the health is a stop or nothing.** It says that it has found nothing exactly where
nothing that is active reads as an error, as what is not there does. Otherwise it has done what a
stop would have done: if that succeeds nothing is active any more, nothing is loaded and the next
check finds nothing, and if it fails its error is the answer and what was active still is. -/
theorem checkHealth_exact (m : Manager) (rig : Rig) (calm : rig.armed = ∅) :
    (∃ result after, m.checkHealth.run rig = (some result, after) ∧
      m.Examined rig result after) ∧
    ∀ resource ∉ rig.registry.loaded, rig.stateOf resource = .error := by
  refine ⟨?_, fun _ => stateOf_of_not_loaded⟩
  obtain ⟨result, after, hrun, hexamines⟩ := m.run_examine calm
  exact ⟨result, after, hrun, hexamines.examined calm⟩

/-- Handling is stopped when the arm has been lost, and goes on when a belt reports an error that
nothing of it runs on. -/
theorem checkHealth_exact_lost_arm :
    let lost := Manager.usual.take .handling (.registry (Rig.handling.registry.forget "arm"))
    let other := Manager.usual.take .handling
      (.registry ((Rig.handling.registry.insertLoaded .start "belt").forceState "belt" .error))
    (∃ after, Manager.usual.checkHealth.run lost = (some (.ok true), after) ∧
      after.memory.active = none ∧ after.registry.loaded = ∅ ∧
      after.params.text? Manager.usual.settings.statusKey = some "none") ∧
    other.stateOf "belt" = .error ∧
    ∃ after, Manager.usual.checkHealth.run other = (some (.ok false), after) ∧
      after.registry = other.registry := by
  intro lost other
  have hcalm : ∀ move, (Manager.usual.take .handling move).armed = ∅ :=
    calm_take .usual (by decide +kernel)
  refine ⟨?_, by decide +kernel, ?_⟩
  · obtain ⟨⟨result, after, hrun, hexamined⟩, -⟩ := checkHealth_exact .usual lost (hcalm _)
    obtain ⟨outcome, stopped, hstop, rfl, -⟩ := hexamined.stops (by decide +kernel)
    obtain ⟨_, _, hsucceeds⟩ : (Manager.usual.stop .bestEffort).Succeeds lost := by
      decide +kernel
    cases hstop.symm.trans hsucceeds
    exact ⟨after, hrun, hexamined.inactive rfl, hexamined.unloaded rfl,
      hexamined.published rfl ⟨by decide +kernel, by decide +kernel⟩⟩
  · obtain ⟨⟨result, after, hrun, hexamined⟩, -⟩ := checkHealth_exact .usual other (hcalm _)
    obtain rfl := hexamined.sound.2 (by decide +kernel)
    exact ⟨after, hrun, (Rig.alike_of_hushed (hexamined.untouched rfl)).registry⟩

/-- **An emergency stop need not get it published that nothing is active**: something else is in the
place of the status, and the arm has been lost. -/
theorem checkHealth_of_lost_arm :
    let lost := Manager.usual.take .withoutStatus
      (.registry (Rig.withoutStatus.registry.forget "arm"))
    ∃ after, Manager.usual.checkHealth.run lost = (some (.ok true), after) ∧
      after.params.text? Manager.usual.settings.statusKey ≠ some "none" := by
  exact ⟨_, rfl, by decide +kernel⟩

end Manager

end ControlRig
