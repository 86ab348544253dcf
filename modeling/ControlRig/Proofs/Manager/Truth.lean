import ControlRig.Proofs.Manager.Run
import ControlRig.Proofs.Manager.Stop

/-!
# Whether what is reported is true

A manager reports what is active, and reported what was skipped when that was activated; the
registry is what really runs. Suppose that faults come and go, but that nobody else touches what the
registry holds. Does the report stay true?

A failed transition keeps the old configuration active and has left its traces on the registry. Most
failures leave none on the controllers that are reported, and some leave traces that the next
transition will find, because it compares what is loaded with what is active. But names are all that
it compares. **After a failure that comes once controllers are being changed, or while a purged
registry is loaded again, resources of the same names may be there with other controllers**
(`truth_is_lost`). Until there is such a failure the report is true (`truth_of_run`).
-/

namespace ControlRig

open Transition

/-! ## Reports -/

/-- What a configuration declares runs on its resources, once each, apart from what is skipped,
which is named resource by resource in the order of declaration. -/
structure Configuration.RunsOn (c : Configuration) (skipped : List String) (r : SimRegistry) :
    Prop where
  once : ∀ resource ∈ c.resources, (r.running resource).Nodup
  declared : ∀ resource ∈ c.resources, ∀ id ∈ r.running resource, id ∈ c.declared resource
  rest : skipped = c.resources.names.flatMap fun resource =>
    ((c.declared resource).filter fun id => id ∉ r.running resource).map
      (SimRegistry.controllerName resource)

/-- Where the same runs on the same resources, a report is as true as before. -/
theorem Configuration.RunsOn.congr {c : Configuration} {skipped : List String} {r s : SimRegistry}
    (h : c.RunsOn skipped r)
    (same : ∀ resource ∈ c.resources, s.running resource = r.running resource) :
    c.RunsOn skipped s := by
  refine ⟨fun resource hm => ?_, fun resource hm => ?_, h.rest.trans ?_⟩
  · rw [same resource hm]
    exact h.once resource hm
  · rw [same resource hm]
    exact h.declared resource hm
  · refine congrArg List.flatten (List.map_congr_left fun resource hm => ?_)
    rw [same resource hm]

/-- A failure may have stopped what is reported to run, by the rig that it found: it came once
controllers were being changed, or while a registry was loaded again that was out of step. -/
def ManagerError.Disturbs (e : ManagerError) (rig : Rig) : Prop :=
  e.Late ∨ e.Early ∧ ¬ rig.InStep

instance (e : ManagerError) (rig : Rig) : Decidable (e.Disturbs rig) :=
  inferInstanceAs (Decidable (_ ∨ _ ∧ _))

/-- What has been reported about the active configuration. -/
structure ActivationReport where
  /-- What was skipped when it was activated. -/
  skipped : List String
  /-- Whether a failure since then may have disturbed what runs and has left what is loaded in step,
  so that nobody will notice. -/
  spoiled : Bool
  deriving DecidableEq

namespace ActivationReport

def fresh : ActivationReport := ⟨[], false⟩

/-- The report after a deed, by the rigs before and after. -/
def next (report : ActivationReport) (rig after : Rig) : Deed → ActivationReport
  | .nothing => report
  | .failed e =>
    { report with spoiled := report.spoiled || decide (e.Disturbs rig ∧ after.InStep) }
  | .started skipped => ⟨skipped, false⟩
  | .stopped => fresh

/-- Of what is active the report is true, unless it is spoiled, or the next transition will find out
that it is not. -/
def Holds (report : ActivationReport) (rig : Rig) : Prop :=
  ∀ c, rig.memory.active = some c → rig.registry.loaded ≠ c.resources ∨ report.spoiled = true ∨
    c.RunsOn report.skipped rig.registry

theorem Holds.carry {report : ActivationReport} {rig after : Rig} (h : report.Holds rig)
    (memory : after.memory.active = rig.memory.active)
    (held : after.registry.held = rig.registry.held) : report.Holds after := by
  intro c hactive
  rw [memory] at hactive
  rw [SimRegistry.loaded_congr held]
  refine (h c hactive).imp_right (Or.imp_right fun hruns => hruns.congr fun resource _ => ?_)
  rw [SimRegistry.running_eq, SimRegistry.running_eq, held]

theorem spoiled_next {report : ActivationReport} (h : report.spoiled = true) (rig after : Rig)
    (e : ManagerError) : (report.next rig after (.failed e)).spoiled = true := by
  show (report.spoiled || _) = true
  rw [h, Bool.true_or]

theorem Holds.failed {report : ActivationReport} {rig after : Rig} (h : report.Holds after)
    (e : ManagerError) : (report.next rig after (.failed e)).Holds after := fun c hactive =>
  (h c hactive).imp_right (Or.imp_left fun hspoiled => spoiled_next hspoiled rig after e)

/-- A failure that disturbs is found out about, or spoils the report. -/
theorem holds_of_disturbs {report : ActivationReport} {rig after : Rig} {e : ManagerError}
    (h : e.Disturbs rig) : (report.next rig after (.failed e)).Holds after := by
  intro c hactive
  by_cases hstep : after.InStep
  · refine .inr (.inl ?_)
    show (report.spoiled || decide (e.Disturbs rig ∧ after.InStep)) = true
    rw [decide_eq_true ⟨h, hstep⟩, Bool.or_true]
  · rw [Rig.InStep, hactive] at hstep
    exact .inl (Ne.symm hstep)

end ActivationReport

def Manager.reportAfter (m : Manager) : ActivationReport → Rig → List Move → ActivationReport
  | report, _, [] => report
  | report, rig, move :: rest =>
    m.reportAfter (report.next rig (m.take rig move) (m.deed rig move)) (m.take rig move) rest

/-- Others leave what the registry holds, though perhaps with other faults. -/
def Move.LeavesHeld (rig : Rig) : Move → Prop
  | .registry changed => changed.held = rig.registry.held
  | _ => True

theorem SimRegistry.Replays.runsOnce {r after : SimRegistry} {seen : List Observation}
    (h : r.Replays seen after) (once : RunsOnce r.held) : RunsOnce after.held := by
  induction seen generalizing r with
  | nil =>
    cases h
    exact once
  | cons o rest ih =>
    cases o with
    | called operation limit answer =>
      obtain ⟨now, -, hrest⟩ := h
      exact ih hrest (once.run now limit operation)
    | reported resource state => exact ih h.2 once
    | lookedUp key found => exact ih h once

namespace Manager

variable {m : Manager} {rig after : Rig} {report : ActivationReport}

/-! ## One move -/

theorem Transits.runsOnce {target : Option Configuration} {strictness : Strictness}
    {outcome : Except ManagerError TransitionRecord}
    (h : m.Transits rig target strictness outcome after)
    (once : SimRegistry.RunsOnce rig.registry.held) :
    SimRegistry.RunsOnce after.registry.held := by
  have hreplays := fun begin => Procedure.replays_history
    (Transition.run m.settings.transitionOptions rig.memory.active target strictness
      m.settings.requestTimeout) begin
  cases h with
  | @failed begin mid _ _ hbefore hrun hafter =>
    have hmid := hreplays begin
    rw [hrun, hbefore.registry] at hmid
    rw [hafter.registry]
    exact hmid.runsOnce once
  | @settled begin mid _ _ hbefore hrun hafter =>
    have hmid := hreplays begin
    rw [hrun, hbefore.registry] at hmid
    rw [hafter.registry]
    exact hmid.runsOnce once

theorem Transits.holds {target : Option Configuration} {strictness : Strictness} {e : ManagerError}
    (h : m.Transits rig target strictness (.error e) after) (calm : rig.armed = ∅)
    (holds : report.Holds rig) : (report.next rig after (.failed e)).Holds after := by
  have hmemory := (h.unwritten calm).1.1
  cases h with
  | failed hbefore hrun hafter =>
    obtain ⟨hprelim, hearly⟩ := running_of_failed hrun
    rw [hbefore.registry] at hprelim hearly
    rw [← hafter.registry] at hprelim hearly
    rcases stage_of_failed hrun with hstage | hstage | hstage
    · have hholds : report.Holds after := holds.carry (by rw [hmemory]) (hprelim hstage)
      exact hholds.failed e
    -- a failure while loading or verifying: what matters is whether there has been a purge
    · by_cases hstep : rig.InStep
      · -- in step, what is active is what was kept, and runs as it did
        intro c hactive
        rw [hmemory] at hactive
        have hloaded : c.resources = rig.registry.loaded := by
          rw [Rig.InStep, hactive] at hstep
          exact hstep
        refine .inr ((holds c hactive).resolve_left (fun hn => hn hloaded.symm) |>.imp ?_ ?_)
        · exact fun hspoiled => ActivationReport.spoiled_next hspoiled rig after e
        · intro hruns
          refine hruns.congr fun resource hm => ?_
          rw [hearly hstage resource, if_pos]
          rw [mem_kept_iff, hactive]
          exact ⟨hm, hloaded⟩
      · exact ActivationReport.holds_of_disturbs (.inr ⟨hstage, hstep⟩)
    · exact ActivationReport.holds_of_disturbs (.inl hstage)

/-- After a transition that succeeds the report is true. -/
theorem Transits.runsOn {target : Configuration} {strictness : Strictness}
    {record : TransitionRecord} (h : m.Transits rig (some target) strictness (.ok record) after)
    (once : SimRegistry.RunsOnce rig.registry.held) :
    target.RunsOn record.skippedControllers after.registry := by
  cases h with
  | settled hbefore hrun hafter =>
    obtain ⟨steps, hcourse, hsteps⟩ := settled_of_run hrun
    obtain ⟨-, hrunning, hskipped, -⟩ := settled_arrives hcourse hsteps
    rw [hafter.registry]
    refine ⟨fun resource hm => (hrunning resource hm).1 ?_, fun resource hm id hid => ?_, hskipped⟩
    · rw [hbefore.registry]
      exact once resource
    · exact (((hrunning resource hm).2 id).1 hid).1

theorem Does.holds {deed : Deed} (h : m.Does rig deed after) (calm : rig.armed = ∅)
    (once : SimRegistry.RunsOnce rig.registry.held) (holds : report.Holds rig) :
    (report.next rig after deed).Holds after ∧ SimRegistry.RunsOnce after.registry.held := by
  cases h with
  | looks halike =>
    refine ⟨holds.carry (by rw [halike.memory]) (by rw [halike.registry]), ?_⟩
    rw [halike.registry]
    exact once
  | renews hread halike =>
    refine ⟨holds.carry (by rw [halike.memory]) (by rw [halike.registry]), ?_⟩
    rw [halike.registry]
    exact once
  | @refuses e _ halike =>
    have hholds : report.Holds after :=
      holds.carry (by rw [halike.memory]) (by rw [halike.registry])
    refine ⟨hholds.failed e, ?_⟩
    rw [halike.registry]
    exact once
  | fails htransits => exact ⟨htransits.holds calm holds, htransits.runsOnce once⟩
  | starts htransits =>
    refine ⟨fun c hactive => ?_, htransits.runsOnce once⟩
    obtain ⟨t, hmemory⟩ := (htransits.noted calm).memory
    rw [hmemory] at hactive
    cases hactive
    exact .inr (.inr (htransits.runsOn once))
  | stops htransits =>
    refine ⟨fun c hactive => ?_, htransits.runsOnce once⟩
    obtain ⟨t, hmemory⟩ := (htransits.noted calm).memory
    rw [hmemory] at hactive
    cases hactive

/-- One move keeps the report true, or spoils it, if others leave what is held. -/
theorem holds_take (m : Manager) (calm : rig.armed = ∅)
    (once : SimRegistry.RunsOnce rig.registry.held) (holds : report.Holds rig) {move : Move}
    (leaves : move.LeavesHeld rig) :
    (report.next rig (m.take rig move) (m.deed rig move)).Holds (m.take rig move) ∧
      SimRegistry.RunsOnce (m.take rig move).registry.held := by
  cases move with
  | registry changed =>
    have hheld : changed.held = rig.registry.held := leaves
    refine ⟨holds.carry rfl hheld, ?_⟩
    show SimRegistry.RunsOnce changed.held
    rw [hheld]
    exact once
  | access use => exact ⟨holds.carry rfl rfl, once⟩
  | elapse d => exact ⟨holds.carry rfl rfl, once⟩
  | exit cue => exact ⟨holds.carry rfl rfl, once⟩
  | _ => exact (m.does_take calm _ id).holds calm once holds

/-! ## Every run -/

theorem holds_takeAll (m : Manager) (calm : rig.armed = ∅)
    (once : SimRegistry.RunsOnce rig.registry.held) (holds : report.Holds rig) {moves : List Move}
    (leaves : m.Throughout Move.LeavesHeld rig moves) :
    (m.reportAfter report rig moves).Holds (m.takeAll rig moves) := by
  induction moves generalizing rig report with
  | nil => exact holds
  | cons move rest ih =>
    obtain ⟨hholds, honce⟩ := m.holds_take calm once holds leaves.1
    exact ih (m.calm_take calm move) honce hholds leaves.2

/-- **What is reported is true until a failure spoils it, or the next transition will find out.** A
manager is made on a registry that holds nothing, and from then on nobody else touches what is held,
though faults may come and go. If a configuration is active, then what is loaded is not what it
needs, or a transition has failed since it was activated and has spoiled the report, or on each of
its resources run, once each, the controllers that it declares, apart from those that were reported
as skipped when it was activated. -/
theorem truth_of_run (m : Manager) (rig made : Rig) (moves : List Move) (calm : rig.armed = ∅)
    (empty : rig.registry.held = ∅) (madeOn : m.MadeOn rig made)
    (leaves : m.Throughout Move.LeavesHeld made moves) :
    let after := m.takeAll made moves
    let report := m.reportAfter .fresh made moves
    ∀ c, after.memory.active = some c → after.registry.loaded ≠ c.resources ∨
      report.spoiled = true ∨ c.RunsOn report.skipped after.registry := by
  obtain ⟨-, ⟨catalog, hmemory⟩, -, hregistry, hcalm⟩ := madeOn.fresh calm
  refine m.holds_takeAll hcalm ?_ ?_ leaves
  · rw [hregistry, empty]
    exact SimRegistry.runsOnce_empty
  · intro c hactive
    rw [hmemory] at hactive
    cases hactive

/-- Welding is started in place of handling without its torch, and goes on when feeding is refused.
-/
def weldingWithoutTorch : List Move :=
  [.start "handling" .strict,
    .registry ((Rig.handling.registry.failController "arm" "torch").failLoad "belt"),
    .start "welding" .bestEffort, .start "feeding" .strict]

/-- It has been reported that the torch does not run, and all the rest does. -/
theorem truth_of_run_welding :
    ∃ c ∈ (Manager.usual.takeAll (Manager.usual.made .workshop) weldingWithoutTorch).memory.active,
      c.name = "welding" ∧ c.RunsOn ["arm/torch"]
        (Manager.usual.takeAll (Manager.usual.made .workshop) weldingWithoutTorch).registry := by
  have htruth := truth_of_run .usual .workshop (Manager.usual.made .workshop) weldingWithoutTorch
    rfl rfl (madeOn_made (by decide +kernel)) ⟨trivial, rfl, trivial, trivial, trivial⟩
  obtain ⟨c, hactive, hname, hloaded⟩ :
      ∃ c ∈ (Manager.usual.takeAll (Manager.usual.made .workshop)
        weldingWithoutTorch).memory.active, c.name = "welding" ∧
        (Manager.usual.takeAll (Manager.usual.made .workshop)
          weldingWithoutTorch).registry.loaded = c.resources := by
    decide +kernel
  have hreport : (Manager.usual.reportAfter .fresh (Manager.usual.made .workshop)
      weldingWithoutTorch) = ⟨["arm/torch"], false⟩ := by
    decide +kernel
  have hruns := (htruth c hactive).resolve_left fun hn => hn hloaded
  rw [hreport] at hruns
  exact ⟨c, hactive, hname, hruns.resolve_left Bool.false_ne_true⟩

/-! ## Reports that nobody knows to be wrong -/

/-- While handling goes on, the gate cannot be loaded, and so feeding is refused. -/
def feedingRefused : List Move :=
  [.start "handling" .strict, .registry (Rig.handling.registry.failLoad "gate"),
    .start "feeding" .strict]

/-- After that the belt cannot be loaded either, and feeding is refused again. -/
def feedingRefusedTwice : List Move :=
  let refused := Manager.usual.takeAll (Manager.usual.made .workshop) feedingRefused
  feedingRefused ++ [.registry (refused.registry.failLoad "belt"), .start "feeding" .strict]

/-- While handling goes on, the torch cannot be started, and so welding is refused. -/
def weldingRefused : List Move :=
  [.start "handling" .strict, .registry (Rig.handling.registry.failController "arm" "torch"),
    .start "welding" .strict]

/-- In some moves nobody else touches what is held. In the end handling is active, nothing was
skipped, and what is loaded is what handling needs; but the gripper does not run. -/
structure LosesGripper (moves : List Move) : Prop where
  leaves : Manager.usual.Throughout Move.LeavesHeld (Manager.usual.made .workshop) moves
  unnoticed :
    (Manager.usual.reportAfter .fresh (Manager.usual.made .workshop) moves).skipped = [] ∧
    ∃ c ∈ (Manager.usual.takeAll (Manager.usual.made .workshop) moves).memory.active,
      (Manager.usual.takeAll (Manager.usual.made .workshop) moves).registry.loaded =
        c.resources ∧
      c.declared "arm" = ["grip"] ∧
      (Manager.usual.takeAll (Manager.usual.made .workshop) moves).registry.running "arm" = []

/-- **A report can be wrong without anybody noticing.** When welding is refused the gripper has been
stopped, and when feeding is refused for the second time the arm has been lost in a purge and been
loaded again. -/
theorem truth_is_lost : LosesGripper weldingRefused ∧ LosesGripper feedingRefusedTwice := by
  constructor
  · exact ⟨⟨trivial, rfl, trivial, trivial⟩, by decide +kernel⟩
  · exact ⟨⟨trivial, rfl, trivial, rfl, trivial, trivial⟩, by decide +kernel⟩

end Manager

end ControlRig
