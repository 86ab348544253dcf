import ControlRig.Proofs.Registry.Reachable
import ControlRig.Proofs.Transition.CallOrder
import ControlRig.Proofs.Transition.Replay

/-!
# Where a transition arrives

There are two ways to a target. On a registry that is in step, a transition loads what is new on top
of what is there; on one that is not, it purges and loads what either configuration needs. **Both
arrive at the same resources and, faults apart, at the same controllers.**

The two ways part at the purge and are together again once everything is loaded
(`kept_union_due`), so they are told apart only in what has been running before.
-/

namespace ControlRig

namespace Transition

open Observation Procedure

variable {active target : Option Configuration} {strictness : Strictness} {limit : Duration}
variable {r after : SimRegistry}

/-- A registry that has gone through the course of a transition that settles. -/
theorem settled_arrives {timeout : Duration} {steps : List Observation} {record : TransitionRecord}
    (course : Course active target strictness limit timeout r.held.keys steps (.settled record))
    (replays : r.Replays steps after) :
    after.loaded = Configuration.resourcesOf target ∧
    (∀ resource ∈ Configuration.resourcesOf target,
      ((r.running resource).Nodup → (after.running resource).Nodup) ∧
      ∀ id, id ∈ after.running resource ↔
        id ∈ Configuration.declaredBy target resource ∧
          ((id ∈ r.running resource ∧ resource ∈ kept active r.loaded) ∨
            SimRegistry.controllerName resource id ∉ r.faults.controllers)) ∧
    record.skippedControllers = (Configuration.resourcesOf target).names.flatMap (fun resource =>
      ((Configuration.declaredBy target resource).filter fun id =>
        id ∉ after.running resource).map (SimRegistry.controllerName resource)) ∧
    (strictness = .strict → record.skippedControllers = []) := by
  cases course with
  | @settled reports started skipped verification hready hstarted =>
    rw [SimRegistry.ofList_keys] at replays
    obtain ⟨s₃, hthird, hrelease⟩ := SimRegistry.replays_append.1 replays
    obtain ⟨s₂, hsecond, hstart⟩ := SimRegistry.replays_append.1 hthird
    obtain ⟨s₁, hfirst, hreports⟩ := SimRegistry.replays_append.1 hsecond
    cases replays_reports hready.reports hreports
    obtain ⟨intime, -, hloaded, hbefore⟩ := replays_loaded hfirst
    have hthere : s₃.loaded =
        Configuration.resourcesOf active ∪ Configuration.resourcesOf target := by
      rw [hstarted.loaded hstart, hloaded, NameSet.ofList_names, kept_union_due]
    have hlatency : ¬ limit < s₃.latency := by
      rw [hstart.latency]
      exact intime
    have hgone := replays_releasing hlatency hrelease
    -- no resource of the target is released, so what runs there stays as the start has left it
    have hstays : ∀ resource ∈ Configuration.resourcesOf target,
        after.running resource = SimRegistry.runningIn s₃.held resource := by
      intro resource hm
      have hnot : resource ∉ dropped active target := fun hd => (NameSet.mem_sdiff.1 hd).2 hm
      rw [SimRegistry.running_eq, SimRegistry.runningIn, (hgone resource).2 hnot]
      rfl
    obtain ⟨hrunning, hskipped, hstrict⟩ := hstarted.running hstart
    refine ⟨?_, fun resource hm => ?_, ?_, hstrict⟩
    · apply NameSet.ext_mem
      intro key
      rw [SimRegistry.mem_loaded_iff]
      by_cases hd : key ∈ dropped active target
      · rw [(hgone key).1 hd]
        constructor
        · intro hnone
          cases hnone
        · intro hm
          exact absurd hm (NameSet.mem_sdiff.1 hd).2
      · rw [(hgone key).2 hd, ← SimRegistry.mem_loaded_iff, hthere, NameSet.mem_union]
        constructor
        · rintro (ha | ht)
          · exact Classical.not_not.1 fun ht => hd (NameSet.mem_sdiff.2 ⟨ha, ht⟩)
          · exact ht
        · exact .inr
    · obtain ⟨hnodup, hmem⟩ := hrunning resource hm
      rw [hstays resource hm]
      constructor
      · intro honce
        apply hnodup
        rw [hbefore resource]
        split
        · exact honce
        · exact List.nodup_nil
      · intro id
        rw [hmem id, hfirst.faults, hbefore resource]
        by_cases hkept : resource ∈ kept active r.loaded
        · rw [if_pos hkept, SimRegistry.running_eq]
          simp only [hkept, and_true]
        · rw [if_neg hkept]
          simp only [hkept, and_false, List.not_mem_nil]
    · show skipped = _
      rw [hskipped]
      refine congrArg List.flatten (List.map_congr_left fun resource hm => ?_)
      rw [hstays resource hm]

/-- **Where a transition that succeeds has got to.** Loaded is what the target needs. On each of its
resources run, once each, the declared controllers that ran there before, if the resource was kept,
and those that are not made to fail. The record names the other declared ones, and a strict
transition has none of these. -/
theorem run_arrives (options : Options) (active target : Option Configuration)
    (strictness : Strictness) (limit : Duration) (rig : Rig)
    (reachable : rig.registry.Reachable) (record : TransitionRecord) (after : Rig)
    (succeeds : (run options active target strictness limit).run rig =
      (some (.ok record), after)) :
    after.registry.loaded = Configuration.resourcesOf target ∧
    (∀ resource ∈ Configuration.resourcesOf target,
      (after.registry.running resource).Nodup ∧
      ∀ id, id ∈ after.registry.running resource ↔
        id ∈ Configuration.declaredBy target resource ∧
          ((id ∈ rig.registry.running resource ∧
              resource ∈ Configuration.resourcesOf active ∧
              Configuration.resourcesOf active = rig.registry.loaded) ∨
            SimRegistry.controllerName resource id ∉ rig.registry.faults.controllers)) ∧
    record.skippedControllers = (Configuration.resourcesOf target).names.flatMap (fun resource =>
      ((Configuration.declaredBy target resource).filter fun id =>
        id ∉ after.registry.running resource).map (SimRegistry.controllerName resource)) ∧
    (strictness = .strict → record.skippedControllers = []) := by
  obtain ⟨attempt, mid, -, -, steps, undone, -, hsteps, hundo, hcourse, hundone, houtcome⟩ :=
    course_of_run succeeds
  cases hundone with
  | settled settledRecord =>
    cases houtcome
    rw [SimRegistry.replays_nil] at hundo
    rw [hundo]
    obtain ⟨hloaded, hrunning, hskipped, hstrict⟩ := settled_arrives hcourse hsteps
    refine ⟨hloaded, fun resource hm => ?_, hskipped, hstrict⟩
    obtain ⟨hnodup, hmem⟩ := hrunning resource hm
    refine ⟨hnodup (reachable.nodup resource), fun id => ?_⟩
    rw [hmem id, mem_kept_iff]
  | rolledBack | kept | refused => cases houtcome

/-- From handling to welding: the gripper, which could not be started again, goes on running; the
torch, which cannot be started, is skipped. -/
theorem run_arrives_welding :
    ∃ record after,
      (run Settings.standard.transitionOptions (some .handling) (some .welding) .bestEffort
        .zero).run whileHandling = (some (.ok record), after) ∧
      after.registry.loaded = Configuration.welding.resources ∧
      "grip" ∈ after.registry.running "arm" ∧ "torch" ∉ after.registry.running "arm" := by
  have hsucceeds : (run Settings.standard.transitionOptions (some .handling) (some .welding)
      .bestEffort .zero).Succeeds whileHandling := by
    decide +kernel
  obtain ⟨record, after, hrun⟩ := hsucceeds
  obtain ⟨hloaded, hrunning, -⟩ :=
    run_arrives Settings.standard.transitionOptions (some .handling) (some .welding) .bestEffort
      .zero whileHandling SimRegistry.whileHandling_reachable record after hrun
  obtain ⟨-, hmem⟩ := hrunning "arm" (by decide +kernel)
  refine ⟨record, after, hrun, hloaded, ?_, ?_⟩
  · rw [hmem "grip"]
    exact ⟨by decide +kernel, .inl ⟨by decide +kernel, by decide +kernel, by decide +kernel⟩⟩
  · rw [hmem "torch"]
    decide +kernel

end Transition

end ControlRig
