import ControlRig.Proofs.Transition.Arrival
import ControlRig.Proofs.Transition.Rollback

/-!
# What goes on running

After a transition that settles, what runs is found in `ControlRig.Proofs.Transition.Arrival`. After
one that fails it depends on how far that got. A failure while resources are loaded or verified
comes before any controller is touched, and a rollback touches only what is new: **what was kept
runs as it did, and nothing else runs** (`early_running`). From the start on a failure leaves
controllers as they happen to be, of which nothing is promised.

A transition to nothing starts nothing. So on a registry that stops and unloads what it is told to,
such a transition can fail only while it loads what it has to unload (`stopping_early`).
-/

namespace ControlRig

/-- An error from loading or verifying: after the purge, if there is one, and before the start. -/
def ManagerError.Early : ManagerError → Prop
  | .resourceLoad .. => True
  | .resourceVerification .. => True
  | _ => False

/-- An error from starting, stopping or unloading, after which controllers may have been stopped. -/
def ManagerError.Late : ManagerError → Prop
  | .controllerStart _ => True
  | .controllerStop _ => True
  | .resourceUnload _ => True
  | _ => False

instance : DecidablePred ManagerError.Early
  | .resourceLoad .. | .resourceVerification .. => isTrue trivial
  | .catalog _ | .unknownConfiguration _ | .missingParameter .. | .controllerStart _
  | .controllerStop _ | .resourceUnload _ | .registryQuery _ | .purge _ | .config _
  | .unreadable => isFalse id

instance : DecidablePred ManagerError.Late
  | .controllerStart _ | .controllerStop _ | .resourceUnload _ => isTrue trivial
  | .catalog _ | .unknownConfiguration _ | .missingParameter .. | .resourceLoad ..
  | .resourceVerification .. | .registryQuery _ | .purge _ | .config _ | .unreadable => isFalse id

namespace Transition

open Observation Procedure

variable {active target : Option Configuration} {strictness : Strictness}
variable {limit timeout : Duration} {steps undone : List Observation}
variable {loaded : List String} {e : ManagerError} {r mid after : SimRegistry}

/-! ## After an early failure -/

theorem early_steps
    (course : Course active target strictness limit timeout r.held.keys steps (.failed loaded e))
    (early : e.Early) (replays : r.Replays steps after) (resource : String) :
    after.running resource =
      if resource ∈ kept active r.loaded then r.running resource else [] := by
  cases course with
  | unloaded e hsplit =>
    obtain ⟨mid, hfirst, now, hanswer, hafter⟩ := SimRegistry.replays_append.1 replays
    obtain ⟨-, -, -, hrunning⟩ := replays_loaded hfirst
    rw [SimRegistry.replays_nil] at hafter
    rw [hafter, SimRegistry.running_eq, SimRegistry.run_load_error hanswer]
    exact hrunning resource
  | unready hreports hfailed =>
    obtain ⟨mid, hfirst, hwait⟩ := SimRegistry.replays_append.1 replays
    obtain ⟨-, -, -, hrunning⟩ := replays_loaded hfirst
    cases replays_reports hreports hwait
    exact hrunning resource
  | unstarted | unstopped | unreleased => exact absurd early id

/-- A rollback stops what it is for, and leaves alone what it is not for. -/
theorem undone_running {policy : RollbackPolicy}
    (h : Undone limit policy (.failed loaded e) undone) (replays : r.Replays undone after)
    (intime : ¬ limit < r.latency) (resource : String) :
    (resource ∉ loaded → after.running resource = r.running resource) ∧
      (r.running resource = [] → after.running resource = []) := by
  cases h with
  | kept hkeep =>
    rw [SimRegistry.replays_nil] at replays
    rw [replays]
    exact ⟨fun _ => rfl, id⟩
  | rolledBack stopped unloaded hpolicy hloaded =>
    obtain ⟨now, -, now', -, hafter⟩ := replays
    rw [SimRegistry.replays_nil] at hafter
    let mid := (r.run now limit (.stopControllers loaded)).registry
    have hmid : ¬ limit < mid.latency := by
      rw [SimRegistry.run_latency]
      exact intime
    obtain ⟨-, hheld⟩ := SimRegistry.run_unload now' hmid loaded
    rw [hafter, SimRegistry.running_eq, hheld]
    by_cases hm : resource ∈ loaded
    · refine ⟨fun hn => absurd hm hn, fun hnone => ?_⟩
      split
      · exact r.run_stopControllers_running now limit loaded hnone
      · rw [SimRegistry.runningIn, SortedMap.find?_foldl_erase, if_pos hm]
        rfl
    · have hsame : (if mid.faults.unload then mid.held else loaded.foldl .erase mid.held).find?
          resource = r.held.find? resource := by
        rw [← r.run_stopControllers_find? now limit loaded hm]
        split
        · rfl
        · rw [SortedMap.find?_foldl_erase, if_neg hm]
      rw [SimRegistry.running_eq, SimRegistry.runningIn, SimRegistry.runningIn, hsame]
      exact ⟨fun _ => rfl, id⟩

/-- **After an early failure what was kept runs as it did, and nothing else runs.** -/
theorem early_running {policy : RollbackPolicy}
    (course : Course active target strictness limit timeout r.held.keys steps (.failed loaded e))
    (early : e.Early) (replays : r.Replays steps mid)
    (hundone : Undone limit policy (.failed loaded e) undone) (undoes : mid.Replays undone after)
    (resource : String) :
    after.running resource =
      if resource ∈ kept active r.loaded then r.running resource else [] := by
  obtain ⟨intime, hnew, -⟩ := failed_loaded course replays
  have hsteps := early_steps course early replays resource
  obtain ⟨hspared, hstays⟩ := undone_running hundone undoes intime resource
  by_cases hkept : resource ∈ kept active r.loaded
  · rw [if_pos hkept] at hsteps ⊢
    rw [hspared fun hm => hnew resource hm hkept, hsteps]
  · rw [if_neg hkept] at hsteps ⊢
    exact hstays hsteps

/-! ## What was in the way of nothing -/

/-- **What a transition that settles has loaded does not refuse to load, and does not stall.** -/
theorem settled_willing {record : TransitionRecord}
    (course : Course active target strictness limit timeout r.held.keys steps (.settled record))
    (replays : r.Replays steps after) :
    ∀ resource ∈ due active target r.loaded,
      resource ∉ r.faults.loads ∧ resource ∉ r.faults.stalls := by
  cases course with
  | @settled reports started skipped verification hready hstarted =>
    rw [SimRegistry.ofList_keys] at replays hready
    obtain ⟨s₃, hthird, -⟩ := SimRegistry.replays_append.1 replays
    obtain ⟨s₂, hsecond, -⟩ := SimRegistry.replays_append.1 hthird
    obtain ⟨s₁, hfirst, hreports⟩ := SimRegistry.replays_append.1 hsecond
    obtain ⟨begun, hopening, hloading⟩ := SimRegistry.replays_append.1 hfirst
    intro resource hm
    constructor
    · rw [← hopening.faults]
      exact replays_loading_willing hloading resource hm
    · obtain ⟨-, t, hfind⟩ := (replays_loading hloading resource).1 hm
      obtain ⟨state, hreported, hstate⟩ := hready.ready resource hm
      obtain ⟨now, rfl⟩ := replays_reported hready.reports hreports hreported
      rw [← hfirst.faults]
      exact SimRegistry.not_stalled_of_ready hfind hstate

/-! ## To nothing -/

section

variable (intime : ¬ limit < r.latency) (lists : r.faults.list = false)
variable (stops : r.faults.stop = false) (unloads : r.faults.unload = false)

include intime lists unloads in
/-- A registry that lists and purges lets a transition to nothing begin. -/
theorem stopping_begins
    (course : Course active none strictness limit timeout r.held.keys steps (.refused e)) :
    ¬ r.Replays steps after := by
  intro replays
  cases course with
  | unlisted e =>
    obtain ⟨now, hanswer, -⟩ := replays
    rw [SimRegistry.run_listLoaded now intime, lists] at hanswer
    cases hanswer
  | unmet hsplit => exact absurd hsplit.symm (by simp [requirementsOf])
  | unpurged e hstep =>
    obtain ⟨mid, hlist, hpurge⟩ := SimRegistry.replays_append.1
      (show r.Replays ([_] ++ _) after from replays)
    obtain ⟨now, hanswer, -⟩ := hpurge
    have hmid : ¬ limit < mid.latency := by
      rw [hlist.latency]
      exact intime
    rw [(SimRegistry.run_purge now hmid).1, hlist.faults, unloads] at hanswer
    cases hanswer

include intime stops unloads in
/-- **A registry that stops and unloads lets a transition to nothing fail early or not at all.** -/
theorem stopping_early
    (course : Course active none strictness limit timeout r.held.keys steps (.failed loaded e))
    (replays : r.Replays steps after) : e.Early := by
  cases course with
  | unloaded e hsplit => trivial
  | unready hreports hfailed => trivial
  | unstarted e hready htarget hsome => cases htarget
  | unstopped e hready hstarted hdropped =>
    obtain ⟨mid, hfirst, now, hanswer, -⟩ := SimRegistry.replays_append.1 replays
    have hmid : ¬ limit < mid.latency := by
      rw [hfirst.latency]
      exact intime
    rw [SimRegistry.run_stopControllers now hmid, hfirst.faults, stops] at hanswer
    cases hanswer
  | unreleased e hready hstarted hdropped =>
    obtain ⟨mid, hfirst, now, -, now', hanswer, -⟩ := SimRegistry.replays_append.1 replays
    have hmid : ¬ limit < mid.latency := by
      rw [hfirst.latency]
      exact intime
    rw [(SimRegistry.run_unload now' (by rw [SimRegistry.run_latency]; exact hmid) _).1,
      SimRegistry.run_faults, hfirst.faults, unloads] at hanswer
    cases hanswer

end

/-! ## Runs -/

section

variable {options : Options} {rig final : Rig}

/-- A run that succeeds has gone through a course that settles. -/
theorem settled_of_run {record : TransitionRecord}
    (h : (run options active target strictness limit).run rig = (some (.ok record), final)) :
    ∃ steps, Course active target strictness limit options.verification.timeout
        rig.registry.held.keys steps (.settled record) ∧
      rig.registry.Replays steps final.registry := by
  obtain ⟨attempt, mid, -, -, steps, undone, -, hsteps, hundo, hcourse, hundone, houtcome⟩ :=
    course_of_run h
  cases hundone with
  | settled record =>
    cases houtcome
    rw [SimRegistry.replays_nil] at hundo
    rw [hundo]
    exact ⟨steps, hcourse, hsteps⟩
  | rolledBack | kept | refused => cases houtcome

/-- A run that fails has stopped before there was something to undo, or it has been undone. -/
theorem failed_of_run
    (h : (run options active target strictness limit).run rig = (some (.error e), final)) :
    (∃ steps, Course active target strictness limit options.verification.timeout
        rig.registry.held.keys steps (.refused e) ∧ rig.registry.Replays steps final.registry) ∨
      ∃ loaded steps undone mid, Course active target strictness limit options.verification.timeout
          rig.registry.held.keys steps (.failed loaded e) ∧ rig.registry.Replays steps mid ∧
        Undone limit options.rollback (.failed loaded e) undone ∧
        mid.Replays undone final.registry := by
  obtain ⟨attempt, mid, -, -, steps, undone, -, hsteps, hundo, hcourse, hundone, houtcome⟩ :=
    course_of_run h
  cases attempt with
  | settled record => cases houtcome
  | refused e =>
    cases houtcome
    cases hundone
    rw [SimRegistry.replays_nil] at hundo
    rw [hundo]
    exact .inl ⟨steps, hcourse, hsteps⟩
  | failed loaded e =>
    cases houtcome
    exact .inr ⟨loaded, steps, undone, mid.registry, hcourse, hsteps, hundone, hundo⟩

theorem stage_of_failed
    (h : (run options active target strictness limit).run rig = (some (.error e), final)) :
    e.Preliminary ∨ e.Early ∨ e.Late := by
  rcases failed_of_run h with ⟨steps, hcourse, -⟩ | ⟨loaded, steps, undone, mid, hcourse, -⟩
  · exact .inl hcourse.preliminary
  · cases hcourse with
    | unloaded | unready => exact .inr (.inl trivial)
    | unstarted | unstopped | unreleased => exact .inr (.inr trivial)

/-- **What runs after a run that fails**, unless it fails once controllers are being changed. -/
theorem running_of_failed
    (h : (run options active target strictness limit).run rig = (some (.error e), final)) :
    (e.Preliminary → final.registry.held = rig.registry.held) ∧
      (e.Early → ∀ resource, final.registry.running resource =
        if resource ∈ kept active rig.registry.loaded then rig.registry.running resource
        else []) := by
  rcases failed_of_run h with ⟨steps, hcourse, hsteps⟩ | ⟨loaded, steps, undone, mid, hcourse,
    hsteps, hundone, hundo⟩
  · refine ⟨fun _ => refused_held hcourse hsteps, fun hearly => ?_⟩
    cases hcourse <;> exact absurd hearly id
  · refine ⟨fun hprelim => absurd hprelim hcourse.not_preliminary, fun hearly resource => ?_⟩
    exact early_running hcourse hearly hsteps hundone hundo resource

end

end Transition

end ControlRig
