import ControlRig.Proofs.Transition.CallOrder
import ControlRig.Proofs.Transition.Promptness
import ControlRig.Proofs.Transition.Replay

/-!
# Transitions that nothing is in the way of

What a registry holds is never in the way of a transition: a registry that is out of step is purged,
one that is in step is built upon, and in neither case is something loaded that is there already. So
**a transition succeeds whatever earlier ones have left behind**, as long as what it does itself is
not made to fail (`run_recovers`).

`Unhindered` is the precise condition, and it is asked only of what the transition has to load
(`due`). Each phase has a lemma that carries it out on a rig; what the phase leaves for the later
ones is said along with it.
-/

namespace ControlRig

namespace Transition

open Procedure

variable {options : Options} {active target : Option Configuration} {strictness : Strictness}
variable {limit : Duration} {rig : Rig}

/-- Nothing that a transition does on a rig is made to fail or to take too long. -/
structure Unhindered (options : Options) (active target : Option Configuration)
    (strictness : Strictness) (limit : Duration) (rig : Rig) : Prop where
  calm : rig.armed = ∅
  lists : rig.registry.faults.list = false
  stops : rig.registry.faults.stop = false
  unloads : rig.registry.faults.unload = false
  intime : ¬ limit < rig.registry.latency
  willing : ∀ resource ∈ due active target rig.registry.loaded,
    resource ∉ rig.registry.faults.loads
  sound : ∀ resource ∈ due active target rig.registry.loaded,
    resource ∉ rig.registry.faults.stalls
  short : due active target rig.registry.loaded ≠ ∅ →
    rig.registry.initDelay ≤ options.verification.timeout
  parameters : ∀ requirement ∈ requirementsOf target, rig.params.hasEntry requirement.key = true
  starts : strictness = .bestEffort ∨ ∀ resource ∈ Configuration.resourcesOf target,
    ∀ id ∈ Configuration.declaredBy target resource,
      SimRegistry.controllerName resource id ∉ rig.registry.faults.controllers

/-! ## The phases before the first load -/

theorem run_firstUnmet (calm : rig.armed = ∅) {requirements : List Requirement}
    (met : ∀ requirement ∈ requirements, rig.params.hasEntry requirement.key = true) :
    (firstUnmet requirements).run rig = (some none, rig) := by
  induction requirements with
  | nil => rfl
  | cons requirement rest ih =>
    have hthere : (rig.respond (.hasEntry requirement.key)).1 = true :=
      met requirement List.mem_cons_self
    unfold firstUnmet
    rw [run_bind, hasEntry, run_of_calm calm]
    dsimp only
    rw [hthere, if_pos rfl]
    exact ih fun other ho => met other (List.mem_cons_of_mem _ ho)

theorem run_checkParameters (calm : rig.armed = ∅)
    (met : ∀ requirement ∈ requirementsOf target, rig.params.hasEntry requirement.key = true) :
    (checkParameters target).run rig = (some (.ok ()), rig) := by
  cases target with
  | none => rfl
  | some t => exact run_bind_some.2 ⟨none, rig, run_firstUnmet calm met, rfl⟩

/-- What is left after a purge that was due, or if none was, is what is kept. -/
theorem run_synchronize (active target : Option Configuration) (calm : rig.armed = ∅)
    (intime : ¬ limit < rig.registry.latency) (unloads : rig.registry.faults.unload = false) :
    ∃ after, (synchronize limit (.plan active target rig.registry.loaded)).run rig =
        (some (.ok (prepared active target rig.registry.loaded)), after) ∧
      rig.Continues after ∧ after.registry.loaded = kept active rig.registry.loaded := by
  unfold synchronize prepared kept
  by_cases hstep : Configuration.resourcesOf active = rig.registry.loaded
  · have hcoherent : (TransitionRecord.plan active target rig.registry.loaded).isCoherent = true :=
      decide_eq_true hstep
    rw [if_pos hcoherent, if_pos hstep, if_pos hstep]
    exact ⟨rig, rfl, .refl rig, rfl⟩
  · have hcoherent :
        ¬ (TransitionRecord.plan active target rig.registry.loaded).isCoherent = true :=
      fun hc => hstep (of_decide_eq_true hc)
    rw [if_neg hcoherent, if_neg hstep, if_neg hstep]
    obtain ⟨hanswer, hheld⟩ := SimRegistry.run_purge rig.clock intime
    rw [unloads, if_neg Bool.false_ne_true] at hanswer hheld
    refine ⟨_, run_bind_some.2 ⟨(), _, run_warn _ rig,
      run_bind_some.2 ⟨.ok [], _, run_call (rig.note _ _) calm hanswer, rfl⟩⟩,
      (rig.continues_note _ _).trans (Rig.continues_call _ _ _), ?_⟩
    show (rig.registry.run rig.clock limit .purge).registry.held.keySet = ∅
    rw [hheld]
    rfl

/-! ## Loading -/

/-- What is to be loaded, is not there and does not refuse is loaded, by the moment it is. -/
theorem run_loadAll {names : List String} (calm : rig.armed = ∅)
    (intime : ¬ limit < rig.registry.latency) (nodup : names.Nodup)
    (willing : ∀ resource ∈ names, resource ∉ rig.registry.faults.loads)
    (new : ∀ resource ∈ names, resource ∉ rig.registry.loaded) :
    ∃ after, (loadAll limit names).run rig = (some (names, none), after) ∧ rig.Continues after ∧
      (∀ resource ∈ names, ∃ t, t ≤ after.clock ∧
        after.registry.held.find? resource = some (.fresh t)) ∧
      ∀ resource ∉ names,
        after.registry.held.find? resource = rig.registry.held.find? resource := by
  induction names generalizing rig with
  | nil => exact ⟨rig, rfl, .refl rig, nofun, fun _ _ => rfl⟩
  | cons n rest ih =>
    obtain ⟨hn, hnodup⟩ := List.nodup_cons.1 nodup
    unfold loadAll
    rw [run_inform_bind]
    generalize hnoted : rig.note .info _ = noted
    obtain ⟨hregistry, hcontinues⟩ : noted.registry = rig.registry ∧ rig.Continues noted := by
      rw [← hnoted]
      exact ⟨rfl, rig.continues_note _ _⟩
    obtain ⟨hanswer, hheld⟩ := SimRegistry.run_load noted.clock intime
      (willing n List.mem_cons_self) (new n List.mem_cons_self)
    rw [← hregistry] at hanswer hheld
    let mid := (noted.call (.load n) limit).2
    have hfirst : rig.Continues mid := hcontinues.trans (Rig.continues_call _ _ _)
    -- no other resource is touched, so the rest is as new after this load as it was before
    have hsame : ∀ resource, n ≠ resource →
        mid.registry.held.find? resource = rig.registry.held.find? resource := by
      intro resource hne
      show ((noted.registry.run noted.clock limit (.load n)).registry.held.find? resource) = _
      rw [hheld, hregistry, SortedMap.find?_insert_of_ne _ hne]
    obtain ⟨after, hrun, hrest, hin, hout⟩ := ih (hfirst.armed.trans calm)
      (by rw [hfirst.latency]; exact intime) hnodup
      (fun resource hm => by
        rw [hfirst.faults]
        exact willing resource (List.mem_cons_of_mem _ hm))
      (fun resource hm => by
        rw [SimRegistry.not_mem_loaded_iff, hsame resource fun he => hn (he ▸ hm),
          ← SimRegistry.not_mem_loaded_iff]
        exact new resource (List.mem_cons_of_mem _ hm))
    refine ⟨after, ?_, hfirst.trans hrest, fun resource hm => ?_, fun resource hm => ?_⟩
    · exact run_bind_some.2 ⟨.ok [], mid, run_call noted (hcontinues.armed.trans calm) hanswer,
        run_bind_some.2 ⟨(rest, none), after, hrun, rfl⟩⟩
    · rcases List.mem_cons.1 hm with rfl | hm
      · refine ⟨mid.clock, hrest.clock, ?_⟩
        rw [hout resource hn]
        show ((noted.registry.run noted.clock limit (.load resource)).registry.held.find?
          resource) = _
        rw [hheld, SortedMap.find?_insert_self]
        rfl
      · exact hin resource hm
    · have hne : n ≠ resource := fun he => hm (he ▸ List.mem_cons_self)
      rw [hout resource fun hrest => hm (List.mem_cons_of_mem _ hrest), hsame resource hne]

/-! ## The phases after loading -/

/-- What has just been loaded, and has nothing wrong with it, is verified. -/
theorem run_verify (record : TransitionRecord) (calm : rig.armed = ∅)
    (fresh : ∀ resource ∈ record.toLoad, ∃ t, t ≤ rig.clock ∧
      rig.registry.held.find? resource = some (.fresh t))
    (sound : ∀ resource ∈ record.toLoad, resource ∉ rig.registry.faults.stalls)
    (short : record.toLoad ≠ ∅ → rig.registry.initDelay ≤ options.verification.timeout) :
    ∃ verification after, (verify options record).run rig =
        (some (.ok { record with verification := verification }), after) ∧
      rig.Continues after ∧ after.registry = rig.registry := by
  unfold verify
  by_cases hempty : record.toLoad = ∅
  · rw [if_pos (NameSet.isEmpty_iff.2 hempty)]
    exact ⟨record.verification, rig, rfl, .refl rig, rfl⟩
  · rw [if_neg fun he => hempty (NameSet.isEmpty_iff.1 he)]
    have hexpected : ∀ resource ∈ record.toLoad,
        (Poller.start rig.clock options.verification.rateHz
          options.verification.timeout).Expects rig.registry resource := by
      intro resource hm
      obtain ⟨t, hbefore, hfind⟩ := fresh resource hm
      exact SimRegistry.expects_fresh hfind (sound resource hm) hbefore (short hempty)
    obtain ⟨outcomes, after, hrun, hcontinues, hsame, hgood⟩ :=
      Verification.run_prompt calm hexpected
    refine ⟨outcomes, after, run_bind_some.2 ⟨outcomes, after, hrun, ?_⟩, hcontinues, hsame⟩
    rw [hgood]
    rfl

theorem run_startControllers (record : TransitionRecord) (calm : rig.armed = ∅)
    (intime : ¬ limit < rig.registry.latency)
    (targets : record.targetResources = Configuration.resourcesOf target)
    (there : ∀ resource ∈ Configuration.resourcesOf target, resource ∈ rig.registry.loaded)
    (starts : strictness = .bestEffort ∨ ∀ resource ∈ Configuration.resourcesOf target,
      ∀ id ∈ Configuration.declaredBy target resource,
        SimRegistry.controllerName resource id ∉ rig.registry.faults.controllers) :
    ∃ skipped after, (startControllers target strictness limit record).run rig =
        (some (.ok { record with skippedControllers := skipped }), after) ∧
      rig.Continues after := by
  cases target with
  | none => exact ⟨record.skippedControllers, rig, rfl, .refl rig⟩
  | some t =>
    unfold startControllers
    dsimp only
    by_cases hempty : record.targetResources.isEmpty = true
    · rw [if_pos hempty]
      exact ⟨record.skippedControllers, rig, rfl, .refl rig⟩
    · rw [if_neg hempty, run_inform_bind]
      generalize hnoted : rig.note .info _ = noted
      obtain ⟨hregistry, hcontinues⟩ : noted.registry = rig.registry ∧ rig.Continues noted := by
        rw [← hnoted]
        exact ⟨rfl, rig.continues_note _ _⟩
      obtain ⟨skipped, hanswer⟩ :=
        SimRegistry.run_startControllers noted.clock intime there starts
      rw [← targets, ← hregistry] at hanswer
      have hcall := run_call noted (hcontinues.armed.trans calm) hanswer
      have hfirst := hcontinues.trans (noted.continues_call (.startControllers
        record.targetResources.names t strictness) limit)
      by_cases hnone : (!skipped.isEmpty) = true
      · refine ⟨skipped, ?after, run_bind_some.2 ⟨.ok skipped, _, hcall, ?runs⟩, ?continues⟩
        case runs =>
          dsimp only
          rw [if_pos hnone, run_warn_bind]
          rfl
        case continues => exact hfirst.trans (Rig.continues_note _ _ _)
      · refine ⟨skipped, _, run_bind_some.2 ⟨.ok skipped, _, hcall, ?_⟩, hfirst⟩
        dsimp only
        rw [if_neg hnone]
        rfl

theorem run_release (record : TransitionRecord) (calm : rig.armed = ∅)
    (intime : ¬ limit < rig.registry.latency)
    (stops : rig.registry.faults.stop = false) (unloads : rig.registry.faults.unload = false) :
    ∃ after, (release limit record).run rig = (some (.ok record), after) := by
  unfold release
  by_cases hempty : record.toUnload.isEmpty = true
  · rw [if_pos hempty]
    exact ⟨rig, rfl⟩
  · rw [if_neg hempty, run_inform_bind]
    generalize hnoted : rig.note .info _ = noted
    obtain ⟨hregistry, hcontinues⟩ : noted.registry = rig.registry ∧ rig.Continues noted := by
      rw [← hnoted]
      exact ⟨rfl, rig.continues_note _ _⟩
    have hstop := SimRegistry.run_stopControllers noted.clock intime record.toUnload.names
    rw [stops, if_neg Bool.false_ne_true, ← hregistry] at hstop
    let mid := (noted.call (.stopControllers record.toUnload.names) limit).2
    have hmid : rig.Continues mid := hcontinues.trans (noted.continues_call _ _)
    have hintime : ¬ limit < mid.registry.latency := by
      rw [hmid.latency]
      exact intime
    obtain ⟨hunload, -⟩ := SimRegistry.run_unload mid.clock hintime record.toUnload.names
    rw [hmid.faults, unloads, if_neg Bool.false_ne_true] at hunload
    exact ⟨_, run_bind_some.2 ⟨.ok [], mid, run_call noted (hcontinues.armed.trans calm) hstop,
      run_bind_some.2 ⟨(), _, run_inform _ mid,
        run_bind_some.2 ⟨.ok [], _, run_call (mid.note _ _) (hmid.armed.trans calm) hunload,
          rfl⟩⟩⟩⟩

/-! ## All phases -/

/-- What is due is not there after the purge, or without one because it was not there before. -/
theorem not_mem_kept_of_due {loaded : NameSet} {resource : String}
    (h : resource ∈ due active target loaded) : resource ∉ kept active loaded := by
  rw [mem_kept_iff]
  rintro ⟨ha, hstep⟩
  rw [due, if_pos hstep, NameSet.mem_sdiff] at h
  exact h.2 ha

namespace Unhindered

variable {before : Rig}

/-- Calls go on to be answered in time. -/
theorem intime_later (h : Unhindered options active target strictness limit before)
    (continues : before.Continues rig) : ¬ limit < rig.registry.latency := by
  rw [continues.latency]
  exact h.intime

/-- What the target needs is there once everything is loaded that is due. -/
theorem target_loaded
    (new : ∀ resource ∈ due active target before.registry.loaded, resource ∈ rig.registry.loaded)
    (old : ∀ resource ∈ kept active before.registry.loaded, resource ∈ rig.registry.loaded) :
    ∀ resource ∈ Configuration.resourcesOf target, resource ∈ rig.registry.loaded := by
  intro resource hm
  have hboth : resource ∈ kept active before.registry.loaded ∪
      due active target before.registry.loaded := by
    rw [kept_union_due]
    exact NameSet.mem_union.2 (.inr hm)
  exact (NameSet.mem_union.1 hboth).elim (old resource) (new resource)

/-- After loading, where what was due is as good as new and what the target needs is there. -/
theorem run_establish (h : Unhindered options active target strictness limit before)
    (continues : before.Continues rig)
    (fresh : ∀ resource ∈ due active target before.registry.loaded, ∃ t, t ≤ rig.clock ∧
      rig.registry.held.find? resource = some (.fresh t))
    (there : ∀ resource ∈ Configuration.resourcesOf target, resource ∈ rig.registry.loaded) :
    ∃ record after, (establish options target strictness limit
        (prepared active target before.registry.loaded)).run rig =
      (some (.ok record), after) := by
  let plan := prepared active target before.registry.loaded
  have hdue : plan.toLoad = due active target before.registry.loaded := prepared_toLoad _
  obtain ⟨verification, s₁, hverify, hc, hsame⟩ := run_verify plan (continues.armed.trans h.calm)
    (by rw [hdue]; exact fresh) (by rw [hdue, continues.faults]; exact h.sound)
    (by rw [hdue, continues.initDelay]; exact h.short)
  have hc₁ := continues.trans hc
  let verified : TransitionRecord := { plan with verification := verification }
  obtain ⟨skipped, s₂, hstart, hc⟩ := run_startControllers verified (hc₁.armed.trans h.calm)
    (h.intime_later hc₁) (prepared_targetResources _) (by rw [hsame]; exact there)
    (by rw [hc₁.faults]; exact h.starts)
  have hc₂ := hc₁.trans hc
  let started : TransitionRecord := { verified with skippedControllers := skipped }
  obtain ⟨after, hrelease⟩ := run_release started (hc₂.armed.trans h.calm) (h.intime_later hc₂)
    (by rw [hc₂.faults]; exact h.stops) (by rw [hc₂.faults]; exact h.unloads)
  exact ⟨started, after, run_bind_some.2 ⟨.ok verified, s₁, hverify,
    run_bind_some.2 ⟨.ok started, s₂, hstart, hrelease⟩⟩⟩

/-- From loading on, where what was kept is there and nothing else. -/
theorem run_carryOut (h : Unhindered options active target strictness limit before)
    (continues : before.Continues rig)
    (keeps : rig.registry.loaded = kept active before.registry.loaded) :
    ∃ loaded record after, (carryOut options target strictness limit
        (prepared active target before.registry.loaded)).run rig =
      (some (loaded, .ok record), after) := by
  obtain ⟨mid, hload, hc, hnew, hold⟩ := run_loadAll (continues.armed.trans h.calm)
    (h.intime_later continues)
    ((due active target before.registry.loaded).increasing.imp String.ne_of_lt)
    (by rw [continues.faults]; exact h.willing)
    (by rw [keeps]; exact fun resource hm => not_mem_kept_of_due hm)
  have hthere := target_loaded
    (fun resource hm => by
      obtain ⟨t, -, hfind⟩ := hnew resource hm
      rw [SimRegistry.mem_loaded_iff, hfind]
      rfl)
    (fun resource hm => by
      rw [SimRegistry.mem_loaded_iff, hold resource fun hd => not_mem_kept_of_due hd hm,
        ← SimRegistry.mem_loaded_iff, keeps]
      exact hm)
  obtain ⟨record, after, hestablish⟩ := h.run_establish (continues.trans hc) hnew hthere
  rw [← prepared_toLoad] at hload
  exact ⟨_, record, after, run_bind_some.2 ⟨_, mid, hload,
    run_bind_some.2 ⟨.ok record, after, hestablish, rfl⟩⟩⟩

/-- **A transition that nothing is in the way of settles.** -/
theorem advance_settles (h : Unhindered options active target strictness limit rig) :
    ∃ record after, (advance options active target strictness limit).run rig =
      (some (.settled record), after) := by
  have hlist := SimRegistry.run_listLoaded rig.clock h.intime
  rw [h.lists, if_neg Bool.false_ne_true] at hlist
  let s₁ := (rig.call .listLoaded limit).2
  have hc₁ : rig.Continues s₁ := Rig.continues_call _ _ _
  have hsame : s₁.registry.loaded = rig.registry.loaded :=
    SimRegistry.loaded_congr (SimRegistry.run_listLoaded_held _ _ _)
  have hcheck : (checkParameters target).run s₁ = (some (.ok ()), s₁) :=
    run_checkParameters (hc₁.armed.trans h.calm) h.parameters
  obtain ⟨s₂, hsync, hc₂, hkept⟩ := run_synchronize active target (hc₁.armed.trans h.calm)
    (h.intime_later hc₁) (by rw [hc₁.faults]; exact h.unloads)
  rw [hsame] at hsync hkept
  obtain ⟨loaded, record, after, hcarry⟩ := h.run_carryOut (hc₁.trans hc₂) hkept
  refine ⟨record, after, run_bind_some.2 ⟨.ok rig.registry.held.keys, s₁, run_call rig h.calm hlist,
    run_bind_some.2 ⟨.ok (), s₁, hcheck,
      run_bind_some.2 ⟨.ok (prepared active target rig.registry.loaded), s₂, ?_,
        run_bind_some.2 ⟨(loaded, .ok record), after, hcarry, rfl⟩⟩⟩⟩⟩
  -- the plan is made from the names that the call has listed, which are the set of what is loaded
  rw [SimRegistry.ofList_keys]
  exact hsync

theorem succeeds (h : Unhindered options active target strictness limit rig) :
    (run options active target strictness limit).Succeeds rig := by
  obtain ⟨record, after, hadvance⟩ := h.advance_settles
  refine ⟨record, after, ?_⟩
  rw [run_eq]
  exact run_bind_some.2 ⟨.settled record, after, hadvance, rfl⟩

end Unhindered

theorem due_subset {loaded : NameSet} {resource : String}
    (h : resource ∈ due active target loaded) :
    resource ∈ Configuration.resourcesOf active ∪ Configuration.resourcesOf target := by
  rw [← kept_union_due active target loaded]
  exact NameSet.mem_union.2 (.inr h)

/-- **Nothing that earlier transitions have left behind is in the way of the next.** Whatever the
registry holds, and in whatever states, a transition succeeds if the calls it makes are answered in
time and not made to fail, if none of the resources of either configuration refuses to load or
stalls, if these have as long to become ready as they need, if what the target needs has its
parameters, and if no controller that is made to fail has to be started strictly. -/
theorem run_recovers (options : Options) (active target : Option Configuration)
    (strictness : Strictness) (limit : Duration) (rig : Rig) (calm : rig.armed = ∅)
    (lists : rig.registry.faults.list = false) (stops : rig.registry.faults.stop = false)
    (unloads : rig.registry.faults.unload = false) (intime : rig.registry.latency ≤ limit)
    (loads : ∀ resource ∈ Configuration.resourcesOf active ∪ Configuration.resourcesOf target,
      resource ∉ rig.registry.faults.loads ∧ resource ∉ rig.registry.faults.stalls)
    (short : rig.registry.initDelay ≤ options.verification.timeout)
    (parameters : ∀ requirement ∈ requirementsOf target,
      rig.params.hasEntry requirement.key = true)
    (starts : strictness = .bestEffort ∨ ∀ resource ∈ Configuration.resourcesOf target,
      ∀ id ∈ Configuration.declaredBy target resource,
        SimRegistry.controllerName resource id ∉ rig.registry.faults.controllers) :
    (run options active target strictness limit).Succeeds rig :=
  Unhindered.succeeds {
    calm, lists, stops, unloads, parameters, starts
    intime := Nat.not_lt.2 intime
    willing := fun resource hm => (loads resource (due_subset hm)).1
    sound := fun resource hm => (loads resource (due_subset hm)).2
    short := fun _ => short }

/-- Handling was left with the arm lost, the belt broken and something on the rig that nobody has
asked for; the gripper and the torch do not start. Welding is started all the same. -/
theorem run_recovers_welding :
    let rig : Rig := { whileHandling with
      registry := { ((SimRegistry.whileHandling.forget "arm").forceState "belt" .error).insertLoaded
        .start "crate" with initDelay := .ofMillis 50, latency := .ofMillis 10 } }
    (run Settings.standard.transitionOptions (some .handling) (some .welding) .bestEffort
      (.ofMillis 10)).Succeeds rig := by
  intro rig
  exact run_recovers Settings.standard.transitionOptions (some .handling) (some .welding)
    .bestEffort (.ofMillis 10) rig (by decide +kernel) (by decide +kernel) (by decide +kernel)
    (by decide +kernel) (by decide +kernel) (by decide +kernel) (by decide +kernel)
    (by decide +kernel) (.inl rfl)

end Transition

end ControlRig
