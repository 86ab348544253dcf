import ControlRig.Proofs.Registry.Controllers
import ControlRig.Proofs.Rig.History
import ControlRig.Proofs.Transition.Course

/-!
# What a course does to a registry

One lemma for each piece that courses are made of: the opening, the loads, the reports, the start
and the release. Each says what a registry holds after it has gone through the piece, in terms of
what it held before. What is to be known of a whole transition is then a walk along its course, with
one of these lemmas at each turn.

That the first call was answered shows that calls are in time on this registry. The later lemmas ask
for that fact (`intime`), because a call that runs out of time changes nothing and gives no reason
to believe anything.
-/

namespace ControlRig

namespace Transition

open Observation

variable {active target : Option Configuration} {strictness : Strictness} {limit : Duration}
variable {seen : List Observation} {r after : SimRegistry}

/-- What was reported is what the registry said. -/
theorem replays_reported {resource : String} {state : ResourceState}
    (reports : ∀ o ∈ seen, o.IsReport) (h : r.Replays seen after)
    (reported : .reported resource state ∈ seen) : ∃ now, r.stateAt now resource = state := by
  induction seen with
  | nil => cases reported
  | cons o rest ih =>
    have hrest : ∀ o ∈ rest, o.IsReport := fun o ho => reports o (List.mem_cons_of_mem _ ho)
    cases o with
    | reported other state' =>
      rcases List.mem_cons.1 reported with heq | hmem
      · cases heq
        exact h.1
      · exact ih hrest h.2 hmem
    | called operation limit answer => exact absurd (reports _ List.mem_cons_self) id
    | lookedUp key found => exact absurd (reports _ List.mem_cons_self) id

/-! ## The opening -/

theorem replays_found {requirements : List Requirement}
    (h : r.Replays (found requirements) after) : after = r := by
  refine h.eq_of_no_calls fun o ho => ?_
  obtain ⟨q, -, rfl⟩ := List.mem_map.1 ho
  rfl

theorem replays_reports (reports : ∀ o ∈ seen, o.IsReport) (h : r.Replays seen after) :
    after = r :=
  h.eq_of_no_calls fun o ho => (reports o ho).call?

theorem replays_listing {listed : List String}
    (h : r.Replays [.called .listLoaded limit (.ok listed)] after) :
    listed = r.held.keys ∧ ¬ limit < r.latency ∧ after.held = r.held := by
  obtain ⟨now, hanswer, hafter⟩ := h
  obtain ⟨hlisted, intime⟩ := SimRegistry.run_listLoaded_ok hanswer
  rw [SimRegistry.replays_nil] at hafter
  rw [hafter]
  exact ⟨hlisted, intime, SimRegistry.run_listLoaded_held r now limit⟩

/-- After a purge that was due, nothing is left. -/
theorem replays_purging (intime : ¬ limit < r.latency) {loaded : NameSet}
    (h : r.Replays (purging active limit loaded) after) :
    after.held = if Configuration.resourcesOf active = loaded then r.held else ∅ := by
  by_cases hstep : Configuration.resourcesOf active = loaded
  · rw [purging, if_pos hstep, SimRegistry.replays_nil] at h
    rw [if_pos hstep, h]
  · rw [purging, if_neg hstep] at h
    obtain ⟨now, hanswer, hafter⟩ := h
    obtain ⟨hpurge, hheld⟩ := SimRegistry.run_purge now intime
    rw [SimRegistry.replays_nil] at hafter
    rw [if_neg hstep, hafter, hheld]
    cases hf : r.faults.unload with
    | false => exact if_neg Bool.false_ne_true
    | true =>
      rw [hpurge, hf, if_pos rfl] at hanswer
      cases hanswer

/-- A transition that gets as far as loading has found what it was told, on a registry that answers
in time, and has purged it if that was out of step. -/
theorem replays_opening {listed : List String}
    (h : r.Replays (opening active target limit listed) after) :
    listed = r.held.keys ∧ ¬ limit < r.latency ∧
      after.held = if Configuration.resourcesOf active = r.loaded then r.held else ∅ := by
  have hsplit : opening active target limit listed =
      [.called .listLoaded limit (.ok listed)] ++
        (found (requirementsOf target) ++ purging active limit (.ofList listed)) := rfl
  rw [hsplit] at h
  obtain ⟨first, hlist, hrest⟩ := SimRegistry.replays_append.1 h
  obtain ⟨second, hfound, hpurge⟩ := SimRegistry.replays_append.1 hrest
  obtain ⟨rfl, intime, hheld⟩ := replays_listing hlist
  cases replays_found hfound
  have hlatency : ¬ limit < first.latency := by
    rw [hlist.latency]
    exact intime
  refine ⟨rfl, intime, ?_⟩
  rw [replays_purging hlatency hpurge, SimRegistry.ofList_keys, hheld]

/-! ## The loads -/

/-- What is loaded was not there before, and is as good as new; all else is as it was. -/
theorem replays_loading {names : List String} (h : r.Replays (loading limit names) after) :
    ∀ key, (key ∈ names → key ∉ r.loaded ∧ ∃ t, after.held.find? key = some (.fresh t)) ∧
      (key ∉ names → after.held.find? key = r.held.find? key) := by
  induction names generalizing r with
  | nil =>
    rw [loading, List.map_nil, SimRegistry.replays_nil] at h
    rw [h]
    exact fun key => ⟨fun hm => absurd hm List.not_mem_nil, fun _ => rfl⟩
  | cons n rest ih =>
    obtain ⟨now, hanswer, hrest⟩ := h
    obtain ⟨hnew, t, hheld⟩ := SimRegistry.run_load_ok hanswer
    intro key
    obtain ⟨hin, hout⟩ := ih hrest key
    by_cases hkey : n = key
    · subst hkey
      refine ⟨fun _ => ⟨SimRegistry.not_mem_loaded_iff.2 hnew, ?_⟩, fun hm => ?_⟩
      · by_cases hm : n ∈ rest
        · exact (hin hm).2
        · refine ⟨t, ?_⟩
          rw [hout hm, hheld, SortedMap.find?_insert_self]
      · exact absurd List.mem_cons_self hm
    · have hsame : (r.run now limit (.load n)).registry.held.find? key = r.held.find? key := by
        rw [hheld, SortedMap.find?_insert_of_ne _ hkey]
      constructor
      · intro hm
        rcases List.mem_cons.1 hm with heq | hm
        · exact absurd heq.symm hkey
        · obtain ⟨hfresh, hfind⟩ := hin hm
          rw [SimRegistry.not_mem_loaded_iff, hsame, ← SimRegistry.not_mem_loaded_iff] at hfresh
          exact ⟨hfresh, hfind⟩
      · intro hm
        rw [hout fun hrest => hm (List.mem_cons_of_mem _ hrest), hsame]

/-- What is loaded does not refuse to be. -/
theorem replays_loading_willing {names : List String} (h : r.Replays (loading limit names) after) :
    ∀ key ∈ names, key ∉ r.faults.loads := by
  induction names generalizing r with
  | nil => nofun
  | cons n rest ih =>
    obtain ⟨now, hanswer, hrest⟩ := h
    intro key hm
    rcases List.mem_cons.1 hm with rfl | hm
    · exact SimRegistry.willing_of_run_load hanswer
    · rw [← r.run_faults now limit (.load n)]
      exact ih hrest key hm

/-- The loads add what they are for. -/
theorem replays_loading_loaded {names : List String} (h : r.Replays (loading limit names) after) :
    after.loaded = r.loaded ∪ .ofList names := by
  apply NameSet.ext_mem
  intro key
  obtain ⟨hin, hout⟩ := replays_loading h key
  rw [NameSet.mem_union, NameSet.mem_ofList, SimRegistry.mem_loaded_iff, SimRegistry.mem_loaded_iff]
  by_cases hm : key ∈ names
  · obtain ⟨-, t, hfind⟩ := hin hm
    rw [hfind]
    exact ⟨fun _ => .inr hm, fun _ => rfl⟩
  · rw [hout hm]
    exact ⟨.inl, fun hor => hor.elim id fun hn => absurd hn hm⟩

/-! ## What is there before controllers are started -/

/-- What a transition keeps of the resources it finds: all of them, or none if it has to purge. -/
def kept (active : Option Configuration) (loaded : NameSet) : NameSet :=
  if Configuration.resourcesOf active = loaded then loaded else ∅

theorem mem_kept_iff {loaded : NameSet} {resource : String} :
    resource ∈ kept active loaded ↔
      resource ∈ Configuration.resourcesOf active ∧ Configuration.resourcesOf active = loaded := by
  unfold kept
  by_cases hstep : Configuration.resourcesOf active = loaded
  · rw [if_pos hstep, hstep]
    exact ⟨fun hm => ⟨hm, rfl⟩, And.left⟩
  · rw [if_neg hstep]
    exact ⟨fun hm => absurd hm (NameSet.not_mem_empty resource), fun h => absurd h.2 hstep⟩

/-- What was kept and what is due are together what both configurations need. -/
theorem kept_union_due (active target : Option Configuration) (loaded : NameSet) :
    kept active loaded ∪ due active target loaded =
      Configuration.resourcesOf active ∪ Configuration.resourcesOf target := by
  apply NameSet.ext_mem
  intro key
  unfold kept due
  by_cases hstep : Configuration.resourcesOf active = loaded
  · -- in step: the new on top of the active
    rw [if_pos hstep, if_pos hstep, ← hstep]
    simp only [NameSet.mem_union, NameSet.mem_sdiff]
    by_cases ha : key ∈ Configuration.resourcesOf active <;> simp [ha]
  · -- out of step: both, on top of nothing
    rw [if_neg hstep, if_neg hstep]
    simp only [NameSet.mem_union, NameSet.mem_sdiff, NameSet.not_mem_empty]
    by_cases ha : key ∈ Configuration.resourcesOf active <;> simp [ha]

/-- With the opening and some loads behind it, a registry holds what was kept, as it was, and what
was loaded, as good as new. -/
theorem replays_loaded {names : List String}
    (h : r.Replays (opening active target limit r.held.keys ++ loading limit names) after) :
    ¬ limit < after.latency ∧ (∀ key ∈ names, key ∉ kept active r.loaded) ∧
      after.loaded = kept active r.loaded ∪ .ofList names ∧
      ∀ key, SimRegistry.runningIn after.held key =
        if key ∈ kept active r.loaded then SimRegistry.runningIn r.held key else [] := by
  obtain ⟨mid, hopening, hloading⟩ := SimRegistry.replays_append.1 h
  obtain ⟨-, intime, hheld⟩ := replays_opening hopening
  have hmid : mid.loaded = kept active r.loaded := by
    unfold kept
    by_cases hstep : Configuration.resourcesOf active = r.loaded
    · rw [if_pos hstep] at hheld ⊢
      exact SimRegistry.loaded_congr hheld
    · rw [if_neg hstep] at hheld ⊢
      rw [SimRegistry.loaded, hheld]
      rfl
  refine ⟨?_, ?_, ?_, ?_⟩
  · rw [h.latency]
    exact intime
  · intro key hm
    rw [← hmid]
    exact ((replays_loading hloading key).1 hm).1
  · rw [replays_loading_loaded hloading, hmid]
  · intro key
    obtain ⟨hin, hout⟩ := replays_loading hloading key
    by_cases hm : key ∈ names
    · obtain ⟨hnew, t, hfind⟩ := hin hm
      rw [hmid] at hnew
      rw [if_neg hnew, SimRegistry.runningIn, hfind]
      rfl
    · rw [SimRegistry.runningIn, hout hm]
      by_cases hkept : key ∈ kept active r.loaded
      · rw [if_pos hkept]
        unfold kept at hkept
        by_cases hstep : Configuration.resourcesOf active = r.loaded
        · rw [if_pos hstep] at hheld
          rw [hheld]
          rfl
        · rw [if_neg hstep] at hkept
          exact absurd hkept (NameSet.not_mem_empty key)
      · rw [if_neg hkept]
        rw [← hmid, SimRegistry.not_mem_loaded_iff] at hkept
        rw [hkept]
        rfl

/-! ## The start -/

/-- A start loads and unloads nothing. -/
theorem Started.loaded {skipped : List String} (h : Started target strictness limit skipped seen)
    (replays : r.Replays seen after) : after.loaded = r.loaded := by
  cases h with
  | nobody hnone =>
    rw [SimRegistry.replays_nil] at replays
    rw [replays]
  | started skipped htarget hsome =>
    obtain ⟨now, -, hafter⟩ := replays
    rw [SimRegistry.replays_nil] at hafter
    rw [hafter, SimRegistry.run_startControllers_loaded]

/-- **What runs on the resources of the target after a start, and what was skipped.** -/
theorem Started.running {skipped : List String} (h : Started target strictness limit skipped seen)
    (replays : r.Replays seen after) :
    (∀ resource ∈ Configuration.resourcesOf target,
      ((SimRegistry.runningIn r.held resource).Nodup →
        (SimRegistry.runningIn after.held resource).Nodup) ∧
      ∀ id, id ∈ SimRegistry.runningIn after.held resource ↔
        id ∈ Configuration.declaredBy target resource ∧
          (id ∈ SimRegistry.runningIn r.held resource ∨
            SimRegistry.controllerName resource id ∉ r.faults.controllers)) ∧
    skipped = (Configuration.resourcesOf target).names.flatMap (fun resource =>
      ((Configuration.declaredBy target resource).filter fun id =>
        id ∉ SimRegistry.runningIn after.held resource).map (SimRegistry.controllerName resource)) ∧
    (strictness = .strict → skipped = []) := by
  cases h with
  | nobody hnone =>
    rw [hnone]
    exact ⟨fun resource hm => absurd hm (NameSet.not_mem_empty resource), rfl, fun _ => rfl⟩
  | started skipped htarget hsome =>
    subst htarget
    rename_i t
    obtain ⟨now, hanswer, hafter⟩ := replays
    rw [SimRegistry.replays_nil] at hafter
    obtain ⟨herror, hheld, rfl⟩ := SimRegistry.run_startControllers_ok hanswer
    rw [hafter, hheld]
    have hnodup : (Configuration.resourcesOf (some t)).names.Nodup :=
      (Configuration.resourcesOf (some t)).increasing.imp String.ne_of_lt
    refine ⟨fun resource hm => ?_, ?_, ?_⟩
    · obtain ⟨x, hx, hfail, hfind⟩ := SimRegistry.startAll_find? hnodup herror hm
      have hbefore : SimRegistry.runningIn r.held resource = x.controllers := by
        rw [SimRegistry.runningIn, hx]
        rfl
      rw [hbefore, SimRegistry.runningIn, hfind]
      exact ⟨SimRegistry.startOn_nodup resource, fun id => SimRegistry.mem_startOn_running hfail⟩
    · rw [SimRegistry.startAll_skipped hnodup herror, List.map_flatMap]
      congr 1
      funext resource
      rw [List.map_map]
      rfl
    · rintro rfl
      rw [SimRegistry.startAll_strict herror]
      rfl

/-! ## The release -/

/-- What is released is gone; all else is as it was. -/
theorem replays_releasing (intime : ¬ limit < r.latency) {names : NameSet}
    (h : r.Replays (releasing limit names) after) :
    ∀ key, (key ∈ names → after.held.find? key = none) ∧
      (key ∉ names → after.held.find? key = r.held.find? key) := by
  intro key
  by_cases hempty : names = ∅
  · rw [releasing, if_pos hempty, SimRegistry.replays_nil] at h
    rw [h, hempty]
    exact ⟨fun hm => absurd hm (NameSet.not_mem_empty key), fun _ => rfl⟩
  · rw [releasing, if_neg hempty] at h
    obtain ⟨now, -, now', hanswer, hafter⟩ := h
    rw [SimRegistry.replays_nil] at hafter
    have hlater : ¬ limit < (r.run now limit (.stopControllers names.names)).registry.latency := by
      rw [SimRegistry.run_latency]
      exact intime
    obtain ⟨hunload, hheld⟩ := SimRegistry.run_unload now' hlater names.names
    rw [SimRegistry.run_faults] at hunload hheld
    -- that the unloading was answered shows that it is not made to fail
    have hworks : ¬ r.faults.unload = true := by
      intro hf
      rw [hunload, if_pos hf] at hanswer
      cases hanswer
    rw [hafter, hheld, if_neg hworks, SortedMap.find?_foldl_erase]
    constructor
    · intro hm
      exact if_pos hm
    · intro hm
      have hstopped := r.run_stopControllers_find? now limit names.names hm
      exact (if_neg hm).trans hstopped

end Transition

end ControlRig
