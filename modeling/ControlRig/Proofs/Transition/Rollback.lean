import ControlRig.Proofs.Transition.CallOrder
import ControlRig.Proofs.Transition.Replay

/-!
# What a failed transition leaves behind

The two rollback policies are compared on one rig. Up to the first failure they are one procedure,
so they tell the caller the same and have loaded the same. After a failure the one leaves what was
kept and what was loaded; the other unloads what was loaded, **and hits nothing that was kept,
because nothing is loaded that was kept** (`failed_loaded`).

Errors fall into two classes by the phase they come from. The preliminary ones are those after which
there is nothing to undo.
-/

namespace ControlRig

/-- An error from before the first load. -/
def ManagerError.Preliminary : ManagerError → Prop
  | .registryQuery _ => True
  | .missingParameter .. => True
  | .purge _ => True
  | _ => False

/-- The resources that a procedure loads successfully on a rig. -/
def Procedure.loadedBy {α : Type} (p : Procedure α) (rig : Rig) : NameSet :=
  .ofList (Observation.loaded (p.history rig))

namespace Transition

open Observation Procedure

variable {active target : Option Configuration} {strictness : Strictness}
variable {limit timeout : Duration} {steps : List Observation}
variable {loaded : List String} {e : ManagerError} {r after : SimRegistry}

/-! ## Which resources were loaded -/

theorem loaded_eq_nil {seen : List Observation} (h : ∀ o ∈ seen, o.loaded? = none) :
    Observation.loaded seen = [] :=
  List.filterMap_eq_nil_iff.2 h

theorem loaded_loading (names : List String) :
    Observation.loaded (loading limit names) = names := by
  induction names with
  | nil => rfl
  | cons n rest ih => exact congrArg (n :: ·) ih

theorem loaded_opening (listed : List String) :
    Observation.loaded (opening active target limit listed) = [] := by
  refine loaded_eq_nil fun o ho => ?_
  rcases List.mem_cons.1 ho with rfl | ho
  · rfl
  · rcases List.mem_append.1 ho with ho | ho
    · obtain ⟨q, -, rfl⟩ := List.mem_map.1 ho
      rfl
    · unfold purging at ho
      split at ho
      · exact absurd ho List.not_mem_nil
      · cases List.mem_singleton.1 ho
        rfl

theorem loaded_reports {seen : List Observation} (reports : ∀ o ∈ seen, o.IsReport) :
    Observation.loaded seen = [] :=
  loaded_eq_nil fun o ho => (reports o ho).loaded?

theorem Started.loaded_nil {skipped : List String} {seen : List Observation}
    (h : Started target strictness limit skipped seen) : Observation.loaded seen = [] := by
  cases h <;> rfl

/-- With the opening and some loads behind it, a transition has loaded these. -/
theorem loaded_opened (listed names : List String) :
    Observation.loaded (opening active target limit listed ++ loading limit names) = names := by
  rw [loaded_append, loaded_opening, loaded_loading, List.nil_append]

theorem loaded_append_of_nil {xs ys : List Observation} (h : Observation.loaded ys = []) :
    Observation.loaded (xs ++ ys) = Observation.loaded xs := by
  rw [loaded_append, h, List.append_nil]

theorem loaded_waited {reports : List Observation} (h : ∀ o ∈ reports, o.IsReport)
    (listed names : List String) :
    Observation.loaded
      (opening active target limit listed ++ loading limit names ++ reports) = names := by
  rw [loaded_append_of_nil (loaded_reports h), loaded_opened]

/-- The resources that a failed course is said to have loaded are those it has loaded. -/
theorem Course.loaded_steps {listed : List String}
    (h : Course active target strictness limit timeout listed steps (.failed loaded e)) :
    Observation.loaded steps = loaded := by
  cases h with
  | unloaded e hsplit => exact (loaded_append_of_nil rfl).trans (loaded_opened _ _)
  | unready hreports hfailed => exact loaded_waited hreports _ _
  | unstarted e hready htarget hsome =>
    exact (loaded_append_of_nil rfl).trans (loaded_waited hready.reports _ _)
  | unstopped e hready hstarted hdropped =>
    refine (loaded_append_of_nil rfl).trans ?_
    exact (loaded_append_of_nil hstarted.loaded_nil).trans (loaded_waited hready.reports _ _)
  | unreleased e hready hstarted hdropped =>
    refine (loaded_append_of_nil rfl).trans ?_
    exact (loaded_append_of_nil hstarted.loaded_nil).trans (loaded_waited hready.reports _ _)

theorem Undone.loaded_nil {policy : RollbackPolicy} {attempt : Attempt}
    {undone : List Observation} (h : Undone limit policy attempt undone) :
    Observation.loaded undone = [] := by
  cases h <;> rfl

/-! ## What there is after a failure -/

/-- A failure in the phases before the first load changes nothing. -/
theorem refused_held
    (course : Course active target strictness limit timeout r.held.keys steps (.refused e))
    (replays : r.Replays steps after) : after.held = r.held := by
  cases course with
  | unlisted e =>
    obtain ⟨now, -, hafter⟩ := replays
    rw [SimRegistry.replays_nil] at hafter
    rw [hafter, SimRegistry.run_listLoaded_held]
  | unmet hsplit =>
    obtain ⟨mid, hlist, hrest⟩ := SimRegistry.replays_append.1
      (show r.Replays ([_] ++ _) after from replays)
    obtain ⟨-, -, hheld⟩ := replays_listing hlist
    obtain ⟨mid', hfound, hlook⟩ := SimRegistry.replays_append.1 hrest
    cases replays_found hfound
    rw [← hheld]
    exact congrArg SimRegistry.held hlook
  | unpurged e hstep =>
    obtain ⟨mid, hlist, hrest⟩ := SimRegistry.replays_append.1
      (show r.Replays ([_] ++ _) after from replays)
    obtain ⟨-, intime, hheld⟩ := replays_listing hlist
    obtain ⟨mid', hfound, now, hanswer, hafter⟩ := SimRegistry.replays_append.1 hrest
    cases replays_found hfound
    have hlatency : ¬ limit < mid.latency := by
      rw [hlist.latency]
      exact intime
    obtain ⟨hpurge, hpurged⟩ := SimRegistry.run_purge now hlatency
    rw [SimRegistry.replays_nil] at hafter
    rw [hafter, hpurged, hheld]
    cases hf : mid.faults.unload with
    | true => exact if_pos rfl
    | false =>
      rw [hpurge, hf, if_neg Bool.false_ne_true] at hanswer
      cases hanswer

/-- What is there after some loads is there as long as nothing is unloaded. -/
theorem replays_loaded_kept {names : List String} {rest : List Observation} {mid : SimRegistry}
    (hfirst : r.Replays (opening active target limit r.held.keys ++ loading limit names) mid)
    (hrest : mid.Replays rest after) (hsame : after.loaded = mid.loaded) :
    ¬ limit < after.latency ∧ (∀ key ∈ names, key ∉ kept active r.loaded) ∧
      after.loaded = kept active r.loaded ∪ .ofList names := by
  obtain ⟨intime, hnew, hloaded, -⟩ := replays_loaded hfirst
  rw [hrest.latency, hsame]
  exact ⟨intime, hnew, hloaded⟩

/-- Stopping controllers unloads nothing, whatever the answer. -/
theorem replays_stopped_loaded {resources : List String} {answer : Operation.Answer}
    (h : r.Replays [.called (.stopControllers resources) limit answer] after) :
    after.loaded = r.loaded := by
  obtain ⟨now, -, hafter⟩ := h
  rw [SimRegistry.replays_nil] at hafter
  rw [hafter, SimRegistry.run_stopControllers_loaded]

/-- **A transition that has failed after the first load has left everything that was kept and
everything it has loaded, and these are different resources.** -/
theorem failed_loaded
    (course : Course active target strictness limit timeout r.held.keys steps (.failed loaded e))
    (replays : r.Replays steps after) :
    ¬ limit < after.latency ∧ (∀ key ∈ loaded, key ∉ kept active r.loaded) ∧
      after.loaded = kept active r.loaded ∪ .ofList loaded := by
  cases course with
  | unloaded e hsplit =>
    obtain ⟨mid, hfirst, hload⟩ := SimRegistry.replays_append.1 replays
    refine replays_loaded_kept hfirst hload ?_
    obtain ⟨now, hanswer, hafter⟩ := hload
    rw [SimRegistry.replays_nil] at hafter
    rw [hafter]
    exact SimRegistry.loaded_congr (SimRegistry.run_load_error hanswer)
  | unready hreports hfailed =>
    obtain ⟨mid, hfirst, hwait⟩ := SimRegistry.replays_append.1 replays
    refine replays_loaded_kept hfirst hwait ?_
    rw [replays_reports hreports hwait]
  | unstarted e hready htarget hsome =>
    rw [List.append_assoc] at replays
    obtain ⟨mid, hfirst, hrest⟩ := SimRegistry.replays_append.1 replays
    refine replays_loaded_kept hfirst hrest ?_
    obtain ⟨mid', hwait, now, -, hafter⟩ := SimRegistry.replays_append.1 hrest
    cases replays_reports hready.reports hwait
    rw [SimRegistry.replays_nil] at hafter
    rw [hafter, SimRegistry.run_startControllers_loaded]
  | unstopped e hready hstarted hdropped =>
    rw [List.append_assoc, List.append_assoc] at replays
    obtain ⟨mid, hfirst, hrest⟩ := SimRegistry.replays_append.1 replays
    refine replays_loaded_kept hfirst hrest ?_
    obtain ⟨mid', hwait, hlast⟩ := SimRegistry.replays_append.1 hrest
    cases replays_reports hready.reports hwait
    obtain ⟨begun, hstart, hstop⟩ := SimRegistry.replays_append.1 hlast
    rw [replays_stopped_loaded hstop, hstarted.loaded hstart]
  | unreleased e hready hstarted hdropped =>
    rw [List.append_assoc, List.append_assoc] at replays
    obtain ⟨mid, hfirst, hrest⟩ := SimRegistry.replays_append.1 replays
    refine replays_loaded_kept hfirst hrest ?_
    obtain ⟨mid', hwait, hlast⟩ := SimRegistry.replays_append.1 hrest
    cases replays_reports hready.reports hwait
    obtain ⟨begun, hstart, hrelease⟩ := SimRegistry.replays_append.1 hlast
    obtain ⟨stopped, hstop, now, hanswer, hafter⟩ := SimRegistry.replays_append.1
      (show begun.Replays ([_] ++ [_]) after from hrelease)
    rw [SimRegistry.replays_nil] at hafter
    rw [← hstarted.loaded hstart, ← replays_stopped_loaded hstop, hafter]
    exact SimRegistry.loaded_congr (SimRegistry.run_unload_error hanswer)

/-! ## What a policy makes of it -/

/-- A rollback unloads what it is for, if unloading works. -/
theorem replays_rolledBack {stopped unloaded : Operation.Answer} (intime : ¬ limit < r.latency)
    (h : r.Replays [.called (.stopControllers loaded) limit stopped,
      .called (.unload loaded) limit unloaded] after) :
    after.loaded = if r.faults.unload then r.loaded else r.loaded \ .ofList loaded := by
  obtain ⟨mid, hstop, now, -, hafter⟩ := SimRegistry.replays_append.1
    (show r.Replays ([_] ++ [_]) after from h)
  have hlatency : ¬ limit < mid.latency := by
    rw [hstop.latency]
    exact intime
  obtain ⟨-, hheld⟩ := SimRegistry.run_unload now hlatency loaded
  rw [SimRegistry.replays_nil] at hafter
  rw [← replays_stopped_loaded hstop, ← hstop.faults]
  by_cases hf : mid.faults.unload = true
  · rw [if_pos hf] at hheld ⊢
    rw [hafter]
    exact SimRegistry.loaded_congr hheld
  · rw [if_neg hf] at hheld ⊢
    apply NameSet.ext_mem
    intro key
    rw [NameSet.mem_sdiff, NameSet.mem_ofList, SimRegistry.mem_loaded_iff,
      SimRegistry.mem_loaded_iff, hafter, hheld, SortedMap.find?_foldl_erase]
    by_cases hm : key ∈ loaded
    · rw [if_pos hm]
      exact ⟨nofun, fun h => absurd hm h.2⟩
    · rw [if_neg hm]
      exact ⟨fun h => ⟨h, hm⟩, And.left⟩

/-- What is loaded when a failed transition has concluded. -/
theorem undone_loaded {policy : RollbackPolicy} {undone : List Observation}
    (h : Undone limit policy (.failed loaded e) undone) (replays : r.Replays undone after)
    (intime : ¬ limit < r.latency) :
    after.loaded =
      if policy = .unloadLoaded ∧ r.faults.unload = false then r.loaded \ .ofList loaded
      else r.loaded := by
  cases h with
  | rolledBack stopped unloaded hpolicy hloaded =>
    rw [replays_rolledBack intime replays]
    cases hf : r.faults.unload with
    | true => simp only [if_true, Bool.true_eq_false, and_false, if_false]
    | false => simp only [Bool.false_eq_true, if_false, hpolicy, and_self, if_true]
  | kept hkeep =>
    rw [SimRegistry.replays_nil] at replays
    rw [replays]
    split
    · rename_i hundo
      rcases hkeep with hleave | rfl
      · rw [hleave] at hundo
        cases hundo.1
      · -- nothing was loaded, so nothing is taken away
        apply NameSet.ext_mem
        intro key
        rw [NameSet.mem_sdiff, NameSet.mem_ofList]
        exact ⟨fun hm => ⟨hm, List.not_mem_nil⟩, And.left⟩
    · rfl

theorem union_sdiff_cancel {kept added : NameSet} (h : ∀ key ∈ added, key ∉ kept) :
    (kept ∪ added) \ added = kept := by
  apply NameSet.ext_mem
  intro key
  rw [NameSet.mem_sdiff, NameSet.mem_union]
  constructor
  · rintro ⟨hk | ha, hn⟩
    · exact hk
    · exact absurd ha hn
  · exact fun hk => ⟨.inl hk, fun ha => h key ha hk⟩

theorem Course.preliminary {listed : List String}
    (h : Course active target strictness limit timeout listed steps (.refused e)) :
    e.Preliminary := by
  cases h <;> trivial

theorem Course.not_preliminary {listed : List String}
    (h : Course active target strictness limit timeout listed steps (.failed loaded e)) :
    ¬ e.Preliminary := by
  cases h <;> exact id

/-- A transition under a given rollback policy. -/
def runUnder (policy : RollbackPolicy) (options : Options) (active target : Option Configuration)
    (strictness : Strictness) (limit : Duration) :
    Procedure (Except ManagerError TransitionRecord) :=
  run { options with rollback := policy } active target strictness limit

/-- What a run under a policy comes to, by where its first half has stopped. -/
theorem runUnder_cases {policy : RollbackPolicy} {options : Options} {rig final : Rig}
    {outcome : Except ManagerError TransitionRecord}
    (h : (runUnder policy options active target strictness limit).run rig =
      (some outcome, final)) :
    ∃ attempt mid,
      (advance options active target strictness limit).run rig = (some attempt, mid) ∧
      outcome = attempt.outcome ∧
      match attempt with
      | .settled _ => final = mid
      | .refused e => e.Preliminary ∧ final.registry.held = rig.registry.held
      | .failed loaded e =>
        ¬ e.Preliminary ∧
        (runUnder policy options active target strictness limit).loadedBy rig = .ofList loaded ∧
        (∀ resource ∈ loaded, resource ∉ kept active rig.registry.loaded) ∧
        final.registry.loaded =
          if policy = .unloadLoaded ∧ rig.registry.faults.unload = false then
            kept active rig.registry.loaded
          else kept active rig.registry.loaded ∪ .ofList loaded := by
  obtain ⟨attempt, mid, hadvance, hconclude, steps, undone, hseen, hsteps, hundo, hcourse, hundone,
    houtcome⟩ := course_of_run h
  refine ⟨attempt, mid, ?_, houtcome, ?_⟩
  · rw [← hadvance]
    exact congrArg (·.run rig) (advance_congr rfl active target strictness limit)
  cases attempt with
  | settled record =>
    cases hconclude
    rfl
  | refused e =>
    cases hconclude
    exact ⟨hcourse.preliminary, refused_held hcourse hsteps⟩
  | failed loaded e =>
    obtain ⟨intime, hnew, hloaded⟩ := failed_loaded hcourse hsteps
    refine ⟨hcourse.not_preliminary, ?_, hnew, ?_⟩
    · show NameSet.ofList (Observation.loaded ((run _ _ _ _ _).history rig)) = _
      rw [hseen, loaded_append_of_nil hundone.loaded_nil, hcourse.loaded_steps]
    · have hadded : ∀ key ∈ NameSet.ofList loaded, key ∉ kept active rig.registry.loaded :=
        fun key hm => hnew key (NameSet.mem_ofList.1 hm)
      rw [undone_loaded hundone hundo intime, hloaded, union_sdiff_cancel hadded, hsteps.faults]

/-- **The same transition under the two policies.** The caller is told the same, and after a success
everything is the same. After a preliminary error the registry holds what it held. After any other,
what was loaded is still there under the one policy, next to what was kept; under the other it is
gone, unless unloading is made to fail. In particular a transition that found the registry in step
and failed leaves it, if it unloads, with what was loaded before. -/
theorem run_under_policies (options : Options) (active target : Option Configuration)
    (strictness : Strictness) (limit : Duration) (rig : Rig) :
    (rig.armed = ∅ → ∀ policy, ∃ outcome final,
      (runUnder policy options active target strictness limit).run rig = (some outcome, final)) ∧
    ∀ outcome outcome' left undone,
      (runUnder .leave options active target strictness limit).run rig = (some outcome, left) →
      (runUnder .unloadLoaded options active target strictness limit).run rig =
        (some outcome', undone) →
      outcome' = outcome ∧
      (∀ record, outcome = .ok record → undone = left) ∧
      ∀ e, outcome = .error e →
        (e.Preliminary → left.registry.held = rig.registry.held ∧
          undone.registry.held = rig.registry.held) ∧
        (¬ e.Preliminary → ∃ loaded,
          (∀ policy,
            (runUnder policy options active target strictness limit).loadedBy rig = loaded) ∧
          (∀ resource ∈ loaded, resource ∉ kept active rig.registry.loaded) ∧
          left.registry.loaded = kept active rig.registry.loaded ∪ loaded ∧
          undone.registry.loaded =
            if rig.registry.faults.unload then kept active rig.registry.loaded ∪ loaded
            else kept active rig.registry.loaded) ∧
        (Configuration.resourcesOf active = rig.registry.loaded →
          rig.registry.faults.unload = false →
          undone.registry.loaded = rig.registry.loaded) := by
  constructor
  · intro calm policy
    exact run_returns _ active target strictness limit calm
  · intro outcome outcome' left undone hleft hundone
    obtain ⟨attempt, mid, hadvance, rfl, hleave⟩ := runUnder_cases hleft
    obtain ⟨attempt', mid', hadvance', rfl, hundo⟩ := runUnder_cases hundone
    -- both have the same first half
    rw [hadvance] at hadvance'
    cases hadvance'
    cases attempt with
    | settled record =>
      refine ⟨rfl, fun _ _ => ?_, nofun⟩
      rw [hundo, hleave]
    | refused e =>
      obtain ⟨hearly, hheld⟩ := hleave
      obtain ⟨-, hheld'⟩ := hundo
      refine ⟨rfl, nofun, fun e' he => ?_⟩
      cases he
      exact ⟨fun _ => ⟨hheld, hheld'⟩, fun hlate => absurd hearly hlate,
        fun _ _ => SimRegistry.loaded_congr hheld'⟩
    | failed loaded e =>
      -- the one run leaves what the other unloads
      obtain ⟨hlate, hby, hnew, hloaded⟩ := hleave
      obtain ⟨-, hby', -, hloaded'⟩ := hundo
      refine ⟨rfl, nofun, fun e' he => ?_⟩
      cases he
      rw [if_neg fun h => RollbackPolicy.noConfusion h.1] at hloaded
      refine ⟨fun hearly => absurd hearly hlate, fun _ => ?_, fun hstep hworks => ?_⟩
      · refine ⟨.ofList loaded, fun policy => ?_, fun resource hm => ?_, hloaded, ?_⟩
        · cases policy with
          | leave => exact hby
          | unloadLoaded => exact hby'
        · exact hnew resource (NameSet.mem_ofList.1 hm)
        · rw [hloaded']
          cases hf : rig.registry.faults.unload with
          | true => rw [if_neg fun h => Bool.noConfusion h.2, if_pos rfl]
          | false => rw [if_pos ⟨rfl, rfl⟩, if_neg Bool.false_ne_true]
      · rw [hloaded', if_pos ⟨rfl, hworks⟩, kept, if_pos hstep]

/-- From handling to welding with a torch that cannot be started: a strict transition has loaded the
gun when it fails, and unloads it again. -/
theorem run_under_policies_welding :
    let options := Settings.standard.transitionOptions
    ∃ e left undone,
      (runUnder .leave options (some .handling) (some .welding) .strict .zero).run
        whileHandling = (some (.error e), left) ∧
      (runUnder .unloadLoaded options (some .handling) (some .welding) .strict .zero).run
        whileHandling = (some (.error e), undone) ∧
      undone.registry.loaded = SimRegistry.whileHandling.loaded := by
  intro options
  obtain ⟨hreturns, hcompare⟩ :=
    run_under_policies options (some .handling) (some .welding) .strict .zero whileHandling
  obtain ⟨outcome, left, hleft⟩ := hreturns rfl .leave
  obtain ⟨outcome', undone, hundone⟩ := hreturns rfl .unloadLoaded
  obtain ⟨rfl, -, hfailed⟩ := hcompare outcome outcome' left undone hleft hundone
  have hfails : ¬ (runUnder .leave options (some .handling) (some .welding) .strict
      .zero).Succeeds whileHandling := by
    decide +kernel
  cases outcome' with
  | ok record => exact absurd ⟨record, left, hleft⟩ hfails
  | error e =>
    obtain ⟨-, -, hinstep⟩ := hfailed e rfl
    exact ⟨e, left, undone, hleft, hundone, hinstep (by decide +kernel) (by decide +kernel)⟩

end Transition

end ControlRig
