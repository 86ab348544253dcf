import ControlRig.Proofs.Transition.Difference
import ControlRig.Proofs.Transition.Rollback

/-!
# Parameters that are missing

The parameters of a target are looked up after the listing and before anything is touched. So a
transition that misses some **has only listed what is loaded**, even if the registry is out of step
and was to be purged (`run_missing_iff`). The key that it reports is the first that has no entry.
-/

namespace ControlRig

namespace Transition

open Observation Procedure

variable {active target : Option Configuration} {strictness : Strictness}
variable {limit timeout : Duration} {listed : List String} {steps : List Observation}
variable {attempt : Attempt}

/-- A listing that works at one moment works at any. -/
theorem not_unlisted {r after : SimRegistry} {now : Instant} {names : List String}
    {e : RegistryError} (listed : (r.run now limit .listLoaded).answer = .ok names) :
    ¬ r.Replays [.called .listLoaded limit (.error e)] after := by
  rintro ⟨later, hanswer, -⟩
  obtain ⟨-, intime⟩ := SimRegistry.run_listLoaded_ok listed
  rw [SimRegistry.run_listLoaded now intime] at listed
  rw [SimRegistry.run_listLoaded later intime, listed] at hanswer
  cases hanswer

/-- A target needs something that the parameters do not have. -/
def Lacks (target : Option Configuration) (params : ParamTree) : Prop :=
  ∃ c, target = some c ∧ ∃ resource ∈ c.resources, ¬ params.Has resource ∨
    ∃ controller ∈ c.controllers resource, ¬ params.Has controller.paramsKey

theorem not_lacks_iff {params : ParamTree} :
    ¬ Lacks target params ↔ ∀ q ∈ requirementsOf target, params.Has q.key := by
  cases target with
  | none => exact iff_of_true (fun ⟨c, hc, _⟩ => nomatch hc) nofun
  | some c =>
    rw [show requirementsOf (some c) = c.needs from rfl, Configuration.forall_needs_iff]
    constructor
    · intro hall resource hresource
      constructor
      · apply Classical.byContradiction
        intro hnot
        exact hall ⟨c, rfl, resource, hresource, .inl hnot⟩
      · intro controller hmem
        apply Classical.byContradiction
        intro hnot
        exact hall ⟨c, rfl, resource, hresource, .inr ⟨controller, hmem, hnot⟩⟩
    · rintro hall ⟨_, heq, resource, hresource, hmissing⟩
      cases heq
      have hprovided := hall resource hresource
      rcases hmissing with hown | ⟨controller, hmem, hnot⟩
      · exact hown hprovided.own
      · exact hnot (hprovided.controllers controller hmem)

/-- **A transition reports a missing parameter exactly if its target needs one that is not there,
and then it has only listed.** What it reports is missing first, and what the registry holds is what
it held, whether that is what the active configuration needs or not. -/
theorem run_missing_iff (options : Options) (active target : Option Configuration)
    (strictness : Strictness) {limit : Duration} {rig : Rig} {names : List String}
    (listed : (rig.registry.run rig.clock limit .listLoaded).answer = .ok names) :
    (rig.armed = ∅ → ∃ outcome after,
      (run options active target strictness limit).run rig = (some outcome, after)) ∧
    ∀ outcome after,
      (run options active target strictness limit).run rig = (some outcome, after) →
      ((∃ key owner, outcome = .error (.missingParameter key owner)) ↔ Lacks target rig.params) ∧
      ∀ key owner, outcome = .error (.missingParameter key owner) →
        (∃ c, target = some c ∧ c.FirstUnmet rig.params key owner) ∧
        after.registry.held = rig.registry.held ∧
        after.registry.calls = rig.registry.calls ++ [.listLoaded] := by
  constructor
  · exact run_returns options active target strictness limit
  · intro outcome after hrun
    have hcalls := Procedure.run_calls (run options active target strictness limit) rig
    obtain ⟨attempt, mid, -, hconclude, steps, undone, hseen, hsteps, -, hcourse, hundone, rfl⟩ :=
      course_of_run hrun
    rw [hrun, hseen] at hcalls
    rcases hcourse.checked (looked_of_history hseen) with
      ⟨e, rfl, -⟩ | ⟨met, q, rest, hsplit, hthere, hmissing, rfl, rfl⟩ | ⟨hall, hother⟩
    · exact absurd hsteps (not_unlisted listed)
    · have hlacks : Lacks target rig.params := by
        refine Classical.byContradiction fun hnot => ?_
        exact hmissing (not_lacks_iff.1 hnot q (by simp [hsplit]))
      refine ⟨iff_of_true ⟨q.key, q.owner, rfl⟩ hlacks, ?_⟩
      intro key owner hreport
      cases hreport
      cases hconclude
      cases hundone
      refine ⟨?_, refused_held hcourse hsteps, ?_⟩
      · obtain ⟨c, rfl, -⟩ := hlacks
        exact ⟨c, rfl, Configuration.firstUnmet_of_split hsplit hthere hmissing⟩
      · rw [hcalls, List.append_nil]
        show _ ++ .listLoaded :: calls (found met ++ [_]) = _
        rw [calls_append, calls_found]
        rfl
    · refine ⟨iff_of_false ?_ (not_lacks_iff.2 hall),
        fun key owner hreport => absurd hreport (hother key owner)⟩
      rintro ⟨key, owner, hreport⟩
      exact hother key owner hreport

/-- The belt is lost, so everything was to be purged; but there are no parameters for the spark. -/
theorem run_missing_iff_welding :
    let rig : Rig := .fresh (SimRegistry.whileHandling.forget "belt")
      ⟨[("arm", .table [("grip", .table []), ("torch", .table [])]), ("gun", .table [])]⟩
    ∃ after,
      (run Settings.standard.transitionOptions (some .handling) (some .welding) .strict .zero).run
        rig = (some (.error (.missingParameter "gun/spark" "controller 'spark' on 'gun'")),
          after) ∧
      Configuration.welding.FirstUnmet rig.params "gun/spark" "controller 'spark' on 'gun'" ∧
      Configuration.handling.resources ≠ rig.registry.loaded ∧
      after.registry.held = rig.registry.held ∧
      after.registry.calls = rig.registry.calls ++ [.listLoaded] := by
  intro rig
  have listed : (rig.registry.run rig.clock .zero .listLoaded).answer = .ok ["arm"] := by rfl
  obtain ⟨hreturns, hmissing⟩ :=
    run_missing_iff Settings.standard.transitionOptions (some .handling) (some .welding) .strict
      listed
  obtain ⟨outcome, after, hrun⟩ := hreturns rfl
  have hreported : ((run Settings.standard.transitionOptions (some .handling) (some .welding)
      .strict .zero).run rig).1 =
      some (.error (.missingParameter "gun/spark" "controller 'spark' on 'gun'")) := by
    rfl
  rw [hrun] at hreported
  cases hreported
  obtain ⟨-, honly⟩ := hmissing _ after hrun
  obtain ⟨⟨c, htarget, hfirst⟩, hheld, hcalls⟩ := honly _ _ rfl
  cases htarget
  exact ⟨after, hrun, hfirst, by decide +kernel, hheld, hcalls⟩

end Transition

end ControlRig
