import ControlRig.Proofs.Registry.Reachable
import ControlRig.Proofs.Rig.Frame
import ControlRig.Proofs.Transition.Course

/-!
# The order of the calls

A transition on a rig takes one of the courses of `ControlRig.Proofs.Transition.Course`, and the
rig's registry is what answers: the listing is of what it holds, look-ups are of the rig's
parameters, and **the log grows by the calls of the course and of nothing else**. So a course that
gets as far as the look-ups ends with them exactly if a key is missing (`Course.missing_iff`). A rig
where nobody is to crash lets every transition come to an outcome.
-/

namespace ControlRig

namespace Transition

open Observation Procedure

variable {active target : Option Configuration} {strictness : Strictness}
variable {limit timeout : Duration} {listed : List String} {steps : List Observation}
variable {attempt : Attempt} {r after : SimRegistry}

/-- Every course begins with a listing, and ends with it if that fails. -/
theorem Course.head (h : Course active target strictness limit timeout listed steps attempt) :
    (∃ e, steps = [.called .listLoaded limit (.error e)] ∧ attempt = .refused (.registryQuery e)) ∨
      ∃ rest, steps = .called .listLoaded limit (.ok listed) :: rest := by
  cases h with
  | unlisted e => exact .inl ⟨e, rfl, rfl⟩
  | _ => exact .inr ⟨_, rfl⟩

/-- What a course takes for listed is what its registry holds. -/
theorem Course.of_replays
    (h : Course active target strictness limit timeout listed steps attempt)
    (replays : r.Replays steps after) :
    Course active target strictness limit timeout r.held.keys steps attempt := by
  rcases h.head with ⟨e, rfl, rfl⟩ | ⟨rest, rfl⟩
  · exact .unlisted e
  · obtain ⟨now, hanswer, -⟩ := replays
    rw [← (SimRegistry.run_listLoaded_ok hanswer).1]
    exact h

/-- A course ends with the listing, or with a requirement that is not met, or has found them all. -/
theorem Course.checked {params : ParamTree}
    (h : Course active target strictness limit timeout listed steps attempt)
    (looked : ∀ key found, .lookedUp key found ∈ steps → found = params.hasEntry key) :
    (∃ e, steps = [.called .listLoaded limit (.error e)] ∧ attempt = .refused (.registryQuery e)) ∨
      (∃ met q rest, requirementsOf target = met ++ q :: rest ∧
        (∀ p ∈ met, params.Has p.key) ∧ ¬ params.Has q.key ∧
        attempt = .refused (.missingParameter q.key q.owner) ∧
        steps = .called .listLoaded limit (.ok listed) :: (found met ++ [.lookedUp q.key false])) ∨
      ((∀ q ∈ requirementsOf target, params.Has q.key) ∧
        ∀ key owner, attempt.outcome ≠ .error (.missingParameter key owner)) := by
  have hthere {needs : List Requirement} (hfound : ∀ o ∈ found needs, o ∈ steps) :
      ∀ q ∈ needs, params.Has q.key := by
    intro q hq
    refine ParamTree.hasEntry_iff.1 (looked q.key true (hfound _ ?_)).symm
    exact List.mem_map_of_mem (f := fun q => Observation.lookedUp q.key true) hq
  cases h with
  | unlisted e => exact .inl ⟨e, rfl, rfl⟩
  | @unmet met rest q hsplit =>
    refine .inr (.inl ⟨met, q, rest, hsplit, hthere fun o ho => by simp [ho], ?_, rfl, rfl⟩)
    rw [← ParamTree.hasEntry_iff, ← looked q.key false (by simp)]
    exact Bool.false_ne_true
  | _ =>
    refine .inr (.inr ⟨hthere fun o ho => by simp [opening, ho], ?_⟩)
    intro key owner heq
    cases heq

/-- **A course that gets as far as the look-ups ends with them exactly if a key is missing**, and
reports the first. -/
theorem Course.missing_iff {params : ParamTree}
    (h : Course active target strictness limit timeout listed steps attempt)
    (looked : ∀ key found, .lookedUp key found ∈ steps → found = params.hasEntry key)
    (key owner : String) :
    attempt.outcome = .error (.missingParameter key owner) ↔
      (∃ names, .called .listLoaded limit (.ok names) ∈ steps) ∧
        ∃ c, target = some c ∧ c.FirstUnmet params key owner := by
  rcases h.checked looked with
    ⟨e, rfl, rfl⟩ | ⟨met, q, rest, hsplit, hthere, hmissing, rfl, rfl⟩ | ⟨hall, hother⟩
  · exact iff_of_false (fun hreport => by cases hreport) (by simp)
  · cases target with
    | none => cases List.append_eq_nil_iff.1 hsplit.symm |>.2
    | some c =>
      have hfirst := Configuration.firstUnmet_of_split hsplit hthere hmissing
      constructor
      · intro hreport
        cases hreport
        exact ⟨⟨listed, List.mem_cons_self⟩, c, rfl, hfirst⟩
      · rintro ⟨-, _, heq, hunmet⟩
        cases heq
        obtain ⟨rfl, rfl⟩ := hfirst.unique hunmet
        rfl
  · refine iff_of_false (hother key owner) ?_
    rintro ⟨-, c, rfl, hunmet⟩
    obtain ⟨resource, hfirst, -⟩ := hunmet.exists_resource
    exact hfirst.lacking (Configuration.forall_needs_iff.1 hall resource hfirst.mem)

/-- A run on a rig has two halves. The first takes a course and the second concludes it, and the
rig's registry has answered in both. -/
theorem course_of_run {options : Options} {rig final : Rig}
    {outcome : Except ManagerError TransitionRecord}
    (h : (run options active target strictness limit).run rig = (some outcome, final)) :
    ∃ attempt mid,
      (advance options active target strictness limit).run rig = (some attempt, mid) ∧
      (conclude options.rollback limit attempt).run mid = (some outcome, final) ∧
      ∃ steps undone,
        (run options active target strictness limit).history rig = steps ++ undone ∧
        rig.registry.Replays steps mid.registry ∧
        mid.registry.Replays undone final.registry ∧
        Course active target strictness limit options.verification.timeout rig.registry.held.keys
          steps attempt ∧
        Undone limit options.rollback attempt undone ∧ outcome = attempt.outcome := by
  rw [run_eq] at h ⊢
  obtain ⟨attempt, mid, hadvance, hconclude⟩ := run_bind_some.1 h
  have hsteps := replays_history (advance options active target strictness limit) rig
  have hundo := replays_history (conclude options.rollback limit attempt) mid
  have hfirst := goes_history (advance options active target strictness limit) rig
  have hlast := goes_history (conclude options.rollback limit attempt) mid
  rw [hadvance] at hsteps hfirst
  rw [hconclude] at hundo hlast
  obtain ⟨listed, hcourse⟩ := goes_advance hfirst
  obtain ⟨houtcome, hundone⟩ := goes_conclude hlast
  exact ⟨attempt, mid, hadvance, hconclude, _, _, history_bind hadvance, hsteps, hundo,
    hcourse.of_replays hsteps, hundone, houtcome⟩

/-- Where nobody is to crash every transition comes to an outcome. -/
theorem run_returns (options : Options) (active target : Option Configuration)
    (strictness : Strictness) (limit : Duration) {rig : Rig} (calm : rig.armed = ∅) :
    ∃ outcome after,
      (run options active target strictness limit).run rig = (some outcome, after) := by
  obtain ⟨outcome, after, hrun, -⟩ := (run_composed options target strictness limit active).returns
    fun action _ => rig.not_isArmedAt calm action
  exact ⟨outcome, after, hrun⟩

/-- What a run has looked up is what the parameters of its rig say. -/
theorem looked_of_history {options : Options} {rig : Rig} {undone : List Observation}
    (h : (run options active target strictness limit).history rig = steps ++ undone) (key : String)
    (found : Bool) (hmem : .lookedUp key found ∈ steps) : found = rig.params.hasEntry key := by
  refine (run_composed options target strictness limit active).asks.lookedUp ?_
  rw [h]
  exact List.mem_append_left _ hmem

/-- **A transition calls the registry in the order of its course, and for nothing else.** The log
grows by what was called in the steps up to the first failure and in what was undone after it. The
steps end with the look-ups exactly if the target needs something that the parameters do not have,
and what is reported then is missing first. -/
theorem run_in_order (options : Options) (active target : Option Configuration)
    (strictness : Strictness) (limit : Duration) (rig : Rig) :
    (rig.armed = ∅ → ∃ outcome after,
      (run options active target strictness limit).run rig = (some outcome, after)) ∧
    ∀ outcome after,
      (run options active target strictness limit).run rig = (some outcome, after) →
      ∃ steps undone attempt,
        after.registry.calls = rig.registry.calls ++ calls (steps ++ undone) ∧
        rig.registry.Replays (steps ++ undone) after.registry ∧
        (∀ key found, .lookedUp key found ∈ steps → found = rig.params.hasEntry key) ∧
        Course active target strictness limit options.verification.timeout rig.registry.held.keys
          steps attempt ∧
        (∀ key owner, attempt.outcome = .error (.missingParameter key owner) ↔
          (∃ names, .called .listLoaded limit (.ok names) ∈ steps) ∧
            ∃ c, target = some c ∧ c.FirstUnmet rig.params key owner) ∧
        Undone limit options.rollback attempt undone ∧
        outcome = attempt.outcome := by
  constructor
  · exact run_returns options active target strictness limit
  · intro outcome after hrun
    have hcalls := Procedure.run_calls (run options active target strictness limit) rig
    obtain ⟨attempt, mid, -, -, steps, undone, hseen, hsteps, hundo, hcourse, hundone, houtcome⟩ :=
      course_of_run hrun
    rw [hrun, hseen] at hcalls
    have hlook := looked_of_history hseen
    exact ⟨steps, undone, attempt, hcalls,
      SimRegistry.replays_append.2 ⟨mid.registry, hsteps, hundo⟩, hlook, hcourse,
      hcourse.missing_iff hlook, hundone, houtcome⟩

/-- A rig on which handling goes on, with parameters for handling and for welding. -/
def whileHandling : Rig :=
  .fresh .whileHandling
    ⟨[("arm", .table [("grip", .table []), ("move", .table []), ("torch", .table [])]),
      ("belt", .table [("feed", .table [])]), ("gun", .table [("spark", .table [])])]⟩

/-- The belt is lost and the gun cannot be loaded, so welding comes to a purge, two loads, one that
fails, and a rollback of the two. Without parameters for the spark it comes to the listing alone. -/
theorem run_in_order_welding :
    let options : Options := ⟨Settings.standard.transitionOptions.verification, .unloadLoaded⟩
    let rig : Rig := { whileHandling with
      registry := (SimRegistry.whileHandling.forget "belt").failLoad "gun" }
    let sparkless : Rig := { rig with
      params := ⟨[("arm", .table [("grip", .table []), ("torch", .table [])]),
        ("gun", .table [])]⟩ }
    (∃ outcome after steps undone attempt,
      (run options (some .handling) (some .welding) .strict .zero).run rig =
        (some outcome, after) ∧
      calls (steps ++ undone) =
        [.listLoaded, .purge, .load "arm", .load "belt", .load "gun",
          .stopControllers ["arm", "belt"], .unload ["arm", "belt"]] ∧
      Course (some .handling) (some .welding) .strict .zero options.verification.timeout ["arm"]
        steps attempt ∧
      Undone .zero .unloadLoaded attempt undone) ∧
    ∃ outcome after steps undone,
      (run options (some .handling) (some .welding) .strict .zero).run sparkless =
        (some outcome, after) ∧
      calls (steps ++ undone) = [.listLoaded] ∧
      Configuration.welding.FirstUnmet sparkless.params "gun/spark"
        "controller 'spark' on 'gun'" := by
  intro options rig sparkless
  constructor
  · obtain ⟨hreturns, hordered⟩ :=
      run_in_order options (some .handling) (some .welding) .strict .zero rig
    obtain ⟨outcome, after, hrun⟩ := hreturns rfl
    obtain ⟨steps, undone, attempt, hcalls, -, -, hcourse, -, hundone, -⟩ :=
      hordered outcome after hrun
    have hlog :
        ((run options (some .handling) (some .welding) .strict .zero).run rig).2.registry.calls =
        rig.registry.calls ++ [.listLoaded, .purge, .load "arm", .load "belt", .load "gun",
          .stopControllers ["arm", "belt"], .unload ["arm", "belt"]] := by
      decide +kernel
    rw [hrun] at hlog
    exact ⟨outcome, after, steps, undone, attempt, hrun,
      List.append_cancel_left (hcalls.symm.trans hlog), hcourse, hundone⟩
  · obtain ⟨hreturns, hordered⟩ :=
      run_in_order options (some .handling) (some .welding) .strict .zero sparkless
    obtain ⟨outcome, after, hrun⟩ := hreturns rfl
    obtain ⟨steps, undone, attempt, hcalls, -, -, -, hmissing, -, rfl⟩ :=
      hordered outcome after hrun
    have hlog : ((run options (some .handling) (some .welding) .strict .zero).run
        sparkless).2.registry.calls = sparkless.registry.calls ++ [.listLoaded] := by
      decide +kernel
    have hreport : ((run options (some .handling) (some .welding) .strict .zero).run
        sparkless).1 =
        some (.error (.missingParameter "gun/spark" "controller 'spark' on 'gun'")) := by
      rfl
    rw [hrun] at hlog hreport
    obtain ⟨-, c, htarget, hfirst⟩ := (hmissing _ _).1 (Option.some.inj hreport)
    cases htarget
    exact ⟨_, after, steps, undone, hrun, List.append_cancel_left (hcalls.symm.trans hlog), hfirst⟩

end Transition

end ControlRig
