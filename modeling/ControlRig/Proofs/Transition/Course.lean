import ControlRig.Proofs.Transition.Advance
import ControlRig.Proofs.Transition.Requirements

/-!
# The course of a transition

A transition goes through its phases in one order and stops at the first that fails. `Course`
writes this down as a grammar of what is observed: one constructor for each phase that can fail, and
one for the transition that settles. `Undone` says what may follow. **Whoever answers, a transition
takes one of these courses** (`goes_run`); what the answers do to a registry is left to those who
replay the course on one.

Each phase has a lemma of its own that lists what it can come to. They are put together from the
last phase to the first, because a phase is handed what the earlier ones have made of the record.
-/

namespace ControlRig

namespace Transition

open Procedure Observation

/-! ## The grammar -/

section

variable (active target : Option Configuration) (strictness : Strictness) (limit : Duration)

/-- Requirements that turned out to be met. -/
def found (requirements : List Requirement) : List Observation :=
  requirements.map fun q => .lookedUp q.key true

/-- The purge of a registry that is out of step with the active configuration. -/
def purging (loaded : NameSet) : List Observation :=
  if Configuration.resourcesOf active = loaded then [] else [.called .purge limit (.ok [])]

/-- What has to be loaded: what only the target needs, and after a purge also what the active
configuration needs. -/
def due (loaded : NameSet) : NameSet :=
  let added := Configuration.resourcesOf target \ Configuration.resourcesOf active
  if Configuration.resourcesOf active = loaded then added
  else added ∪ Configuration.resourcesOf active

/-- What is not needed any more. -/
def dropped : NameSet := Configuration.resourcesOf active \ Configuration.resourcesOf target

/-- The beginning of every transition that gets as far as loading. -/
def opening (listed : List String) : List Observation :=
  .called .listLoaded limit (.ok listed) ::
    (found (requirementsOf target) ++ purging active limit (.ofList listed))

/-- Resources that were loaded one after the other. -/
def loading (names : List String) : List Observation :=
  names.map fun n => .called (.load n) limit (.ok [])

/-- The end of every transition that settles. -/
def releasing (names : NameSet) : List Observation :=
  if names = ∅ then []
  else [.called (.stopControllers names.names) limit (.ok []),
    .called (.unload names.names) limit (.ok [])]

/-- What has been observed is that each of these resources is ready, and no more than such things.
-/
structure Verified (resources : NameSet) (seen : List Observation) : Prop where
  reports : ∀ o ∈ seen, o.IsReport
  ready : ∀ resource ∈ resources, Readied resource seen

/-- The controllers of the target were started, apart from those skipped. A target without
resources has none to start, and neither has no target. -/
inductive Started : List String → List Observation → Prop
  | nobody : Configuration.resourcesOf target = ∅ → Started [] []
  | started {t : Configuration} (skipped : List String) : target = some t →
      Configuration.resourcesOf target ≠ ∅ →
      Started skipped [.called
        (.startControllers (Configuration.resourcesOf target).names t strictness) limit
        (.ok skipped)]

/-- The record of a transition that is about to load. -/
def prepared (loaded : NameSet) : TransitionRecord :=
  let plan := TransitionRecord.plan active target loaded
  if Configuration.resourcesOf active = loaded then plan else plan.resynchronize

/-- **The courses that a transition can take**, with what is observed and where it stops. `listed`
is what the registry told to be loaded. -/
inductive Course (timeout : Duration) (listed : List String) : List Observation → Attempt → Prop
  | unlisted (e : RegistryError) :
      Course timeout listed [.called .listLoaded limit (.error e)] (.refused (.registryQuery e))
  | unmet {met rest : List Requirement} {q : Requirement} :
      requirementsOf target = met ++ q :: rest →
      Course timeout listed
        (.called .listLoaded limit (.ok listed) :: (found met ++ [.lookedUp q.key false]))
        (.refused (.missingParameter q.key q.owner))
  | unpurged (e : RegistryError) :
      Configuration.resourcesOf active ≠ .ofList listed →
      Course timeout listed
        (.called .listLoaded limit (.ok listed) ::
          (found (requirementsOf target) ++ [.called .purge limit (.error e)]))
        (.refused (.purge e))
  | unloaded {done rest : List String} {resource : String} (e : RegistryError) :
      (due active target (.ofList listed)).names = done ++ resource :: rest →
      Course timeout listed
        (opening active target limit listed ++ loading limit done ++
          [.called (.load resource) limit (.error e)])
        (.failed done (.resourceLoad resource e))
  | unready {reports : List Observation} {failed : List String} :
      (∀ o ∈ reports, o.IsReport) → failed ≠ [] →
      Course timeout listed
        (opening active target limit listed ++
          loading limit (due active target (.ofList listed)).names ++ reports)
        (.failed (due active target (.ofList listed)).names (.resourceVerification failed timeout))
  | unstarted {reports : List Observation} {t : Configuration} (e : RegistryError) :
      Verified (due active target (.ofList listed)) reports → target = some t →
      Configuration.resourcesOf target ≠ ∅ →
      Course timeout listed
        (opening active target limit listed ++
          loading limit (due active target (.ofList listed)).names ++ reports ++
          [.called (.startControllers (Configuration.resourcesOf target).names t strictness) limit
            (.error e)])
        (.failed (due active target (.ofList listed)).names (.controllerStart e))
  | unstopped {reports started : List Observation} {skipped : List String} (e : RegistryError) :
      Verified (due active target (.ofList listed)) reports →
      Started target strictness limit skipped started → dropped active target ≠ ∅ →
      Course timeout listed
        (opening active target limit listed ++
          loading limit (due active target (.ofList listed)).names ++ reports ++ started ++
          [.called (.stopControllers (dropped active target).names) limit (.error e)])
        (.failed (due active target (.ofList listed)).names (.controllerStop e))
  | unreleased {reports started : List Observation} {skipped : List String} (e : RegistryError) :
      Verified (due active target (.ofList listed)) reports →
      Started target strictness limit skipped started → dropped active target ≠ ∅ →
      Course timeout listed
        (opening active target limit listed ++
          loading limit (due active target (.ofList listed)).names ++ reports ++ started ++
          [.called (.stopControllers (dropped active target).names) limit (.ok []),
            .called (.unload (dropped active target).names) limit (.error e)])
        (.failed (due active target (.ofList listed)).names (.resourceUnload e))
  | settled {reports started : List Observation} {skipped : List String}
      (verification : SortedMap Bool) :
      Verified (due active target (.ofList listed)) reports →
      Started target strictness limit skipped started →
      Course timeout listed
        (opening active target limit listed ++
          loading limit (due active target (.ofList listed)).names ++ reports ++ started ++
          releasing limit (dropped active target))
        (.settled { prepared active target (.ofList listed) with
          verification := verification
          skippedControllers := skipped })

/-- What follows a course under a policy. Only what this transition has loaded is ever undone, and
the unloading is tried even if the stopping failed. -/
inductive Undone (policy : RollbackPolicy) : Attempt → List Observation → Prop
  | rolledBack {loaded : List String} {e : ManagerError} (stopped unloaded : Operation.Answer) :
      policy = .unloadLoaded → loaded ≠ [] →
      Undone policy (.failed loaded e)
        [.called (.stopControllers loaded) limit stopped, .called (.unload loaded) limit unloaded]
  | kept {loaded : List String} {e : ManagerError} : policy = .leave ∨ loaded = [] →
      Undone policy (.failed loaded e) []
  | refused (e : ManagerError) : Undone policy (.refused e) []
  | settled (record : TransitionRecord) : Undone policy (.settled record) []

end

/-! ## What each phase can come to -/

section

variable {active target : Option Configuration} {strictness : Strictness} {limit : Duration}
variable {options : Options} {record : TransitionRecord} {seen : List Observation}

/-- Requirements are looked up one after the other, as far as they are met. -/
theorem goes_firstUnmet {requirements : List Requirement} {unmet : Option Requirement}
    (h : (firstUnmet requirements).Goes seen (some unmet)) :
    (unmet = none ∧ seen = found requirements) ∨
      ∃ met q rest, requirements = met ++ q :: rest ∧ unmet = some q ∧
        seen = found met ++ [.lookedUp q.key false] := by
  induction requirements generalizing seen with
  | nil =>
    obtain ⟨rfl, rfl⟩ := goes_done.1 h
    exact .inl ⟨rfl, rfl⟩
  | cons requirement rest ih =>
    unfold firstUnmet at h
    obtain ⟨there, xs, ys, hlook, hrest, rfl⟩ := goes_bind_some.1 h
    rw [goes_hasEntry] at hlook
    subst hlook
    cases there with
    | true =>
      rw [if_pos rfl] at hrest
      rcases ih hrest with ⟨rfl, rfl⟩ | ⟨met, q, more, rfl, rfl, rfl⟩
      · exact .inl ⟨rfl, rfl⟩
      · exact .inr ⟨requirement :: met, q, more, rfl, rfl, rfl⟩
    | false =>
      rw [if_neg Bool.false_ne_true] at hrest
      obtain ⟨rfl, rfl⟩ := goes_done.1 hrest
      exact .inr ⟨[], requirement, rest, rfl, rfl, rfl⟩

theorem goes_checkParameters {result : Except ManagerError Unit}
    (h : (checkParameters target).Goes seen (some result)) :
    (result = .ok () ∧ seen = found (requirementsOf target)) ∨
      ∃ met q rest, requirementsOf target = met ++ q :: rest ∧
        result = .error (.missingParameter q.key q.owner) ∧
        seen = found met ++ [.lookedUp q.key false] := by
  cases target with
  | none =>
    obtain ⟨rfl, rfl⟩ := goes_done.1 h
    exact .inl ⟨rfl, rfl⟩
  | some t =>
    unfold checkParameters at h
    dsimp only at h
    rw [Configuration.requirements_eq_needs] at h
    obtain ⟨unmet, xs, ys, hfirst, hrest, rfl⟩ := goes_bind_some.1 h
    rcases goes_firstUnmet hfirst with ⟨rfl, rfl⟩ | ⟨met, q, more, hsplit, rfl, rfl⟩
    · obtain ⟨rfl, rfl⟩ := goes_done.1 hrest
      exact .inl ⟨rfl, List.append_nil _⟩
    · obtain ⟨rfl, rfl⟩ := goes_done.1 hrest
      exact .inr ⟨met, q, more, hsplit, rfl, List.append_nil _⟩

/-- The registry is purged exactly if it is out of step. -/
theorem goes_synchronize {loaded : NameSet} {result : Except ManagerError TransitionRecord}
    (h : (synchronize limit (.plan active target loaded)).Goes seen (some result)) :
    (result = .ok (prepared active target loaded) ∧ seen = purging active limit loaded) ∨
      ∃ e, Configuration.resourcesOf active ≠ loaded ∧ result = .error (.purge e) ∧
        seen = [.called .purge limit (.error e)] := by
  unfold synchronize at h
  by_cases hstep : Configuration.resourcesOf active = loaded
  · have hcoherent : (TransitionRecord.plan active target loaded).isCoherent = true :=
      decide_eq_true hstep
    rw [if_pos hcoherent] at h
    obtain ⟨rfl, rfl⟩ := goes_done.1 h
    refine .inl ⟨?_, ?_⟩
    · rw [prepared, if_pos hstep]
    · rw [purging, if_pos hstep]
  · have hcoherent : ¬ (TransitionRecord.plan active target loaded).isCoherent = true :=
      fun hc => hstep (of_decide_eq_true hc)
    rw [if_neg hcoherent] at h
    obtain ⟨_, xs, ys, hwarn, hrest, rfl⟩ := goes_bind_some.1 h
    rw [goes_warn] at hwarn
    subst hwarn
    obtain ⟨answer, us, vs, hcall, hlast, rfl⟩ := goes_bind_some.1 hrest
    obtain ⟨hadm, rfl⟩ := goes_call.1 hcall
    cases answer with
    | error e =>
      obtain ⟨rfl, rfl⟩ := goes_done.1 hlast
      exact .inr ⟨e, hstep, rfl, rfl⟩
    | ok names =>
      obtain ⟨rfl, rfl⟩ := goes_done.1 hlast
      cases (hadm names rfl : names = [])
      refine .inl ⟨?_, ?_⟩
      · rw [prepared, if_neg hstep]
      · rw [purging, if_neg hstep]
        rfl

/-- Resources are loaded one after the other, up to the first that fails. -/
theorem goes_loadAll {names loaded : List String} {error : Option ManagerError}
    (h : (loadAll limit names).Goes seen (some (loaded, error))) :
    (error = none ∧ loaded = names ∧ seen = loading limit names) ∨
      ∃ resource rest e, names = loaded ++ resource :: rest ∧
        error = some (.resourceLoad resource e) ∧
        seen = loading limit loaded ++ [.called (.load resource) limit (.error e)] := by
  induction names generalizing seen loaded error with
  | nil =>
    obtain ⟨rfl, heq⟩ := goes_done.1 h
    cases heq
    exact .inl ⟨rfl, rfl, rfl⟩
  | cons n rest ih =>
    unfold loadAll at h
    obtain ⟨_, xs, ys, hinform, hrest, rfl⟩ := goes_bind_some.1 h
    rw [goes_inform] at hinform
    subst hinform
    obtain ⟨answer, us, vs, hcall, hlast, rfl⟩ := goes_bind_some.1 hrest
    obtain ⟨hadm, rfl⟩ := goes_call.1 hcall
    cases answer with
    | error e =>
      obtain ⟨rfl, heq⟩ := goes_done.1 hlast
      cases heq
      exact .inr ⟨n, rest, e, rfl, rfl, rfl⟩
    | ok told =>
      -- a registry has nothing to tell about a load
      cases (hadm told rfl : told = [])
      obtain ⟨⟨others, error'⟩, ws, zs, hmore, hdone, rfl⟩ := goes_bind_some.1 hlast
      obtain ⟨rfl, heq⟩ := goes_done.1 hdone
      cases heq
      rcases ih hmore with ⟨rfl, rfl, rfl⟩ | ⟨resource, more, e, rfl, rfl, rfl⟩
      · exact .inl ⟨rfl, rfl, by rw [List.append_nil]; rfl⟩
      · exact .inr ⟨resource, more, e, rfl, rfl, by rw [List.append_nil]; rfl⟩

/-- Nothing is believed to be ready that has not reported so. -/
theorem goes_verify {result : Except ManagerError TransitionRecord}
    (h : (verify options record).Goes seen (some result)) :
    (∃ verification, result = .ok { record with verification := verification } ∧
        Verified record.toLoad seen) ∨
      ∃ failed, failed ≠ [] ∧
        result = .error (.resourceVerification failed options.verification.timeout) ∧
        ∀ o ∈ seen, o.IsReport := by
  unfold verify at h
  by_cases hempty : record.toLoad = ∅
  · rw [if_pos (NameSet.isEmpty_iff.2 hempty)] at h
    obtain ⟨rfl, rfl⟩ := goes_done.1 h
    refine .inl ⟨record.verification, rfl, nofun, fun resource hmem => ?_⟩
    rw [hempty] at hmem
    exact absurd hmem (NameSet.not_mem_empty resource)
  · rw [if_neg fun he => hempty (NameSet.isEmpty_iff.1 he)] at h
    obtain ⟨outcomes, xs, ys, hrun, hrest, rfl⟩ := goes_bind_some.1 h
    have hreports := Verification.run_reports hrun
    -- what is reported about failures comes after the outcomes and cannot change them
    cases hfail : Verification.failures outcomes with
    | nil =>
      rw [hfail] at hrest
      obtain ⟨rfl, rfl⟩ := goes_done.1 hrest
      rw [List.append_nil]
      exact .inl ⟨outcomes, rfl, hreports, Verification.run_ready hrun hfail⟩
    | cons resource others =>
      rw [hfail] at hrest
      obtain ⟨rfl, rfl⟩ := goes_done.1 hrest
      rw [List.append_nil]
      exact .inr ⟨resource :: others, List.cons_ne_nil _ _, rfl, hreports⟩

theorem goes_startControllers {result : Except ManagerError TransitionRecord}
    (targets : record.targetResources = Configuration.resourcesOf target)
    (unskipped : record.skippedControllers = [])
    (h : (startControllers target strictness limit record).Goes seen (some result)) :
    (∃ skipped, result = .ok { record with skippedControllers := skipped } ∧
        Started target strictness limit skipped seen) ∨
      ∃ t e, target = some t ∧ Configuration.resourcesOf target ≠ ∅ ∧
        result = .error (.controllerStart e) ∧
        seen = [.called (.startControllers (Configuration.resourcesOf target).names t strictness)
          limit (.error e)] := by
  have hsame : record = { record with skippedControllers := [] } := by rw [← unskipped]
  cases target with
  | none =>
    obtain ⟨rfl, rfl⟩ := goes_done.1 h
    exact .inl ⟨[], congrArg _ hsame, .nobody rfl⟩
  | some t =>
    unfold startControllers at h
    dsimp only at h
    by_cases hempty : Configuration.resourcesOf (some t) = ∅
    · rw [if_pos (NameSet.isEmpty_iff.2 (targets.trans hempty))] at h
      obtain ⟨rfl, rfl⟩ := goes_done.1 h
      exact .inl ⟨[], congrArg _ hsame, .nobody hempty⟩
    · rw [if_neg fun he => hempty (targets.symm.trans (NameSet.isEmpty_iff.1 he))] at h
      obtain ⟨_, xs, ys, hinform, hrest, rfl⟩ := goes_bind_some.1 h
      rw [goes_inform] at hinform
      subst hinform
      obtain ⟨answer, us, vs, hcall, hlast, rfl⟩ := goes_bind_some.1 hrest
      rw [goes_call, targets] at hcall
      obtain ⟨-, rfl⟩ := hcall
      cases answer with
      | error e =>
        obtain ⟨rfl, rfl⟩ := goes_done.1 hlast
        exact .inr ⟨t, e, rfl, hempty, rfl, rfl⟩
      | ok skipped =>
        obtain ⟨rfl, rfl⟩ : vs = [] ∧
            result = .ok { record with skippedControllers := skipped } := by
          dsimp only at hlast
          split at hlast
          · -- the warning about those skipped leaves nothing to be observed
            obtain ⟨_, ws, zs, hwarn, hdone, rfl⟩ := goes_bind_some.1 hlast
            rw [goes_warn] at hwarn
            subst hwarn
            exact goes_done.1 hdone
          · exact goes_done.1 hlast
        exact .inl ⟨skipped, rfl, .started skipped rfl hempty⟩

/-- Controllers are stopped before their resources are unloaded, and only then are they. -/
theorem goes_release {result : Except ManagerError TransitionRecord}
    (h : (release limit record).Goes seen (some result)) :
    (result = .ok record ∧ seen = releasing limit record.toUnload) ∨
      ∃ e, record.toUnload ≠ ∅ ∧
        ((result = .error (.controllerStop e) ∧
            seen = [.called (.stopControllers record.toUnload.names) limit (.error e)]) ∨
          (result = .error (.resourceUnload e) ∧
            seen = [.called (.stopControllers record.toUnload.names) limit (.ok []),
              .called (.unload record.toUnload.names) limit (.error e)])) := by
  unfold release at h
  by_cases hempty : record.toUnload = ∅
  · rw [if_pos (NameSet.isEmpty_iff.2 hempty)] at h
    obtain ⟨rfl, rfl⟩ := goes_done.1 h
    exact .inl ⟨rfl, by rw [releasing, if_pos hempty]⟩
  · rw [if_neg fun he => hempty (NameSet.isEmpty_iff.1 he)] at h
    obtain ⟨_, xs, ys, hinform, hrest, rfl⟩ := goes_bind_some.1 h
    rw [goes_inform] at hinform
    subst hinform
    obtain ⟨answer, us, vs, hstop, hlast, rfl⟩ := goes_bind_some.1 hrest
    obtain ⟨hadm, rfl⟩ := goes_call.1 hstop
    cases answer with
    | error e =>
      obtain ⟨rfl, rfl⟩ := goes_done.1 hlast
      exact .inr ⟨e, hempty, .inl ⟨rfl, rfl⟩⟩
    | ok told =>
      cases (hadm told rfl : told = [])
      obtain ⟨_, ws, zs, hinform, hnext, rfl⟩ := goes_bind_some.1 hlast
      rw [goes_inform] at hinform
      subst hinform
      obtain ⟨answer, ps, qs, hunload, hdone, rfl⟩ := goes_bind_some.1 hnext
      obtain ⟨hadm, rfl⟩ := goes_call.1 hunload
      cases answer with
      | error e =>
        obtain ⟨rfl, rfl⟩ := goes_done.1 hdone
        exact .inr ⟨e, hempty, .inr ⟨rfl, rfl⟩⟩
      | ok told =>
        cases (hadm told rfl : told = [])
        obtain ⟨rfl, rfl⟩ := goes_done.1 hdone
        refine .inl ⟨rfl, ?_⟩
        rw [releasing, if_neg hempty]
        rfl

end

/-! ## All phases -/

section

variable {active target : Option Configuration} {strictness : Strictness} {limit : Duration}
variable {options : Options} {listed : List String} {seen : List Observation}

theorem prepared_toLoad (loaded : NameSet) :
    (prepared active target loaded).toLoad = due active target loaded := by
  unfold prepared due
  split <;> rfl

theorem prepared_toUnload (loaded : NameSet) :
    (prepared active target loaded).toUnload = dropped active target := by
  unfold prepared
  split <;> rfl

theorem prepared_targetResources (loaded : NameSet) :
    (prepared active target loaded).targetResources = Configuration.resourcesOf target := by
  unfold prepared
  split <;> rfl

theorem prepared_skippedControllers (loaded : NameSet) :
    (prepared active target loaded).skippedControllers = [] := by
  unfold prepared
  split <;> rfl

/-- After everything has been loaded. -/
theorem goes_establish {result : Except ManagerError TransitionRecord}
    (h : (establish options target strictness limit
      (prepared active target (.ofList listed))).Goes seen (some result)) :
    Course active target strictness limit options.verification.timeout listed
      (opening active target limit listed ++
        (loading limit (due active target (.ofList listed)).names ++ seen))
      (.after (due active target (.ofList listed)).names result) := by
  unfold establish at h
  obtain ⟨verified, reports, ys, hverify, hrest, rfl⟩ := goes_bind_some.1 h
  rcases goes_verify hverify with ⟨verification, rfl, hready⟩ | ⟨failed, hfailed, rfl, hreports⟩
  · -- the record has changed, but not in what the later phases read
    rw [prepared_toLoad] at hready
    have hskipped : ({ prepared active target (.ofList listed) with
        verification := verification } : TransitionRecord).skippedControllers = [] :=
      prepared_skippedControllers _
    have htargets : ({ prepared active target (.ofList listed) with
        verification := verification } : TransitionRecord).targetResources =
          Configuration.resourcesOf target :=
      prepared_targetResources _
    obtain ⟨started, starts, zs, hstart, hlast, rfl⟩ := goes_bind_some.1 hrest
    rcases goes_startControllers htargets hskipped hstart with
       ⟨skipped, rfl, hstarted⟩ | ⟨t, e, htarget, hsome, rfl, rfl⟩
    · rcases goes_release hlast with ⟨rfl, rfl⟩ | ⟨e, hdropped, ⟨rfl, rfl⟩ | ⟨rfl, rfl⟩⟩
      · have hcourse : Course active target strictness limit options.verification.timeout
            listed _ _ :=
          .settled verification hready hstarted
        simp only [List.append_assoc, prepared_toUnload] at hcourse ⊢
        exact hcourse
      · simp only [prepared_toUnload] at hdropped ⊢
        have hcourse : Course active target strictness limit options.verification.timeout
            listed _ _ :=
          .unstopped e hready hstarted hdropped
        simp only [List.append_assoc] at hcourse
        exact hcourse
      · simp only [prepared_toUnload] at hdropped ⊢
        have hcourse : Course active target strictness limit options.verification.timeout
            listed _ _ :=
          .unreleased e hready hstarted hdropped
        simp only [List.append_assoc] at hcourse
        exact hcourse
    · obtain ⟨rfl, rfl⟩ := goes_done.1 hlast
      have hcourse : Course active target strictness limit options.verification.timeout
          listed _ _ :=
        .unstarted e hready htarget hsome
      simp only [List.append_assoc, List.append_nil] at hcourse ⊢
      exact hcourse
  · obtain ⟨rfl, rfl⟩ := goes_done.1 hrest
    have hcourse : Course active target strictness limit options.verification.timeout listed _ _ :=
      .unready hreports hfailed
    simp only [List.append_assoc, List.append_nil] at hcourse ⊢
    exact hcourse

/-- From the first load on. -/
theorem goes_carryOut {loaded : List String} {result : Except ManagerError TransitionRecord}
    (h : (carryOut options target strictness limit
      (prepared active target (.ofList listed))).Goes seen (some (loaded, result))) :
    Course active target strictness limit options.verification.timeout listed
      (opening active target limit listed ++ seen) (.after loaded result) := by
  unfold carryOut at h
  rw [prepared_toLoad] at h
  obtain ⟨⟨names, error⟩, loads, ys, hload, hrest, rfl⟩ := goes_bind_some.1 h
  rcases goes_loadAll hload with ⟨rfl, rfl, rfl⟩ | ⟨resource, rest, e, hsplit, rfl, rfl⟩
  · obtain ⟨established, zs, ws, hestablish, hdone, rfl⟩ := goes_bind_some.1 hrest
    obtain ⟨rfl, heq⟩ := goes_done.1 hdone
    cases heq
    rw [List.append_nil]
    exact goes_establish hestablish
  · obtain ⟨rfl, heq⟩ := goes_done.1 hrest
    cases heq
    have hcourse : Course active target strictness limit options.verification.timeout listed _ _ :=
      .unloaded e hsplit
    simp only [List.append_assoc, List.append_nil] at hcourse ⊢
    exact hcourse

/-- **Whoever answers, a transition takes one of the courses.** -/
theorem goes_advance {attempt : Attempt}
    (h : (advance options active target strictness limit).Goes seen (some attempt)) :
    ∃ listed, Course active target strictness limit options.verification.timeout listed seen
      attempt := by
  unfold advance at h
  obtain ⟨answer, xs, ys, hlist, hrest, rfl⟩ := goes_bind_some.1 h
  obtain ⟨-, rfl⟩ := goes_call.1 hlist
  cases answer with
  | error e =>
    obtain ⟨rfl, rfl⟩ := goes_done.1 hrest
    exact ⟨[], .unlisted e⟩
  | ok listed =>
    refine ⟨listed, ?_⟩
    obtain ⟨checked, us, vs, hcheck, hnext, rfl⟩ := goes_bind_some.1 hrest
    rcases goes_checkParameters hcheck with ⟨rfl, rfl⟩ | ⟨met, q, rest, hsplit, rfl, rfl⟩
    · obtain ⟨synchronized, ws, zs, hsync, hlast, rfl⟩ := goes_bind_some.1 hnext
      rcases goes_synchronize hsync with ⟨rfl, rfl⟩ | ⟨e, hstep, rfl, rfl⟩
      · obtain ⟨⟨loaded, result⟩, ps, qs, hcarry, hdone, rfl⟩ := goes_bind_some.1 hlast
        obtain ⟨rfl, rfl⟩ := goes_done.1 hdone
        have hcourse := goes_carryOut hcarry
        rw [List.append_nil]
        simp only [opening, List.cons_append, List.append_assoc] at hcourse
        exact hcourse
      · obtain ⟨rfl, rfl⟩ := goes_done.1 hlast
        rw [List.append_nil]
        exact .unpurged e hstep
    · obtain ⟨rfl, rfl⟩ := goes_done.1 hnext
      rw [List.append_nil]
      exact .unmet hsplit

/-! ## What follows -/

theorem goes_mention {failure : String} {answer : Operation.Answer} {u : Unit}
    (h : (mention failure answer).Goes seen (some u)) : seen = [] := by
  cases answer with
  | error e => exact goes_warn.1 h
  | ok told => exact (goes_done.1 h).1

theorem goes_rollBack {policy : RollbackPolicy} {loaded : List String} {e : ManagerError} {u : Unit}
    (h : (rollBack policy limit loaded).Goes seen (some u)) :
    Undone limit policy (.failed loaded e) seen := by
  rw [rollBack_eq] at h
  by_cases hundo : policy = .unloadLoaded ∧ loaded ≠ []
  · obtain ⟨hpolicy, hloaded⟩ := hundo
    rw [if_pos (by simp [hpolicy, hloaded])] at h
    obtain ⟨_, _, ys, hwarn, hrest, rfl⟩ := goes_bind_some.1 h
    obtain ⟨stopped, _, us, hstop, hnext, rfl⟩ := goes_bind_some.1 hrest
    obtain ⟨_, _, vs, hfirst, hlast, rfl⟩ := goes_bind_some.1 hnext
    obtain ⟨unloaded, _, ws, hunload, hsecond, rfl⟩ := goes_bind_some.1 hlast
    rw [goes_warn] at hwarn
    obtain ⟨-, rfl⟩ := goes_call.1 hstop
    obtain ⟨-, rfl⟩ := goes_call.1 hunload
    rw [hwarn, goes_mention hfirst, goes_mention hsecond]
    exact .rolledBack stopped unloaded hpolicy hloaded
  · have hkeep : ¬ (policy = .unloadLoaded && !loaded.isEmpty) = true := by
      simpa using hundo
    rw [if_neg hkeep] at h
    obtain ⟨rfl, -⟩ := goes_done.1 h
    refine .kept ?_
    cases policy with
    | leave => exact .inl rfl
    | unloadLoaded => exact .inr (Classical.not_not.1 fun hl => hundo ⟨rfl, hl⟩)

theorem goes_conclude {policy : RollbackPolicy} {attempt : Attempt}
    {outcome : Except ManagerError TransitionRecord}
    (h : (conclude policy limit attempt).Goes seen (some outcome)) :
    outcome = attempt.outcome ∧ Undone limit policy attempt seen := by
  cases attempt with
  | refused e =>
    obtain ⟨rfl, rfl⟩ := goes_done.1 h
    exact ⟨rfl, .refused e⟩
  | settled record =>
    obtain ⟨rfl, rfl⟩ := goes_done.1 h
    exact ⟨rfl, .settled record⟩
  | failed loaded e =>
    obtain ⟨_, _, ys, hcomplain, hrest, rfl⟩ := goes_bind_some.1 h
    obtain ⟨_, zs, _, hundo, hdone, rfl⟩ := goes_bind_some.1 hrest
    rw [goes_complain] at hcomplain
    obtain ⟨rfl, rfl⟩ := goes_done.1 hdone
    rw [hcomplain, List.append_nil]
    exact ⟨rfl, goes_rollBack hundo⟩

/-- **A transition takes one of the courses, and nothing follows but its own undoing.** -/
theorem goes_run {outcome : Except ManagerError TransitionRecord}
    (h : (run options active target strictness limit).Goes seen (some outcome)) :
    ∃ listed steps undone attempt, seen = steps ++ undone ∧
      Course active target strictness limit options.verification.timeout listed steps attempt ∧
      Undone limit options.rollback attempt undone ∧ outcome = attempt.outcome := by
  rw [run_eq] at h
  obtain ⟨attempt, steps, undone, hadvance, hconclude, rfl⟩ := goes_bind_some.1 h
  obtain ⟨listed, hcourse⟩ := goes_advance hadvance
  obtain ⟨houtcome, hundone⟩ := goes_conclude hconclude
  exact ⟨listed, steps, undone, attempt, rfl, hcourse, hundone, houtcome⟩

end

end Transition

end ControlRig
