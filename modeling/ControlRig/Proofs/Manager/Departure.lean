import ControlRig.Proofs.Manager.Teardown

/-!
# Leaving nothing behind

A teardown goes by what the registry holds and by nothing else. It does not ask what the manager
believes to be active, and it puts up with controllers that cannot be stopped. **What decides is
whether the registry can be listed, and whether it unloads what it holds** (`TearsDown`): if so,
nothing is loaded any more, and if not, all that was loaded still is (`teardown_exact`).

A manager that goes tears down what the registry holds, and whatever comes of that, it publishes
that nothing is active.
-/

namespace ControlRig

namespace SimRegistry

variable {r : SimRegistry} {now : Instant} {limit : Duration}

/-- An operation would be carried out if it were called now. -/
def Grants (r : SimRegistry) (now : Instant) (limit : Duration) (operation : Operation) : Prop :=
  ∃ names, (r.run now limit operation).answer = .ok names

theorem grants_listLoaded_iff :
    r.Grants now limit .listLoaded ↔ ¬ limit < r.latency ∧ r.faults.list = false := by
  constructor
  · rintro ⟨names, hanswer⟩
    obtain ⟨-, hintime⟩ := run_listLoaded_ok hanswer
    refine ⟨hintime, Bool.eq_false_iff.2 fun hfails => ?_⟩
    rw [run_listLoaded now hintime, if_pos hfails] at hanswer
    cases hanswer
  · rintro ⟨hintime, hlists⟩
    refine ⟨r.held.keys, ?_⟩
    rw [run_listLoaded now hintime, hlists, if_neg Bool.false_ne_true]

theorem grants_unload_iff (intime : ¬ limit < r.latency) (names : List String) :
    r.Grants now limit (.unload names) ↔ r.faults.unload = false := by
  rw [Grants, (run_unload now intime names).1]
  cases r.faults.unload with
  | true => exact iff_of_false nofun Bool.noConfusion
  | false => exact iff_of_true ⟨[], rfl⟩ rfl

end SimRegistry

/-! ## Tearing down -/

namespace Transition

open Procedure

variable {rig mid : Rig} {limit : Duration}

/-- **What a teardown comes to.** It goes by the answers of the registry to a listing and to being
asked to unload what is loaded. -/
inductive TearsDown (limit : Duration) (rig : Rig) :
    Except ManagerError (List String) → Rig → Prop
  | unlisted {e : RegistryError} {after : Rig} :
      (rig.registry.run rig.clock limit .listLoaded).answer = .error e →
      after.registry.loaded = rig.registry.loaded →
      TearsDown limit rig (.error (.registryQuery e)) after
  | bare {after : Rig} : rig.registry.Grants rig.clock limit .listLoaded →
      rig.registry.loaded = ∅ → after.registry.loaded = ∅ → TearsDown limit rig (.ok []) after
  | kept {e : RegistryError} {after : Rig} : rig.registry.Grants rig.clock limit .listLoaded →
      rig.registry.loaded ≠ ∅ →
      (rig.registry.run rig.clock limit (.unload rig.registry.loaded.names)).answer = .error e →
      after.registry.loaded = rig.registry.loaded →
      TearsDown limit rig (.error (.resourceUnload e)) after
  | emptied {after : Rig} : rig.registry.Grants rig.clock limit .listLoaded →
      rig.registry.Grants rig.clock limit (.unload rig.registry.loaded.names) →
      after.registry.loaded = ∅ → TearsDown limit rig (.ok rig.registry.loaded.names) after

/-- The last call of a teardown, after whatever else has been tried. -/
theorem run_unloading (calm : rig.armed = ∅) (since : rig.Continues mid)
    (same : mid.registry.loaded = rig.registry.loaded)
    (lists : rig.registry.Grants rig.clock limit .listLoaded) (filled : rig.registry.loaded ≠ ∅) :
    ∃ result after, (call (.unload rig.registry.loaded.names) limit >>= fun
        | .error e => Procedure.done (.error (.resourceUnload e))
        | .ok _ => Procedure.done (.ok rig.registry.loaded.names)).run mid =
          (some result, after) ∧
      TearsDown limit rig result after := by
  obtain ⟨hintime, hlists⟩ := SimRegistry.grants_listLoaded_iff.1 lists
  have hlate : ¬ limit < mid.registry.latency := since.latency ▸ hintime
  have hcall : (call (.unload rig.registry.loaded.names) limit).run mid =
      (some (mid.registry.run mid.clock limit (.unload rig.registry.loaded.names)).answer,
        (mid.call (.unload rig.registry.loaded.names) limit).2) :=
    run_call mid (since.armed.trans calm) rfl
  have hanswer : (mid.registry.run mid.clock limit (.unload rig.registry.loaded.names)).answer =
      (rig.registry.run rig.clock limit (.unload rig.registry.loaded.names)).answer := by
    rw [(SimRegistry.run_unload mid.clock hlate _).1,
      (SimRegistry.run_unload rig.clock hintime _).1, since.faults]
  rw [hanswer] at hcall
  refine exists_run_bind hcall ?_
  cases hgrants : (rig.registry.run rig.clock limit (.unload rig.registry.loaded.names)).answer with
  | error e =>
    refine ⟨_, _, rfl, .kept lists filled hgrants ?_⟩
    have hkept := SimRegistry.run_unload_error (hanswer.trans hgrants)
    exact (SimRegistry.loaded_congr hkept).trans same
  | ok told =>
    have hgranted : rig.registry.Grants rig.clock limit (.unload rig.registry.loaded.names) :=
      ⟨told, hgrants⟩
    have hlets : mid.registry.LetsGo limit := by
      refine ⟨hlate, ?_, ?_⟩
      · rw [since.faults]
        exact hlists
      · rw [since.faults]
        exact (SimRegistry.grants_unload_iff hintime _).1 hgranted
    refine ⟨_, _, rfl, .emptied lists hgranted ?_⟩
    exact Manager.loaded_run_unload hlets mid.clock fun resource hm => same ▸ hm

/-- A teardown comes to an outcome. -/
theorem run_teardown (calm : rig.armed = ∅) (limit : Duration) :
    ∃ result after, (teardown limit).run rig = (some result, after) ∧
      TearsDown limit rig result after := by
  let listed := (rig.call .listLoaded limit).2
  have hlisted : rig.Continues listed := rig.continues_call _ _
  have hloaded : listed.registry.loaded = rig.registry.loaded :=
    SimRegistry.loaded_congr (SimRegistry.run_listLoaded_held _ _ _)
  refine exists_run_bind (run_call rig calm rfl) ?_
  cases hanswer : (rig.registry.run rig.clock limit .listLoaded).answer with
  | error e => exact ⟨_, listed, rfl, .unlisted hanswer hloaded⟩
  | ok names =>
    have hlists : rig.registry.Grants rig.clock limit .listLoaded := ⟨names, hanswer⟩
    obtain rfl : names = rig.registry.loaded.names := (SimRegistry.run_listLoaded_ok hanswer).1
    cases hnames : rig.registry.loaded.names with
    | nil =>
      have hempty : rig.registry.loaded = ∅ := NameSet.ext_mem fun resource => by
        rw [NameSet.mem_def, hnames]
        exact Iff.rfl
      exact ⟨_, listed, rfl, .bare hlists hempty (hloaded.trans hempty)⟩
    | cons first rest =>
      have hfilled : rig.registry.loaded ≠ ∅ := by
        intro hempty
        rw [hempty] at hnames
        cases hnames
      dsimp only
      rw [← hnames]
      refine exists_run_bind (run_inform _ listed) ?_
      let told := listed.note .info ("teardown: unloading " ++ joined rig.registry.loaded.names)
      have htold : rig.Continues told := hlisted.trans (listed.continues_note _ _)
      let quiet := (told.call (.stopControllers rig.registry.loaded.names) limit).2
      have hquiet : rig.Continues quiet := htold.trans (told.continues_call _ _)
      have hsame : quiet.registry.loaded = rig.registry.loaded :=
        (SimRegistry.run_stopControllers_loaded _ _ _ _).trans hloaded
      -- whether or not the controllers were stopped, the resources are unloaded
      refine exists_run_bind (run_call told (htold.armed.trans calm) rfl) ?_
      cases (told.registry.run told.clock limit
          (.stopControllers rig.registry.loaded.names)).answer with
      | error e =>
        refine exists_run_bind (run_warn _ quiet) ?_
        exact run_unloading calm (hquiet.trans (quiet.continues_note _ _)) hsame hlists hfilled
      | ok _ => exact run_unloading calm hquiet hsame hlists hfilled

/-- **What is to be known of a teardown**, whatever the manager believes to be active. -/
structure TornDown (limit : Duration) (rig : Rig) (result : Except ManagerError (List String))
    (after : Rig) : Prop where
  /-- The registry decides, and stopping the controllers does not come into it. -/
  succeeds : (∃ names, result = .ok names) ↔ rig.registry.Grants rig.clock limit .listLoaded ∧
    (rig.registry.loaded ≠ ∅ →
      rig.registry.Grants rig.clock limit (.unload rig.registry.loaded.names))
  empties : ∀ names, result = .ok names → after.registry.loaded = ∅ ∧
    names.Pairwise (· < ·) ∧ ∀ resource, resource ∈ names ↔ resource ∈ rig.registry.loaded
  /-- The error is that of the listing, or that of the unloading of what has been listed. -/
  fails : ∀ e, result = .error e → after.registry.loaded = rig.registry.loaded ∧
    ((∃ cause, e = .registryQuery cause ∧
        (rig.registry.run rig.clock limit .listLoaded).answer = .error cause) ∨
      ∃ cause, e = .resourceUnload cause ∧ rig.registry.Grants rig.clock limit .listLoaded ∧
        (rig.registry.run rig.clock limit (.unload rig.registry.loaded.names)).answer =
          .error cause)

theorem TearsDown.tornDown {result : Except ManagerError (List String)} {after : Rig}
    (h : TearsDown limit rig result after) : TornDown limit rig result after := by
  cases h with
  | unlisted hanswer hsame =>
    refine ⟨iff_of_false ?_ ?_, fun _ hok => (by cases hok), ?_⟩
    · rintro ⟨_, ⟨⟩⟩
    · rintro ⟨⟨names, hgranted⟩, -⟩
      rw [hanswer] at hgranted
      cases hgranted
    · rintro _ ⟨⟩
      exact ⟨hsame, .inl ⟨_, rfl, hanswer⟩⟩
  | bare hlists hempty hgone =>
    refine ⟨iff_of_true ⟨[], rfl⟩ ⟨hlists, fun hfilled => absurd hempty hfilled⟩, ?_,
      fun _ herror => by cases herror⟩
    rintro _ ⟨⟩
    refine ⟨hgone, .nil, ?_⟩
    rw [hempty]
    exact fun resource => Iff.rfl
  | kept hlists hfilled hanswer hsame =>
    refine ⟨iff_of_false ?_ ?_, fun _ hok => (by cases hok), ?_⟩
    · rintro ⟨_, ⟨⟩⟩
    · rintro ⟨-, hunloads⟩
      obtain ⟨names, hgranted⟩ := hunloads hfilled
      rw [hanswer] at hgranted
      cases hgranted
    · rintro _ ⟨⟩
      exact ⟨hsame, .inr ⟨_, rfl, hlists, hanswer⟩⟩
  | emptied hlists hunloads hgone =>
    refine ⟨iff_of_true ⟨_, rfl⟩ ⟨hlists, fun _ => hunloads⟩, ?_, fun _ herror => by cases herror⟩
    rintro _ ⟨⟩
    exact ⟨hgone, rig.registry.loaded.increasing, fun resource => Iff.rfl⟩

end Transition

/-! ## Going -/

namespace Manager

open Procedure Transition

/-- **A teardown succeeds exactly if the registry can be listed and unloads what it holds**, and a
manager that goes does the same to the registry. Then it publishes that nothing is active, whether
or not the teardown has succeeded. -/
theorem teardown_exact (m : Manager) (rig : Rig) (calm : rig.armed = ∅) :
    (∀ limit, ∃ result torn,
      (teardown limit).run rig = (some result, torn) ∧ TornDown limit rig result torn) ∧
    ∃ result torn gone, (teardown m.settings.teardownTimeout).run rig = (some result, torn) ∧
      m.drop.run rig = (some (), gone) ∧ gone.registry = torn.registry ∧
      (rig.params.Writable m.settings.statusKey →
        gone.params.text? m.settings.statusKey = some "none") := by
  constructor
  · intro limit
    obtain ⟨result, torn, hrun, htears⟩ := run_teardown calm limit
    exact ⟨result, torn, hrun, htears.tornDown⟩
  · obtain ⟨result, seen, torn, hrun, -, -, hcontinues⟩ :=
      (teardown_composed m.settings.teardownTimeout).carriedOut calm
    obtain ⟨gone, hdrop, hregistry, hparams⟩ := run_drop_of_teardown calm hrun
    refine ⟨result, torn, gone, hrun, hdrop, hregistry, fun writable => ?_⟩
    rw [hparams, hcontinues.params]
    exact (writable.publish _).1

end Manager

/-- The manager knows nothing of the handling that goes on, and somebody has put up a gate as well.
No controllers can be stopped. -/
def Rig.besideGate : Rig :=
  { Transition.whileHandling with
    registry := (SimRegistry.whileHandling.insertLoaded .start "gate").failStop true }

namespace Manager

/-- Everything is unloaded, and if that fails everything is kept; the manager publishes that nothing
is active even then. -/
theorem teardown_exact_beside_gate :
    (∃ torn, (Transition.teardown .zero).run .besideGate =
        (some (.ok ["arm", "belt", "gate"]), torn) ∧
      torn.registry.loaded = ∅) ∧
    let stuck := { Rig.besideGate with registry := Rig.besideGate.registry.failUnload true }
    ∃ gone, Manager.usual.drop.run stuck = (some (), gone) ∧
      gone.registry.loaded = stuck.registry.loaded ∧
      gone.params.text? Manager.usual.settings.statusKey = some "none" := by
  constructor
  · obtain ⟨result, torn, hrun, htorn⟩ := (teardown_exact .usual .besideGate rfl).1 .zero
    obtain ⟨names, rfl⟩ := htorn.succeeds.2
      ⟨SimRegistry.grants_listLoaded_iff.2 (by decide +kernel), fun _ =>
        (SimRegistry.grants_unload_iff (by decide +kernel) _).2 (by decide +kernel)⟩
    obtain ⟨hgone, hincreasing, hmem⟩ := htorn.empties names rfl
    have hnames : (⟨names, hincreasing⟩ : NameSet) = Rig.besideGate.registry.loaded :=
      NameSet.ext_mem hmem
    have hloaded : Rig.besideGate.registry.loaded.names = ["arm", "belt", "gate"] := by
      decide +kernel
    rw [← hloaded, ← hnames]
    exact ⟨torn, hrun, hgone⟩
  · intro stuck
    obtain ⟨htears, result, torn, gone, hrun, hdrop, hregistry, hpublished⟩ :=
      teardown_exact .usual stuck rfl
    obtain ⟨result', torn', hrun', htorn⟩ := htears Manager.usual.settings.teardownTimeout
    cases hrun.symm.trans hrun'
    refine ⟨gone, hdrop, ?_, hpublished ⟨by decide +kernel, by decide +kernel⟩⟩
    have hfails : ¬ ∃ names, result = .ok names := fun hok => by
      have hgrants := (htorn.succeeds.1 hok).2 (by decide +kernel)
      rw [SimRegistry.grants_unload_iff (by decide +kernel)] at hgrants
      cases hgrants
    rw [hregistry]
    cases result with
    | error e => exact (htorn.fails e rfl).1
    | ok names => exact absurd ⟨names, rfl⟩ hfails

end Manager

end ControlRig
