import ControlRig.Proofs.Manager.Tags
import ControlRig.Proofs.Transition.Difference

/-!
# What was activated

A name can have two definitions at once: the one that was brought up under it, of which the manager
keeps a copy, and the one that the catalog has for it by now. Only a commit touches the copy
(`Manager.active_take`), whatever is read again and however often. So **the next transition starts
from the copy, and its target is what the catalog says then** (`Manager.frozen_of_run`).
-/

namespace ControlRig

namespace Manager

open Procedure Transition

variable {m : Manager} {rig after : Rig}

/-- What can come about while no transition is taken note of. -/
inductive Meanwhile (m : Manager) : Rig → Rig → Prop
  | refl (rig : Rig) : Meanwhile m rig rig
  | move {rig mid : Rig} (move : Move) : Meanwhile m rig mid →
      (m.deed mid move).IsCommit = false → Meanwhile m rig (m.take mid move)
  | status {rig mid : Rig} : Meanwhile m rig mid → Meanwhile m rig (m.status.run mid).2

/-- A request comes to a transition from some resources to a target. -/
def ChangesOver {α : Type} (p : Procedure (Except ManagerError α)) (rig : Rig)
    (resources : NameSet) (target : Option Configuration) (strictness : Strictness) : Prop :=
  ∃ result final made, p.run rig = (some result, final) ∧
    final.registry.calls = rig.registry.calls ++ made ∧
    Differs resources target strictness rig.registry.loaded (result.map fun _ => ()) made

/-! ## The copy -/

theorem active_take (m : Manager) (calm : rig.armed = ∅) (move : Move)
    (uncommitted : (m.deed rig move).IsCommit = false) :
    (m.take rig move).memory.active = rig.memory.active := by
  by_cases hforeign : move.IsForeign
  · rw [(memory_foreign hforeign).1]
  · have hdoes := m.does_take calm move hforeign
    generalize m.deed rig move = deed, m.take rig move = after at hdoes uncommitted
    cases hdoes with
    | looks halike => rw [halike.memory]
    | renews hread halike => rw [halike.memory]
    | refuses halike => rw [halike.memory]
    | fails htransits => rw [(htransits.unwritten calm).1.1]
    | starts htransits => cases uncommitted
    | stops htransits => cases uncommitted

theorem run_status_alike (m : Manager) (rig : Rig) : rig.Alike (m.status.run rig).2 := by
  have hrun : m.status.run rig = (some _, rig.entered) := run_withLock rfl
  rw [hrun]
  exact rig.alike_entered

/-- **Nothing but a commit changes what is active.** -/
theorem Meanwhile.active (h : m.Meanwhile rig after) (calm : rig.armed = ∅) :
    after.memory.active = rig.memory.active ∧ after.armed = ∅ := by
  induction h with
  | refl => exact ⟨rfl, calm⟩
  | move move _ uncommitted ih =>
    obtain ⟨hactive, hcalm⟩ := ih
    exact ⟨(m.active_take hcalm move uncommitted).trans hactive, m.calm_take hcalm move⟩
  | @status mid _ ih =>
    obtain ⟨hactive, hcalm⟩ := ih
    have halike := m.run_status_alike mid
    exact ⟨(congrArg ManagerState.active halike.memory).trans hactive, halike.calm hcalm⟩

/-- A start that is taken note of makes a copy of what the catalog has. -/
theorem active_of_started (m : Manager) (calm : rig.armed = ∅) {name : String}
    {strictness : Strictness} {skipped : List String}
    (h : m.deed rig (.start name strictness) = .started skipped) :
    ∃ d, rig.memory.catalog.find? name = some d ∧
      (m.take rig (.start name strictness)).memory.active = some d := by
  obtain ⟨result, after, hrun, hstarts⟩ := m.run_start calm name strictness
  simp only [deed, take, hrun, Option.elim_some] at h ⊢
  cases hstarts with
  | active hactive =>
    rw [decide_eq_true hactive] at h
    cases h
  | unknown => cases h
  | @transits target outcome _ hactive hfind htransits =>
    cases outcome with
    | error e => cases h
    | ok record =>
      obtain ⟨t, hmemory⟩ := (htransits.noted calm).memory
      refine ⟨target, hfind, ?_⟩
      rw [hmemory]
      rfl

/-! ## The next transition -/

theorem Transits.differs {target : Option Configuration} {strictness : Strictness}
    {outcome : Except ManagerError TransitionRecord}
    (h : m.Transits rig target strictness outcome after) :
    ∃ made, after.registry.calls = rig.registry.calls ++ made ∧
      Differs (Configuration.resourcesOf rig.memory.active) target strictness rig.registry.loaded
        (outcome.map fun _ => ()) made := by
  cases h with
  | failed hbefore hrun hafter =>
    obtain ⟨made, hcalls, hdiffers⟩ := run_differs hrun
    rw [hbefore.registry] at hcalls hdiffers
    rw [← hafter.registry] at hcalls
    exact ⟨made, hcalls, hdiffers⟩
  | @settled begin mid _ record hbefore hrun hafter =>
    obtain ⟨made, hcalls, hdiffers⟩ := run_differs hrun
    rw [hbefore.registry] at hcalls hdiffers
    -- taking note asks nothing of the registry
    have hregistry : after.registry = mid.registry := hafter.registry
    rw [← hregistry] at hcalls
    exact ⟨made, hcalls, hdiffers⟩

theorem Transits.changesOver {α : Type} {p : Procedure (Except ManagerError α)}
    {f : TransitionRecord → α} {d : Configuration} {target : Option Configuration}
    {strictness : Strictness} {outcome : Except ManagerError TransitionRecord}
    (h : m.Transits rig target strictness outcome after) (active : rig.memory.active = some d)
    (hrun : p.run rig = (some (outcome.map f), after)) :
    ChangesOver p rig d.resources target strictness := by
  obtain ⟨made, hcalls, hdiffers⟩ := h.differs
  rw [active] at hdiffers
  refine ⟨outcome.map f, after, made, hrun, hcalls, ?_⟩
  cases outcome <;> exact hdiffers

/-- **The active configuration is the one that was activated, until something is taken note of.** A
start is taken note of at some point of a run, and then there are only moves that are not, and looks
at the status; whatever is stored and read meanwhile, and whatever is asked for in vain. Then what
is active is the definition that the catalog had at the start. A stop, a check that finds one of its
resources faulty and a start of another name that the catalog has by now all come to a transition
from the resources of that definition. -/
theorem frozen_of_run (m : Manager) (rig made : Rig) (earlier : List Move) (name : String)
    (strictness : Strictness) (calm : rig.armed = ∅) (madeOn : m.MadeOn rig made) :
    let before := m.takeAll made earlier
    ∀ skipped after, m.deed before (.start name strictness) = .started skipped →
      m.Meanwhile (m.take before (.start name strictness)) after →
      ∃ d, before.memory.catalog.find? name = some d ∧ after.memory.active = some d ∧
        (∀ strictness, ChangesOver (m.stop strictness) after d.resources none strictness) ∧
        (∀ resource ∈ d.resources, after.registry.Faulty resource →
          ChangesOver m.checkHealth after d.resources none .bestEffort) ∧
        ∀ other target strictness, other ≠ name →
          after.memory.catalog.find? other = some target →
          ChangesOver (m.start other strictness) after d.resources (some target) strictness := by
  intro before skipped after hstarted hmeanwhile
  obtain ⟨-, -, -, -, hmade⟩ := madeOn.fresh calm
  have hbefore : before.armed = ∅ := m.calm_takeAll hmade earlier
  obtain ⟨d, hfind, hactive⟩ := m.active_of_started hbefore hstarted
  obtain ⟨hsame, hcalm⟩ := hmeanwhile.active (m.calm_take hbefore _)
  rw [hactive] at hsame
  -- the copy has the name that it was found under
  obtain ⟨hname, -⟩ := tagged_takeAll madeOn.tagged earlier name d hfind
  refine ⟨d, hfind, hsame, fun strictness => ?_, fun resource hmem hfaulty => ?_,
    fun other target strictness hother hknown => ?_⟩
  · obtain ⟨outcome, final, hrun, htransits⟩ := run_stop (m := m) hcalm strictness
    exact htransits.changesOver hsame hrun
  · obtain ⟨result, final, hrun, hchecks⟩ := m.run_checkHealth hcalm
    cases hchecks with
    | healthy hsound => exact absurd hfaulty (hsound d hsame resource hmem)
    | stops _ _ _ htransits => exact htransits.changesOver hsame hrun
  · obtain ⟨result, final, hrun, hstarts⟩ := m.run_start hcalm other strictness
    cases hstarts with
    | active hother' =>
      rw [ManagerState.activeName, hsame] at hother'
      exact absurd ((Option.some.inj hother').symm.trans hname) hother
    | unknown _ hnone =>
      rw [hknown] at hnone
      cases hnone
    | transits _ hfound htransits =>
      rw [hknown] at hfound
      cases hfound
      exact htransits.changesOver hsame hrun

/-- By now handling is done by the belt, and the arm feeds. -/
def armsExchanged : Rig :=
  let moved := Manager.usual.take .handling (.access (.insert "control_configurations"
    (.array [.definition "handling" [("belt", "run")],
      .definition "feeding" [("arm", "grip"), ("gate", "lift")]])))
  (Manager.usual.status.run (Manager.usual.take moved .list)).2

theorem frozen_of_run_arms_exchanged :
    (∃ final, (Manager.usual.stop .strict).run armsExchanged = (some (.ok ()), final) ∧
      final.registry.calls = armsExchanged.registry.calls ++
        [.listLoaded, .stopControllers ["arm"], .unload ["arm"]]) ∧
    ∃ skipped final,
      (Manager.usual.start "feeding" .strict).run armsExchanged = (some (.ok skipped), final) ∧
      final.registry.calls = armsExchanged.registry.calls ++
        [.listLoaded, .load "gate", .startControllers ["arm", "gate"] "feeding" .strict] := by
  obtain ⟨skipped, handling, hhandling⟩ : (Manager.usual.start "handling" .strict).Succeeds
      (Manager.usual.made .workshop) := by
    decide +kernel
  have hstarted : Manager.usual.deed (Manager.usual.made .workshop) (.start "handling" .strict) =
      .started skipped := by
    have hidle : (Manager.usual.made .workshop).memory.activeName ≠ some "handling" := by
      decide +kernel
    rw [deed, hhandling, decide_eq_false hidle]
    rfl
  have hmeanwhile : Manager.usual.Meanwhile .handling armsExchanged :=
    .status (.move _ (.move _ (.refl _) rfl) (by decide +kernel))
  obtain ⟨d, hfind, -, hstop, -, hstart⟩ := frozen_of_run .usual .workshop
    (Manager.usual.made .workshop) [] "handling" .strict rfl (madeOn_made (by decide +kernel))
    skipped armsExchanged hstarted hmeanwhile
  have hd : d.resources = .ofList ["arm"] := by
    have hresources : ((Manager.usual.made .workshop).memory.catalog.find? "handling").map
        (·.resources) = some (.ofList ["arm"]) := by
      decide +kernel
    rw [show (Manager.usual.made .workshop).memory.catalog.find? "handling" = some d from hfind]
      at hresources
    exact Option.some.inj hresources
  rw [hd] at hstop hstart
  refine ⟨?_, ?_⟩
  · obtain ⟨result, final, made, hrun, hcalls, hdiffers⟩ := hstop .strict
    obtain ⟨_, _, hresult⟩ : (Manager.usual.stop .strict).Succeeds armsExchanged := by
      decide +kernel
    rw [hrun] at hresult
    cases hresult
    refine ⟨final, hrun, ?_⟩
    rw [hcalls, hdiffers.exactly rfl (by decide +kernel)]
    decide +kernel
  · have hsome : (armsExchanged.memory.catalog.find? "feeding").map (fun c =>
        (c.resources, c.name)) = some (.ofList ["arm", "gate"], "feeding") := by
      decide +kernel
    obtain ⟨target, hknown, hparts⟩ := Option.map_eq_some_iff.1 hsome
    obtain ⟨hresources, hname⟩ := Prod.mk.inj hparts
    obtain ⟨result, final, made, hrun, hcalls, hdiffers⟩ :=
      hstart "feeding" target .strict (by decide) hknown
    obtain ⟨skipped, _, hresult⟩ : (Manager.usual.start "feeding" .strict).Succeeds
        armsExchanged := by
      decide +kernel
    rw [hrun] at hresult
    cases hresult
    refine ⟨skipped, final, hrun, ?_⟩
    rw [hcalls, hdiffers.exactly rfl (by decide +kernel), starting, Option.elim_some, hname,
      Configuration.resourcesOf, Option.elim_some, hresources]
    decide +kernel

end Manager

end ControlRig
