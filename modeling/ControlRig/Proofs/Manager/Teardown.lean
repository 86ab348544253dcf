import ControlRig.Proofs.Manager.Status
import ControlRig.Proofs.Rig.Leisure

/-!
# The manager goes

**However long it takes, a manager that goes publishes that nothing is active, and leaves nothing
loaded in a registry that lists and unloads** (`ensures_drop`). Whether stopping the controllers
works makes no difference. A call that is drawn out is one that began later (`ensures_call_run`), so
what is known of calls is known of it too.
-/

namespace ControlRig

/-- A registry that answers within a limit, and neither listing nor unloading is made to fail. -/
structure SimRegistry.LetsGo (r : SimRegistry) (limit : Duration) : Prop where
  intime : ¬ limit < r.latency
  lists : r.faults.list = false
  unloads : r.faults.unload = false

namespace Rig

/-- What a manager that goes leaves alone until it publishes. -/
structure Keeps (rig after : Rig) : Prop where
  params : after.params = rig.params
  armed : after.armed = rig.armed
  faults : after.registry.faults = rig.registry.faults
  latency : after.registry.latency = rig.registry.latency

theorem Keeps.trans {a b c : Rig} (hab : a.Keeps b) (hbc : b.Keeps c) : a.Keeps c where
  params := hbc.params.trans hab.params
  armed := hbc.armed.trans hab.armed
  faults := hbc.faults.trans hab.faults
  latency := hbc.latency.trans hab.latency

theorem Lingers.keeps {rig after : Rig} (h : rig.Lingers after) : rig.Keeps after where
  params := h.params
  armed := h.armed
  faults := congrArg SimRegistry.faults h.registry
  latency := congrArg SimRegistry.latency h.registry

theorem Keeps.letsGo {rig after : Rig} {limit : Duration} (h : rig.Keeps after) :
    after.registry.LetsGo limit ↔ rig.registry.LetsGo limit := by
  constructor
  · rintro ⟨hintime, hlists, hunloads⟩
    rw [h.faults] at hlists hunloads
    rw [h.latency] at hintime
    exact ⟨hintime, hlists, hunloads⟩
  · rintro ⟨hintime, hlists, hunloads⟩
    rw [← h.faults] at hlists hunloads
    rw [← h.latency] at hintime
    exact ⟨hintime, hlists, hunloads⟩

/-- What a teardown comes to. -/
def Emptied (limit : Duration) (rig after : Rig) : Prop :=
  rig.Keeps after ∧ (after.registry.LetsGo limit → after.registry.loaded = ∅)

end Rig

namespace Procedure

variable {rig : Rig}

/-- A call that is drawn out is one that began later. -/
theorem ensures_call_run (operation : Operation) (limit : Duration) :
    (call operation limit).Ensures (fun answer after => rig.Keeps after ∧
      ∃ now, answer = (rig.registry.run now limit operation).answer ∧
        after.registry = (rig.registry.run now limit operation).registry) rig := by
  refine .call fun begun hbegun ended hended hdue => ensures_done fun after hafter => ?_
  -- it ends when it is due or later; a call in time would have begun a wait before that end
  let wait := rig.registry.wait limit
  let began : Instant := ⟨ended.clock.nanos - wait.nanos⟩
  have hclock : ended.clock = began.after wait := by
    have hlater : begun.clock.nanos + (begun.registry.wait limit).nanos ≤ ended.clock.nanos := hdue
    rw [hbegun.registry] at hlater
    show ended.clock = ⟨ended.clock.nanos - wait.nanos + wait.nanos⟩
    rw [Nat.sub_add_cancel (Nat.le_trans (Nat.le_add_left _ _) hlater)]
  have hentered : ended.registry = rig.registry.enter operation := by
    rw [hended.registry, ← hbegun.registry]
    rfl
  have hperform : ended.registry.perform ended.clock limit operation =
      (rig.registry.enter operation).perform (began.after wait) limit operation := by
    rw [hclock, hentered]
  have hregistry : after.registry = (rig.registry.run began limit operation).registry := by
    rw [hafter.registry]
    exact congrArg (fun p => p.registry.leave) hperform
  refine ⟨⟨?_, ?_, ?_, ?_⟩, began, congrArg (·.answer) hperform, hregistry⟩
  · exact hafter.params.trans (hended.params.trans hbegun.params)
  · exact hafter.armed.trans (hended.armed.trans hbegun.armed)
  · rw [hregistry, SimRegistry.run_faults]
  · rw [hregistry, SimRegistry.run_latency]

end Procedure

namespace Manager

open Procedure

variable {rig : Rig}

/-- Unloading everything leaves nothing. -/
theorem loaded_run_unload {r : SimRegistry} {limit : Duration} (h : r.LetsGo limit) (now : Instant)
    {names : List String} (all : ∀ resource ∈ r.loaded, resource ∈ names) :
    (r.run now limit (.unload names)).registry.loaded = ∅ := by
  refine NameSet.ext_mem fun resource => iff_of_false ?_ (NameSet.not_mem_empty resource)
  rw [SimRegistry.not_mem_loaded_iff, (SimRegistry.run_unload now h.intime names).2, h.unloads,
    if_neg Bool.false_ne_true, SortedMap.find?_foldl_erase]
  split
  · rfl
  · rename_i hnot
    exact SimRegistry.not_mem_loaded_iff.1 fun hmem => hnot (all resource hmem)

/-- The last call of a teardown. -/
theorem ensures_unload {mid : Rig} {limit : Duration} {names : List String}
    (before : rig.Keeps mid) (all : ∀ resource ∈ mid.registry.loaded, resource ∈ names) :
    (call (.unload names) limit >>= fun
        | .error e => .done (.error (.resourceUnload e))
        | .ok _ => .done (.ok names)).Ensures
      (fun (_ : Except ManagerError (List String)) after => rig.Emptied limit after) mid := by
  refine (ensures_call_run _ _).bind fun answer unloaded ⟨hkeeps, now, _, hregistry⟩ => ?_
  have hlast : ∀ after, unloaded.Lingers after → rig.Emptied limit after := by
    intro after hafter
    have hsince := hkeeps.trans hafter.keeps
    refine ⟨before.trans hsince, fun lets => ?_⟩
    rw [hafter.registry, hregistry]
    exact loaded_run_unload (hsince.letsGo.1 lets) now all
  cases answer <;> exact ensures_done hlast

/-- A teardown that can list and unload leaves nothing, even if it cannot stop the controllers. -/
theorem ensures_teardown (calm : rig.armed = ∅) (limit : Duration) :
    (Transition.teardown limit).Ensures (fun _ after => rig.Emptied limit after) rig := by
  refine (ensures_call_run _ _).bind fun answer listed ⟨hlisted, now, hanswer, hregistry⟩ => ?_
  have hheld : listed.registry.held = rig.registry.held := by
    rw [hregistry, SimRegistry.run_listLoaded_held]
  cases answer with
  | error e =>
    refine ensures_done fun after hafter => ⟨hlisted.trans hafter.keeps, fun lets => ?_⟩
    obtain ⟨hintime, hlists, -⟩ := (hlisted.trans hafter.keeps).letsGo.1 lets
    rw [SimRegistry.run_listLoaded now hintime, hlists] at hanswer
    cases hanswer
  | ok names =>
    obtain ⟨hnames, -⟩ := SimRegistry.run_listLoaded_ok hanswer.symm
    have hall : ∀ resource ∈ listed.registry.loaded, resource ∈ names := by
      rw [hnames, ← hheld]
      exact fun resource h => h
    cases names with
    | nil =>
      refine ensures_done fun after hafter => ⟨hlisted.trans hafter.keeps, fun _ => ?_⟩
      rw [hafter.registry]
      exact NameSet.ext_mem fun resource => iff_of_false
        (fun h => absurd (hall resource h) List.not_mem_nil) (NameSet.not_mem_empty resource)
    | cons first rest =>
      refine (ensures_log (hlisted.armed.trans calm) _ _).bind fun _ told htold => ?_
      refine (ensures_call_run _ _).bind fun stopped quiet ⟨hquiet, now', _, hregistry'⟩ => ?_
      have hkeeps := (hlisted.trans htold.keeps).trans hquiet
      have hloaded : quiet.registry.loaded = listed.registry.loaded := by
        rw [hregistry', SimRegistry.run_stopControllers_loaded, htold.registry]
      rw [← hloaded] at hall
      -- whether or not the controllers were stopped, the resources are unloaded
      cases stopped with
      | error e =>
        refine (ensures_log (hkeeps.armed.trans calm) _ _).bind fun _ mid hmid => ?_
        rw [← hmid.registry] at hall
        exact ensures_unload (hkeeps.trans hmid.keeps) hall
      | ok _ => exact ensures_unload hkeeps hall

/-- The text that a manager publishes when it goes. -/
theorem ensures_farewell (m : Manager) {mid : Rig} (calm : rig.armed = ∅)
    (emptied : rig.Emptied m.settings.teardownTimeout mid) :
    (publish m.settings.statusKey (ManagerState.statusText none)).Ensures (fun _ after =>
      (rig.params.Writable m.settings.statusKey →
        after.params.text? m.settings.statusKey = some "none") ∧
      (after.registry.LetsGo m.settings.teardownTimeout → after.registry.loaded = ∅)) mid := by
  obtain ⟨hkeeps, hgone⟩ := emptied
  refine ensures_of _ trivial (hkeeps.armed.trans calm) fun begun hbegun after hafter => ⟨?_, ?_⟩
  · intro writable
    rw [← (hkeeps.trans hbegun.keeps).params] at writable
    rw [hafter.params]
    exact (writable.publish _).1
  · rw [hafter.registry]
    show begun.registry.LetsGo _ → begun.registry.loaded = ∅
    rw [hbegun.registry]
    exact hgone

/-- **However long it takes**, a manager that goes publishes that nothing is active, and leaves
nothing loaded if the registry lets it. -/
theorem ensures_drop (m : Manager) (calm : rig.armed = ∅) : m.drop.Ensures (fun _ after =>
    (rig.params.Writable m.settings.statusKey →
      after.params.text? m.settings.statusKey = some "none") ∧
    (after.registry.LetsGo m.settings.teardownTimeout → after.registry.loaded = ∅)) rig := by
  refine (ensures_teardown calm _).bind fun result mid hmid => ?_
  have hsay : ∀ level message, ((of (.log level message)).Ensures
      (fun _ after => rig.Emptied m.settings.teardownTimeout after) mid) := by
    intro level message
    refine (ensures_log (hmid.1.armed.trans calm) level message).mono fun _ told htold => ?_
    refine ⟨hmid.1.trans htold.keeps, ?_⟩
    rw [htold.registry]
    exact hmid.2
  rcases result with e | names
  · exact (hsay _ _).bind fun _ _ => m.ensures_farewell calm
  · cases names with
    | nil => exact m.ensures_farewell calm hmid
    | cons first rest => exact (hsay _ _).bind fun _ _ => m.ensures_farewell calm

end Manager

end ControlRig
