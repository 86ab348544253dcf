import ControlRig.Proofs.Manager.Operations

/-!
# Managers over time

A manager is made on a rig (`Manager.MadeOn`), and then things happen, one after the other:
requests, phases of the monitor, and what others do to the registry, the parameters and the clock in
between (`Move`). What a move has done for the manager is its `Deed`; **the deeds are read off the
results that callers see**, and `Manager.does_take` says what a deed means for the manager's memory,
for the parameters and for the registry.

Invariants of all that can come about are proved move by move (`Manager.Throughout.preserves`).
Others may do whatever the statement at hand allows them (`Manager.Throughout`), but the memory is
the manager's own.
-/

namespace ControlRig

/-- Something that happens around a manager. -/
inductive Move where
  | start (name : String) (strictness : Strictness)
  | stop (strictness : Strictness)
  | list
  | refresh
  | checkHealth
  | monitor (phase : MonitorPhase)
  /-- The registry becomes another one, behind the manager's back. -/
  | registry (changed : SimRegistry)
  /-- Somebody else accesses the parameters. -/
  | access (access : Param.Access)
  | elapse (d : Duration)
  | exit (cue : ExitCue)

def Move.IsForeign : Move → Prop
  | .registry _ => True
  | .access _ => True
  | .elapse _ => True
  | .exit _ => True
  | _ => False

/-- What a move has done for the manager. -/
inductive Deed where
  /-- Nothing that was taken note of. -/
  | nothing
  | failed (e : ManagerError)
  /-- A configuration has been started, without the controllers that were skipped. -/
  | started (skipped : List String)
  | stopped

namespace Deed

def ofStart (already : Bool) : Except ManagerError (List String) → Deed
  | .ok skipped => if already then .nothing else .started skipped
  | .error e => .failed e

def ofStop : Except ManagerError Unit → Deed
  | .ok () => .stopped
  | .error e => .failed e

def ofCheck : Except ManagerError Bool → Deed
  | .ok true => .stopped
  | .ok false => .nothing
  | .error e => .failed e

def ofRefresh {α : Type} : Except ManagerError α → Deed
  | .ok _ => .nothing
  | .error e => .failed e

/-- A transition has been taken note of. -/
def IsCommit : Deed → Bool
  | .started _ => true
  | .stopped => true
  | .nothing => false
  | .failed _ => false

end Deed

namespace Manager

open Procedure

variable (m : Manager)

/-- What a phase of the monitor has done. A pass does what its check does, if there is one. -/
def monitorDeed (rig : Rig) : MonitorPhase → Deed
  | .starting => .nothing
  | .passing loop =>
    if rig.exitRequested then .nothing
    else if m.CheckDue loop then
      (m.checkHealth.run (rig.elapse Rig.lookTime)).1.elim .nothing Deed.ofCheck
    else .nothing
  | .ending => (m.monitorEnd.run rig).1.elim .nothing Deed.ofStop
  | .over _ => .nothing

/-- What a move has done, as its result says. -/
def deed (rig : Rig) : Move → Deed
  | .start name strictness => ((m.start name strictness).run rig).1.elim .nothing
      (Deed.ofStart (rig.memory.activeName = some name))
  | .stop strictness => ((m.stop strictness).run rig).1.elim .nothing Deed.ofStop
  | .list => (m.list.run rig).1.elim .nothing Deed.ofRefresh
  | .refresh => (m.refresh.run rig).1.elim .nothing Deed.ofRefresh
  | .checkHealth => (m.checkHealth.run rig).1.elim .nothing Deed.ofCheck
  | .monitor phase => m.monitorDeed rig phase
  | _ => .nothing

def take (rig : Rig) : Move → Rig
  | .start name strictness => ((m.start name strictness).run rig).2
  | .stop strictness => ((m.stop strictness).run rig).2
  | .list => (m.list.run rig).2
  | .refresh => (m.refresh.run rig).2
  | .checkHealth => (m.checkHealth.run rig).2
  | .monitor phase => ((m.monitorStep phase).run rig).2
  | .registry changed => { rig with registry := changed }
  | .access access => { rig with params := (access.perform rig.params).2.1 }
  | .elapse d => rig.elapse d
  | .exit cue => { rig with exit := cue }

def takeAll (rig : Rig) (moves : List Move) : Rig := moves.foldl m.take rig

def deeds : Rig → List Move → List Deed
  | _, [] => []
  | rig, move :: rest => m.deed rig move :: deeds (m.take rig move) rest

/-- Every move is allowed on the rig that it finds. -/
def Throughout (allowed : Rig → Move → Prop) : Rig → List Move → Prop
  | _, [] => True
  | rig, move :: rest => allowed rig move ∧ Throughout allowed (m.take rig move) rest

/-- A manager has been made on a rig. -/
def MadeOn (rig made : Rig) : Prop :=
  ∃ state after, m.make.run rig = (some (.ok state), after) ∧ made = { after with memory := state }

/-! ## What a deed means -/

/-- **What a deed means for the rig.** -/
inductive Does (rig : Rig) : Deed → Rig → Prop
  | looks {after : Rig} : rig.Alike after → Does rig .nothing after
  | renews {catalog : Catalog} {after : Rig} :
      m.reading rig.params rig.memory.activeName = .ok catalog →
      Rig.Alike { rig with memory := { rig.memory with catalog := catalog } } after →
      Does rig .nothing after
  | refuses {e : ManagerError} {after : Rig} : rig.Alike after → Does rig (.failed e) after
  | fails {target : Option Configuration} {strictness : Strictness} {e : ManagerError}
      {after : Rig} : m.Transits rig target strictness (.error e) after → Does rig (.failed e) after
  | starts {target : Configuration} {strictness : Strictness} {record : TransitionRecord}
      {after : Rig} : m.Transits rig (some target) strictness (.ok record) after →
      Does rig (.started record.skippedControllers) after
  | stops {strictness : Strictness} {record : TransitionRecord} {after : Rig} :
      m.Transits rig none strictness (.ok record) after → Does rig .stopped after

variable {m} {rig after : Rig}

theorem Starts.does {name : String} {strictness : Strictness}
    {result : Except ManagerError (List String)} (h : m.Starts rig name strictness result after) :
    m.Does rig (.ofStart (rig.memory.activeName = some name) result) after := by
  cases h with
  | active hactive halike =>
    rw [decide_eq_true hactive]
    exact .looks halike
  | unknown hactive hfind halike => exact .refuses halike
  | @transits target outcome after hactive hfind htransits =>
    rw [decide_eq_false hactive]
    cases outcome with
    | error e => exact .fails htransits
    | ok record => exact .starts htransits

theorem Transits.does_stop {strictness : Strictness}
    {outcome : Except ManagerError TransitionRecord}
    (h : m.Transits rig none strictness outcome after) :
    m.Does rig (.ofStop (outcome.map fun _ => ())) after := by
  cases outcome with
  | error e => exact .fails h
  | ok record => exact .stops h

theorem Refreshes.does {α : Type} {result : Except ManagerError Catalog} {f : Catalog → α}
    (h : m.Refreshes rig result after) : m.Does rig (.ofRefresh (result.map f)) after := by
  cases h with
  | refused hread halike => exact .refuses halike
  | renewed hread halike => exact .renews hread halike

theorem Checks.does {result : Except ManagerError Bool} (h : m.Checks rig result after) :
    m.Does rig (.ofCheck result) after := by
  cases h with
  | healthy hsound halike => exact .looks halike
  | @stops active resource outcome after hactive hmem hfaulty htransits =>
    cases outcome with
    | error e => exact .fails htransits
    | ok record => exact .stops htransits

theorem Monitors.does {phase next : MonitorPhase}
    (run : (m.monitorStep phase).run rig = (some next, after))
    (h : m.Monitors rig phase next after) : m.Does rig (m.monitorDeed rig phase) after := by
  cases h with
  | begun htick halike => exact .looks halike
  | ends hexit halike =>
    rw [monitorDeed, if_pos hexit]
    exact .looks halike
  | passes hexit hdue htick halike =>
    rw [monitorDeed, hexit, if_neg Bool.false_ne_true, if_neg hdue]
    exact .looks halike
  | checks hexit hdue htick hresult hchecks =>
    rw [monitorDeed, hexit, if_neg Bool.false_ne_true, if_pos hdue, hresult]
    exact hchecks.does
  | fails hexit hdue hresult hchecks =>
    rw [monitorDeed, hexit, if_neg Bool.false_ne_true, if_pos hdue, hresult]
    exact hchecks.does
  | @stops outcome after htransits =>
    obtain ⟨result, mid, hend, hdone⟩ := run_bind_some.1 run
    cases hdone
    rw [monitorDeed, hend]
    exact htransits.does_stop
  | rests => exact .looks (.refl rig)

/-- **A move that is the manager's does what its result says.** -/
theorem does_take (m : Manager) (calm : rig.armed = ∅) (move : Move) (own : ¬ move.IsForeign) :
    m.Does rig (m.deed rig move) (m.take rig move) := by
  cases move with
  | start name strictness =>
    obtain ⟨result, after, hrun, hstarts⟩ := m.run_start calm name strictness
    simp only [deed, take, hrun]
    exact hstarts.does
  | stop strictness =>
    obtain ⟨outcome, after, hrun, htransits⟩ := run_stop (m := m) calm strictness
    simp only [deed, take, hrun]
    exact htransits.does_stop
  | list =>
    obtain ⟨result, after, hrun, hrefreshes⟩ := m.run_list calm
    simp only [deed, take, hrun]
    exact hrefreshes.does
  | refresh =>
    obtain ⟨result, after, hrun, hrefreshes⟩ := m.run_refresh calm
    simp only [deed, take, hrun]
    exact hrefreshes.does
  | checkHealth =>
    obtain ⟨result, after, hrun, hchecks⟩ := m.run_checkHealth calm
    simp only [deed, take, hrun]
    exact hchecks.does
  | monitor phase =>
    obtain ⟨next, after, hrun, hmonitors⟩ := m.run_monitorStep calm phase
    simp only [deed, take, hrun]
    exact hmonitors.does hrun
  | registry changed => exact absurd trivial own
  | access access => exact absurd trivial own
  | elapse d => exact absurd trivial own
  | exit cue => exact absurd trivial own

theorem deed_foreign {move : Move} (foreign : move.IsForeign) : m.deed rig move = .nothing := by
  cases move with
  | registry changed => rfl
  | access access => rfl
  | elapse d => rfl
  | exit cue => rfl
  | _ => exact absurd foreign id

theorem memory_foreign {move : Move} (foreign : move.IsForeign) :
    (m.take rig move).memory = rig.memory ∧ (m.take rig move).armed = rig.armed := by
  cases move with
  | registry changed => exact ⟨rfl, rfl⟩
  | access access => exact ⟨rfl, rfl⟩
  | elapse d => exact ⟨rfl, rfl⟩
  | exit cue => exact ⟨rfl, rfl⟩
  | _ => exact absurd foreign id

theorem Does.calm {deed : Deed} (h : m.Does rig deed after) (calm : rig.armed = ∅) :
    after.armed = ∅ := by
  cases h with
  | looks halike => exact halike.calm calm
  | renews hread halike => exact halike.calm calm
  | refuses halike => exact halike.calm calm
  | fails htransits => exact (htransits.unwritten calm).2
  | starts htransits => exact (htransits.noted calm).calm
  | stops htransits => exact (htransits.noted calm).calm

/-- Nobody is to crash later who is not to crash now. -/
theorem calm_take (m : Manager) (calm : rig.armed = ∅) (move : Move) :
    (m.take rig move).armed = ∅ := by
  by_cases hforeign : move.IsForeign
  · exact (memory_foreign hforeign).2.trans calm
  · exact (m.does_take calm move hforeign).calm calm

theorem calm_takeAll (m : Manager) (calm : rig.armed = ∅) (moves : List Move) :
    (m.takeAll rig moves).armed = ∅ := by
  induction moves generalizing rig with
  | nil => exact calm
  | cons move rest ih => exact ih (m.calm_take calm move)

/-! ## Runs -/

/-- What every allowed move preserves is there at the end of a run. -/
theorem Throughout.preserves {allowed : Rig → Move → Prop} {I : Rig → Prop}
    (step : ∀ rig move, I rig → allowed rig move → I (m.take rig move)) {moves : List Move}
    (h : m.Throughout allowed rig moves) (start : I rig) : I (m.takeAll rig moves) := by
  induction moves generalizing rig with
  | nil => exact start
  | cons move rest ih => exact ih h.2 (step rig move start h.1)

theorem throughout_of_forall {allowed : Move → Prop} {moves : List Move}
    (h : ∀ move ∈ moves, allowed move) (rig : Rig) :
    m.Throughout (fun _ => allowed) rig moves := by
  induction moves generalizing rig with
  | nil => trivial
  | cons move rest ih =>
    exact ⟨h move List.mem_cons_self,
      ih (fun other ho => h other (List.mem_cons_of_mem _ ho)) _⟩

/-- The manager counts what it has taken note of. -/
theorem transitions_take (m : Manager) (calm : rig.armed = ∅) (move : Move) :
    (m.take rig move).memory.transitions =
      rig.memory.transitions + if (m.deed rig move).IsCommit then 1 else 0 := by
  by_cases hforeign : move.IsForeign
  · rw [deed_foreign hforeign, (memory_foreign hforeign).1]
    rfl
  · have hdoes := m.does_take calm move hforeign
    generalize m.deed rig move = deed, m.take rig move = after at hdoes
    cases hdoes with
    | looks halike => rw [halike.memory]; rfl
    | renews hread halike => rw [halike.memory]; rfl
    | refuses halike => rw [halike.memory]; rfl
    | fails htransits => rw [(htransits.unwritten calm).1.1]; rfl
    | starts htransits =>
      obtain ⟨t, hmemory⟩ := (htransits.noted calm).memory
      rw [hmemory]
      rfl
    | stops htransits =>
      obtain ⟨t, hmemory⟩ := (htransits.noted calm).memory
      rw [hmemory]
      rfl

/-- **The counter of transitions is the number of commits among the deeds.** -/
theorem transitions_takeAll (m : Manager) (calm : rig.armed = ∅) (moves : List Move) :
    (m.takeAll rig moves).memory.transitions =
      rig.memory.transitions + (m.deeds rig moves).countP Deed.IsCommit := by
  induction moves generalizing rig with
  | nil => rfl
  | cons move rest ih =>
    show (m.takeAll (m.take rig move) rest).memory.transitions = _
    rw [ih (m.calm_take calm move), m.transitions_take calm move, deeds, List.countP_cons]
    omega

/-! ## The beginning -/

theorem MadeOn.read {made : Rig} (h : m.MadeOn rig made) :
    ∃ catalog mid, (readCatalog m.settings none).run rig = (some (.ok catalog), mid) ∧
      made.memory = .fresh catalog := by
  obtain ⟨state, after, hrun, rfl⟩ := h
  unfold make at hrun
  cases hchecked : m.settings.checked with
  | error e =>
    rw [hchecked] at hrun
    cases hrun
  | ok settings =>
    rw [hchecked] at hrun
    obtain ⟨read, mid, hread, hrest⟩ := run_bind_some.1 hrun
    cases read with
    | error e => cases hrest
    | ok catalog =>
      -- what is logged and published is nothing to the memory
      obtain ⟨_, noted, -, hlast⟩ := run_bind_some.1 hrest
      obtain ⟨_, published, -, hdone⟩ := run_bind_some.1 hlast
      cases hdone
      exact ⟨catalog, mid, hread, rfl⟩

/-- A manager that has been made remembers a catalog and nothing else, and has published so. -/
theorem MadeOn.fresh {made : Rig} (h : m.MadeOn rig made) (calm : rig.armed = ∅) :
    m.settings.problem = none ∧ (∃ catalog, made.memory = .fresh catalog) ∧
      made.params = (rig.params.publish m.settings.statusKey (ManagerState.statusText none)).1 ∧
      made.registry = rig.registry ∧ made.armed = ∅ := by
  obtain ⟨state, after, hrun, rfl⟩ := h
  unfold make Settings.checked at hrun
  cases hproblem : m.settings.problem with
  | some problem =>
    rw [hproblem] at hrun
    cases hrun
  | none =>
    rw [hproblem] at hrun
    obtain ⟨read, mid, hread, hrest⟩ := run_bind_some.1 hrun
    obtain ⟨mid', hread', halike⟩ := m.run_readCatalog calm none
    rw [hread] at hread'
    cases hread'
    cases hcatalog : m.reading rig.params none with
    | error e =>
      rw [hcatalog] at hrest
      cases hrest
    | ok catalog =>
      rw [hcatalog] at hrest
      obtain ⟨_, noted, hinform, hlast⟩ := run_bind_some.1 hrest
      cases hinform
      obtain ⟨_, published, hpublish, hdone⟩ := run_bind_some.1 hlast
      cases hdone
      have hnoted := halike.trans (mid.alike_note .info ("loaded " ++ Text.decimal catalog.size ++
        " configurations from '" ++ m.settings.catalogKey ++ "' (registry: " ++ m.registry ++ ")"))
      have hanswer := run_of_calm (hnoted.calm calm)
        (.publish m.settings.statusKey (ManagerState.statusText none))
      cases hpublish.symm.trans hanswer
      refine ⟨rfl, ⟨catalog, rfl⟩, ?_, hnoted.registry, hnoted.armed.trans calm⟩
      rw [← hnoted.params]
      rfl

/-- The rig after a manager has been made on it, or has failed to be made. -/
def made (m : Manager) (rig : Rig) : Rig :=
  match m.make.run rig with
  | (some (.ok state), after) => { after with memory := state }
  | (_, after) => after

theorem madeOn_made (h : m.make.Succeeds rig) : m.MadeOn rig (m.made rig) := by
  obtain ⟨state, after, hrun⟩ := h
  refine ⟨state, after, hrun, ?_⟩
  unfold made
  rw [hrun]

end Manager

/-! ## A manager to try things with -/

/-- What defines a configuration, by the controllers with the resources that they run on. -/
def Value.definition (name : String) (controllers : List (String × String)) : Value :=
  .table [("components", .array (controllers.map fun (resource, id) =>
    .table [("controller", .string id), ("hardware_interface", .string resource)])),
    ("name", .string name)]

/-- An arm that handles or welds, and a belt and a gate that feed it. -/
def Rig.workshop : Rig :=
  .fresh (.fresh .zero .zero)
    ⟨[("arm", .table [("grip", .table []), ("torch", .table [])]),
      ("belt", .table [("run", .table [])]),
      ("control_configurations", .array [.definition "feeding" [("belt", "run"), ("gate", "lift")],
        .definition "handling" [("arm", "grip")], .definition "welding" [("arm", "torch")]]),
      ("gate", .table [("lift", .table [])])]⟩

/-- A manager as it is configured unless told otherwise. -/
def Manager.usual : Manager := ⟨.standard, SimRegistry.name⟩

/-- Handling has been started. -/
def Rig.handling : Rig :=
  Manager.usual.take (Manager.usual.made .workshop) (.start "handling" .strict)

end ControlRig
