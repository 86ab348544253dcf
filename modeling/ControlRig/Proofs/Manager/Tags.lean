import ControlRig.Proofs.Manager.Run
import ControlRig.Proofs.Rig.Memory

/-!
# The tags of the catalog

Every configuration of the catalog is found under its own name, and it is tagged as running exactly
if the active configuration has that name (`Catalog.Tagged`). Three operations write the catalog: a
commit tags it anew, and reading it again, for a refresh or for a listing, replaces it, with the
active name redefined or gone. **Every memory that is written is tagged**, so the memory is at every
point of every run (`tags_of_run`).

Nothing is assumed of the collaborators. A crash comes before something is written or after it, and
what the next request finds behind the lock is a memory that was written.
-/

namespace ControlRig

namespace Catalog

def Named (catalog : Catalog) : Prop :=
  ∀ name c, catalog.find? name = some c → c.name = name

/-- Every configuration has its name, and the tag that is due while the given one is active. -/
def Tagged (active : Option String) (catalog : Catalog) : Prop :=
  ∀ name c, catalog.find? name = some c → c.name = name ∧ c.state = stateOf active name

theorem Tagged.named {active : Option String} {catalog : Catalog} (h : catalog.Tagged active) :
    catalog.Named :=
  fun name c hfind => (h name c hfind).1

/-- However things were tagged before, they are right afterwards. -/
theorem Named.markActive {catalog : Catalog} (h : catalog.Named) (active : Option String) :
    (catalog.markActive active).Tagged active := by
  intro name c hfind
  rw [find?_markActive] at hfind
  obtain ⟨before, hbefore, rfl⟩ := Option.map_eq_some_iff.1 hfind
  exact ⟨h name before hbefore, rfl⟩

theorem Named.insert {configurations : SortedMap Configuration} (h : Named ⟨configurations⟩)
    (c : Configuration) : Named ⟨configurations.insert c.name c⟩ := by
  intro name other hfind
  unfold find? at hfind
  by_cases hname : c.name = name
  · subst hname
    rw [SortedMap.find?_insert_self] at hfind
    cases hfind
    rfl
  · rw [SortedMap.find?_insert_of_ne _ hname] at hfind
    exact h name other hfind

theorem named_checkAll {known configurations : SortedMap Configuration}
    {definitions : List Definition} (h : Named ⟨known⟩)
    (checked : Definition.checkAll known definitions = .ok configurations) :
    Named ⟨configurations⟩ := by
  induction definitions generalizing known with
  | nil =>
    cases checked
    exact h
  | cons d rest ih =>
    unfold Definition.checkAll at checked
    cases hd : d.configuration with
    | error e =>
      rw [hd] at checked
      cases checked
    | ok c =>
      rw [hd] at checked
      dsimp only at checked
      split at checked
      · cases checked
      · exact ih (h.insert c) checked

theorem tagged_of_read {source : Value} {active : Option String} {catalog : Catalog}
    (h : Catalog.read source active = .ok catalog) : catalog.Tagged active := by
  unfold Catalog.read at h
  cases hread : Definition.readAll source with
  | error e =>
    rw [hread] at h
    cases h
  | ok configurations =>
    rw [hread] at h
    cases h
    refine Named.markActive ?_ active
    unfold Definition.readAll at hread
    split at hread
    · cases hread
    · refine named_checkAll ?_ hread
      intro name c hfind
      cases hfind

theorem Tagged.atMostOne {active : Option String} {catalog : Catalog} (h : catalog.Tagged active) :
    (catalog.toList.filter (·.state = .running)).length ≤ 1 := by
  let running : String × Configuration → Bool := fun e => decide (e.2.state = .running)
  have hkey : ∀ e ∈ catalog.configurations.entries.filter running, some e.1 = active := by
    intro e he
    obtain ⟨hmem, hrunning⟩ := List.mem_filter.1 he
    have hstate := (h e.1 e.2 (SortedMap.find?_eq_some_iff.2 hmem)).2
    rw [of_decide_eq_true hrunning, stateOf] at hstate
    split at hstate
    · assumption
    · cases hstate
  have hincreasing : Entries.Increasing (catalog.configurations.entries.filter running) :=
    List.Pairwise.filter _ catalog.configurations.increasing
  have hlength : (catalog.toList.filter (·.state = .running)).length =
      (catalog.configurations.entries.filter running).length := by
    unfold toList SortedMap.values
    rw [List.filter_map, List.length_map]
    rfl
  rw [hlength]
  generalize catalog.configurations.entries.filter running = entries at hkey hincreasing
  match entries with
  | [] => exact Nat.zero_le 1
  | [_] => exact Nat.le_refl 1
  | first :: second :: rest =>
    -- both have the active name as their key, but keys increase
    have hsame : some first.1 = some second.1 := (hkey first List.mem_cons_self).trans
      (hkey second (List.mem_cons_of_mem _ List.mem_cons_self)).symm
    have hlt := (List.pairwise_cons.1 hincreasing).1 second List.mem_cons_self
    rw [Option.some.inj hsame] at hlt
    exact absurd hlt (String.lt_irrefl _)

end Catalog

/-- The catalog of a memory is tagged by its active configuration. -/
def ManagerState.Tagged (state : ManagerState) : Prop := state.catalog.Tagged state.activeName

theorem ManagerState.Tagged.commit {state : ManagerState} (h : state.Tagged)
    (active : Option Configuration) (now : Instant) : (state.commit active now).Tagged :=
  h.named.markActive _

namespace Manager

open Procedure

variable {m : Manager}

/-! ## What each operation writes -/

theorem tagged_of_run_readCatalog {settings : Settings} {active : Option String} {rig after : Rig}
    {catalog : Catalog}
    (h : (readCatalog settings active).run rig = (some (.ok catalog), after)) :
    catalog.Tagged active := by
  obtain ⟨found, mid, -, hrest⟩ := run_bind_some.1 h
  cases found with
  | none =>
    obtain ⟨_, noted, -, hdone⟩ := run_bind_some.1 hrest
    cases hdone
  | some source =>
    dsimp only at hrest
    cases hread : Catalog.read source active with
    | error e =>
      rw [hread] at hrest
      obtain ⟨_, noted, -, hdone⟩ := run_bind_some.1 hrest
      cases hdone
    | ok found =>
      rw [hread] at hrest
      cases hrest
      exact Catalog.tagged_of_read hread

theorem maintains_commit {state : ManagerState} (h : state.Tagged)
    (active : Option Configuration) : (m.commit state active).Maintains ManagerState.Tagged :=
  .bind (maintains_of nofun) fun _ now _ _ =>
    .bind (maintains_save (h.commit active now)) fun _ _ _ _ => maintains_of nofun

theorem maintains_startLocked (number : Nat) (name : String) (strictness : Strictness)
    {state : ManagerState} (h : state.Tagged) :
    (m.startLocked number name strictness state).Maintains ManagerState.Tagged := by
  unfold startLocked
  split
  · exact .bind (maintains_of nofun) fun _ _ _ _ => maintains_done _
  · split
    · exact maintains_done _
    · refine .bind (maintains_of nofun) fun _ _ _ _ =>
        .bind (Transition.run_composed _ _ _ _ _).maintains fun _ outcome _ _ => ?_
      cases outcome with
      | error e => exact .bind (maintains_of nofun) fun _ _ _ _ => maintains_done _
      | ok record =>
        refine .bind (maintains_commit h _) fun _ _ _ _ => ?_
        dsimp only
        split <;> exact .bind (maintains_of nofun) fun _ _ _ _ => maintains_done _

theorem maintains_stopLocked (strictness : Strictness) {state : ManagerState} (h : state.Tagged) :
    (m.stopLocked strictness state).Maintains ManagerState.Tagged := by
  refine .bind (maintains_of nofun) fun _ _ _ _ =>
    .bind (Transition.run_composed _ _ _ _ _).maintains fun _ outcome _ _ => ?_
  cases outcome with
  | error e => exact .bind (maintains_of nofun) fun _ _ _ _ => maintains_done _
  | ok record => exact .bind (maintains_commit h none) fun _ _ _ _ => maintains_done _

theorem maintains_refreshLocked (state : ManagerState) :
    (m.refreshLocked state).Maintains ManagerState.Tagged := by
  refine .bind (readCatalog_composed _ _).spares.maintains fun rig read after hread => ?_
  cases read with
  | error e => exact maintains_done _
  | ok catalog =>
    have htagged : ManagerState.Tagged { state with catalog := catalog } :=
      tagged_of_run_readCatalog hread
    exact .bind (maintains_save htagged) fun _ _ _ _ => maintains_done _

theorem maintains_checkHealthLocked {state : ManagerState} (h : state.Tagged) :
    (m.checkHealthLocked state).Maintains ManagerState.Tagged := by
  unfold checkHealthLocked
  split
  · exact maintains_done _
  · refine .bind (faults_composed _).spares.maintains fun _ found _ _ => ?_
    split
    · exact maintains_done _
    · refine .bind (reportFaults_composed _ _).spares.maintains fun _ _ _ _ =>
        .bind (maintains_of nofun) fun _ _ _ _ =>
        .bind (maintains_stopLocked .bestEffort h) fun _ outcome _ _ => ?_
      cases outcome <;> exact maintains_done _

theorem maintains_start (name : String) (strictness : Strictness) :
    (m.start name strictness).Maintains ManagerState.Tagged :=
  .bind (maintains_of nofun) fun _ number _ _ =>
    .withLock fun _ h => maintains_startLocked number name strictness h

theorem maintains_stop (strictness : Strictness) :
    (m.stop strictness).Maintains ManagerState.Tagged :=
  .withLock fun _ h => maintains_stopLocked strictness h

theorem maintains_refresh : m.refresh.Maintains ManagerState.Tagged := by
  refine .withLock fun state _ => .bind (maintains_refreshLocked state) fun _ result _ _ => ?_
  cases result with
  | error e => exact maintains_done _
  | ok catalog => exact .bind (maintains_of nofun) fun _ _ _ _ => maintains_done _

theorem maintains_list : m.list.Maintains ManagerState.Tagged := by
  refine .withLock fun state _ => .bind (maintains_refreshLocked state) fun _ result _ _ => ?_
  cases result <;> exact maintains_done _

theorem maintains_checkHealth : m.checkHealth.Maintains ManagerState.Tagged :=
  .withLock fun _ h => maintains_checkHealthLocked h

/-! ## The monitor -/

theorem maintains_monitorWait {I : ManagerState → Prop} (loop : MonitorLoop) :
    (monitorWait loop).Maintains I := by
  intro rig h
  obtain ⟨next, after, hrun, -, halike⟩ := run_monitorWait loop rig
  rw [hrun, halike.memory]
  exact h

theorem maintains_concludePass {I : ManagerState → Prop} (loop : MonitorLoop)
    (result : Except ManagerError Bool) : (m.concludePass loop result).Maintains I := by
  intro rig h
  obtain ⟨next, after, hrun, halike, -⟩ := m.run_concludePass loop result rig
  rw [hrun, halike.memory]
  exact h

theorem maintains_monitorPass (loop : MonitorLoop) :
    (m.monitorPass loop).Maintains ManagerState.Tagged := by
  by_cases hdue : m.CheckDue loop
  · rw [m.monitorPass_of_due hdue]
    refine .bind (maintains_of nofun) fun _ ends _ _ => ?_
    split
    · exact maintains_done _
    · exact .bind maintains_checkHealth fun _ result _ _ => maintains_concludePass _ result
  · rw [m.monitorPass_of_not_due hdue]
    refine .bind (maintains_of nofun) fun _ ends _ _ => ?_
    split
    · exact maintains_done _
    · exact maintains_monitorWait _

theorem maintains_monitorStep (phase : MonitorPhase) :
    (m.monitorStep phase).Maintains ManagerState.Tagged := by
  match phase with
  | .starting =>
    exact .bind (.bind (maintains_of nofun) fun _ _ _ _ =>
      .bind (maintains_of nofun) fun _ _ _ _ => maintains_done _) fun _ _ _ _ => maintains_done _
  | .passing loop => exact maintains_monitorPass loop
  | .ending =>
    exact .bind (.bind (maintains_of nofun) fun _ _ _ _ => maintains_stop .bestEffort)
      fun _ _ _ _ => maintains_done _
  | .over outcome => exact maintains_done _

/-! ## Every run -/

theorem tagged_take {rig : Rig} (h : rig.memory.Tagged) (move : Move) :
    (m.take rig move).memory.Tagged := by
  cases move with
  | start name strictness => exact maintains_start name strictness rig h
  | stop strictness => exact maintains_stop strictness rig h
  | list => exact maintains_list rig h
  | refresh => exact maintains_refresh rig h
  | checkHealth => exact maintains_checkHealth rig h
  | monitor phase => exact maintains_monitorStep phase rig h
  | registry changed => exact h
  | access use => exact h
  | elapse d => exact h
  | exit cue => exact h

theorem MadeOn.tagged {rig made : Rig} (h : m.MadeOn rig made) : made.memory.Tagged := by
  obtain ⟨catalog, mid, hread, hmemory⟩ := h.read
  rw [hmemory]
  exact tagged_of_run_readCatalog hread

theorem tagged_takeAll {rig : Rig} (h : rig.memory.Tagged) (moves : List Move) :
    (m.takeAll rig moves).memory.Tagged := by
  induction moves generalizing rig with
  | nil => exact h
  | cons move rest ih => exact ih (tagged_take h move)

/-- **The catalog tells what runs, at every point of every run.** Whatever the requests, whatever
others do to the definitions, the registry and the clock in between, and whoever crashes: each
configuration of the catalog is found under its own name, and is tagged as running exactly if that
is the active name. So no two are, and none is while nothing is active, or while the active name is
not in the catalog any more. -/
theorem tags_of_run (m : Manager) (rig made : Rig) (moves : List Move)
    (madeOn : m.MadeOn rig made) :
    let memory := (m.takeAll made moves).memory
    (∀ e ∈ memory.catalog.configurations.entries, e.2.name = e.1 ∧
      (e.2.state = .running ↔ memory.activeName = some e.2.name)) ∧
    (memory.catalog.toList.filter (·.state = .running)).length ≤ 1 ∧
    (memory.active = none → ∀ c ∈ memory.catalog.toList, c.state = .idle) ∧
    ∀ c, memory.active = some c → memory.catalog.find? c.name = none →
      ∀ other ∈ memory.catalog.toList, other.state = .idle := by
  intro memory
  have htagged : memory.Tagged := tagged_takeAll madeOn.tagged moves
  have hentry : ∀ e ∈ memory.catalog.configurations.entries, e.2.name = e.1 ∧
      e.2.state = Catalog.stateOf memory.activeName e.1 :=
    fun e he => htagged e.1 e.2 (SortedMap.find?_eq_some_iff.2 he)
  -- what is not the active name is idle
  have hidle : ∀ e ∈ memory.catalog.configurations.entries, some e.1 ≠ memory.activeName →
      e.2.state = .idle := by
    intro e he hne
    rw [(hentry e he).2, Catalog.stateOf, if_neg hne]
  refine ⟨fun e he => ⟨(hentry e he).1, ?_⟩, htagged.atMostOne, ?_, ?_⟩
  · rw [(hentry e he).1, (hentry e he).2, Catalog.stateOf]
    split
    · rename_i hactive
      exact iff_of_true rfl hactive.symm
    · rename_i hactive
      exact iff_of_false nofun (Ne.symm hactive)
  · intro hnone c hc
    obtain ⟨e, he, rfl⟩ := List.mem_map.1 hc
    refine hidle e he ?_
    rw [ManagerState.activeName, hnone]
    nofun
  · intro c hactive hgone other hother
    obtain ⟨e, he, rfl⟩ := List.mem_map.1 hother
    refine hidle e he ?_
    rw [ManagerState.activeName, hactive]
    intro hsame
    have hname : e.1 = c.name := Option.some.inj hsame
    rw [← hname, Catalog.find?, SortedMap.find?_eq_some_iff.2 he] at hgone
    cases hgone

/-- While handling goes on, welding is all that is left of the definitions. -/
def handlingForgotten : List Move :=
  [.start "handling" .strict,
    .access (.insert "control_configurations" (.array [.definition "welding" [("arm", "torch")]])),
    .refresh]

theorem tags_of_run_handling_forgotten :
    let memory := (Manager.usual.takeAll (Manager.usual.made .workshop) handlingForgotten).memory
    memory.activeName = some "handling" ∧ memory.catalog.configurations.keys = ["welding"] ∧
      ∀ c ∈ memory.catalog.toList, c.state = .idle := by
  obtain ⟨-, -, -, hgone⟩ := tags_of_run .usual .workshop (Manager.usual.made .workshop)
    handlingForgotten (madeOn_made (by decide +kernel))
  obtain ⟨c, hactive, hname, hfind⟩ : ∃ c ∈ (Manager.usual.takeAll (Manager.usual.made .workshop)
      handlingForgotten).memory.active, c.name = "handling" ∧
      (Manager.usual.takeAll (Manager.usual.made .workshop) handlingForgotten).memory.catalog.find?
        c.name = none := by
    decide +kernel
  refine ⟨?_, by decide +kernel, hgone c hactive hfind⟩
  rw [ManagerState.activeName, hactive, Option.map_some, hname]

end Manager

end ControlRig
