import ControlRig.Proofs.Manager.Soundness
import ControlRig.Proofs.Manager.Status

/-!
# The source of the catalog

A manager reads its definitions and publishes its status in one and the same tree. Settings are
checked key by key, and so nothing is said of how the two keys lie to each other. **A manager leaves
its definitions alone exactly if the path of the status key is neither that of the catalog key nor
leads to it** (`definitions_kept_iff`). Where it does, the first text that is published takes the
place of the definitions, and they can never be read again.

A status key that goes on below the catalog key is harmless: definitions are a list, and a tree
refuses what leads through anything but tables.

All that is known of an operation is that it publishes at the status key alone
(`Manager.PublishesStatus`), so a crash anywhere in it makes no difference.
-/

namespace ControlRig

/-! ## What can be read as a catalog -/

namespace Catalog

theorem array_of_read {source : Value} {active : Option String} {catalog : Catalog}
    (h : read source active = .ok catalog) : ∃ items, source = .array items := by
  cases source with
  | array items => exact ⟨items, rfl⟩
  | _ => cases h

/-- Whether definitions can be read does not depend on what is active. -/
theorem read_of_read {source : Value} {active : Option String} {catalog : Catalog}
    (h : read source active = .ok catalog) (active' : Option String) :
    ∃ catalog', read source active' = .ok catalog' := by
  unfold read at h ⊢
  cases hread : Definition.readAll source with
  | error e =>
    rw [hread] at h
    cases h
  | ok configurations => exact ⟨_, rfl⟩

end Catalog

namespace Procedure

variable {α : Type} {allowed : Action → Prop}

theorem asks_withLock {step : ManagerState → Procedure α} (lock : allowed .lock)
    (unlock : ∀ crashed, allowed (.unlock crashed))
    (log : ∀ level message, allowed (.log level message))
    (h : ∀ state, (step state).Asks allowed) : (Procedure.withLock step).Asks allowed := by
  rw [withLock_eq]
  refine asks_bind (asks_of lock) fun locked => asks_bind ?_ fun _ => ?_
  · split
    · exact asks_of (log _ _)
    · trivial
  · refine asks_bind (asks_attempt (h locked.state)) fun result => ?_
    cases result with
    | none => exact asks_bind (asks_of (unlock true)) fun _ => trivial
    | some a => exact asks_bind (asks_of (unlock false)) fun _ => trivial

end Procedure

namespace Manager

open Procedure

variable {m : Manager} {rig made after : Rig}

/-! ## What an operation publishes -/

variable (m) in
/-- A procedure publishes nothing but a status, crashes included. -/
abbrev PublishesStatus {α : Type} (p : Procedure α) : Prop :=
  p.Asks (Action.WritesAt m.settings.statusKey)

theorem publishesStatus_of_composed {α : Type} {p : Procedure α} (h : p.Composed Action.Spares) :
    m.PublishesStatus p :=
  (h.mono fun _ spares => spares.writesAt _).asks

theorem publishesStatus_of {action : Action} (h : action.Spares) : m.PublishesStatus (of action) :=
  asks_of (h.writesAt _)

theorem publishesStatus_withLock {α : Type} {step : ManagerState → Procedure α}
    (h : ∀ state, m.PublishesStatus (step state)) : m.PublishesStatus (Procedure.withLock step) :=
  asks_withLock trivial (fun _ => trivial) (fun _ _ => trivial) h

variable (m)

theorem publishesStatus_save (state : ManagerState) : m.PublishesStatus (save state) :=
  asks_of trivial

theorem publishesStatus_publish (text : String) :
    m.PublishesStatus (publish m.settings.statusKey text) :=
  asks_of rfl

theorem publishesStatus_commit (state : ManagerState) (active : Option Configuration) :
    m.PublishesStatus (m.commit state active) :=
  asks_bind (publishesStatus_of trivial) fun _ =>
    asks_bind (m.publishesStatus_save _) fun _ => m.publishesStatus_publish _

theorem publishesStatus_transition (active target : Option Configuration)
    (strictness : Strictness) :
    m.PublishesStatus (Transition.run m.settings.transitionOptions active target strictness
      m.settings.requestTimeout) :=
  publishesStatus_of_composed (Transition.run_composed _ target strictness _ active)

theorem publishesStatus_startLocked (number : Nat) (name : String) (strictness : Strictness)
    (state : ManagerState) : m.PublishesStatus (m.startLocked number name strictness state) := by
  unfold startLocked
  split
  · exact asks_bind (publishesStatus_of trivial) fun _ => trivial
  · split
    · trivial
    · rename_i target _
      refine asks_bind (publishesStatus_of trivial) fun _ =>
        asks_bind (m.publishesStatus_transition _ (some target) _) fun outcome => ?_
      cases outcome with
      | error e => exact asks_bind (publishesStatus_of trivial) fun _ => trivial
      | ok record =>
        refine asks_bind (m.publishesStatus_commit _ _) fun _ => ?_
        dsimp only
        split <;> exact asks_bind (publishesStatus_of trivial) fun _ => trivial

theorem publishesStatus_stopLocked (strictness : Strictness) (state : ManagerState) :
    m.PublishesStatus (m.stopLocked strictness state) := by
  refine asks_bind (publishesStatus_of trivial) fun _ =>
    asks_bind (m.publishesStatus_transition _ none _) fun outcome => ?_
  cases outcome with
  | error e => exact asks_bind (publishesStatus_of trivial) fun _ => trivial
  | ok record => exact asks_bind (m.publishesStatus_commit _ _) fun _ => trivial

theorem publishesStatus_refreshLocked (state : ManagerState) :
    m.PublishesStatus (m.refreshLocked state) := by
  refine asks_bind (publishesStatus_of_composed (readCatalog_composed _ _).spares) fun read => ?_
  cases read with
  | error e => trivial
  | ok catalog => exact asks_bind (m.publishesStatus_save _) fun _ => trivial

theorem publishesStatus_checkHealthLocked (state : ManagerState) :
    m.PublishesStatus (m.checkHealthLocked state) := by
  unfold checkHealthLocked
  split
  · trivial
  · rename_i active _
    refine asks_bind (publishesStatus_of_composed (faults_composed _).spares) fun found => ?_
    cases found with
    | nil => trivial
    | cons first rest =>
      refine asks_bind (publishesStatus_of_composed (reportFaults_composed _ _).spares) fun _ =>
        asks_bind (publishesStatus_of trivial) fun _ =>
          asks_bind (m.publishesStatus_stopLocked _ _) fun outcome => ?_
      cases outcome <;> trivial

theorem publishesStatus_start (name : String) (strictness : Strictness) :
    m.PublishesStatus (m.start name strictness) :=
  asks_bind (publishesStatus_of trivial) fun number =>
    publishesStatus_withLock (m.publishesStatus_startLocked number name strictness)

theorem publishesStatus_stop (strictness : Strictness) : m.PublishesStatus (m.stop strictness) :=
  publishesStatus_withLock (m.publishesStatus_stopLocked strictness)

theorem publishesStatus_refresh : m.PublishesStatus m.refresh :=
  publishesStatus_withLock fun state =>
    asks_bind (m.publishesStatus_refreshLocked state) fun outcome => by
      cases outcome with
      | error e => trivial
      | ok catalog => exact asks_bind (publishesStatus_of trivial) fun _ => trivial

theorem publishesStatus_list : m.PublishesStatus m.list :=
  publishesStatus_withLock fun state =>
    asks_bind (m.publishesStatus_refreshLocked state) fun outcome => by cases outcome <;> trivial

theorem publishesStatus_activeName : m.PublishesStatus m.activeName :=
  publishesStatus_withLock fun _ => trivial

theorem publishesStatus_checkHealth : m.PublishesStatus m.checkHealth :=
  publishesStatus_withLock m.publishesStatus_checkHealthLocked

theorem publishesStatus_monitorCheck (loop : MonitorLoop) :
    m.PublishesStatus (m.monitorCheck loop) := by
  unfold monitorCheck
  split
  · trivial
  · refine asks_bind m.publishesStatus_checkHealth fun checked => ?_
    rcases checked with e | _ | _
    · trivial
    · refine asks_bind (publishesStatus_of trivial) fun moment => ?_
      dsimp only
      split
      · exact asks_bind m.publishesStatus_activeName fun _ =>
          asks_bind (publishesStatus_of trivial) fun _ => trivial
      · trivial
    · trivial

theorem publishesStatus_monitorStep (phase : MonitorPhase) :
    m.PublishesStatus (m.monitorStep phase) := by
  cases phase with
  | starting =>
    exact asks_bind (asks_bind (publishesStatus_of trivial) fun _ =>
      asks_bind (publishesStatus_of trivial) fun _ => trivial) fun _ => trivial
  | passing loop =>
    refine asks_bind (publishesStatus_of trivial) fun exit => ?_
    split
    · trivial
    · refine asks_bind (m.publishesStatus_monitorCheck _) fun checked => ?_
      cases checked with
      | error e => trivial
      | ok loop =>
        refine asks_bind (publishesStatus_of trivial) fun moment => ?_
        dsimp only
        split
        · exact asks_bind (publishesStatus_of trivial) fun _ => trivial
        · trivial
  | ending =>
    exact asks_bind (asks_bind (publishesStatus_of trivial) fun _ => m.publishesStatus_stop _)
      fun _ => trivial
  | _ outcome => trivial

theorem publishesStatus_drop : m.PublishesStatus m.drop := by
  refine asks_bind (publishesStatus_of_composed (teardown_composed _)) fun result => ?_
  rcases result with e | names
  · exact asks_bind (publishesStatus_of trivial) fun _ => m.publishesStatus_publish _
  · cases names with
    | nil => exact m.publishesStatus_publish _
    | cons first rest =>
      exact asks_bind (publishesStatus_of trivial) fun _ => m.publishesStatus_publish _

/-! ## What becomes of the definitions -/

/-- These are the definitions that the manager reads. -/
def Reads (rig : Rig) (definitions : Value) : Prop :=
  rig.params.get? m.settings.catalogKey = some definitions

variable {m}

/-- A list of definitions is spared by whatever publishes a status beside it or below it. -/
theorem Reads.run {α : Type} {p : Procedure α} (publishes : m.PublishesStatus p)
    (beside : ¬ Param.segments m.settings.statusKey <+: Param.segments m.settings.catalogKey)
    {items : List Value} (h : m.Reads rig (.array items)) :
    m.Reads (p.run rig).2 (.array items) := by
  have step : ∀ (rig : Rig) (action : Action), action.WritesAt m.settings.statusKey →
      m.Reads rig (.array items) → m.Reads (rig.answer action).2 (.array items) := by
    intro rig action allowed h
    rcases rig.answer_cases action with ⟨-, heq⟩ | ⟨-, heq⟩
    · rw [heq]
      unfold Rig.disarm
      split <;> exact h
    · rw [heq]
      cases action with
      | publish key text =>
        obtain rfl : key = m.settings.statusKey := allowed
        exact ParamTree.get?_publish_of_not_prefix h nofun text beside
      | readState resource =>
        show (rig.countRead.params.get? m.settings.catalogKey) = _
        unfold Rig.countRead
        split <;> exact h
      | _ => exact h
  exact Asks.preserves step publishes h

theorem Reads.take
    (beside : ¬ Param.segments m.settings.statusKey <+: Param.segments m.settings.catalogKey)
    {items : List Value} (h : m.Reads rig (.array items)) {move : Move}
    (spares : move.Spares m.settings.catalogKey) :
    m.Reads (m.take rig move) (.array items) := by
  cases move with
  | start name strictness => exact h.run (m.publishesStatus_start name strictness) beside
  | stop strictness => exact h.run (m.publishesStatus_stop strictness) beside
  | list => exact h.run m.publishesStatus_list beside
  | refresh => exact h.run m.publishesStatus_refresh beside
  | checkHealth => exact h.run m.publishesStatus_checkHealth beside
  | monitor phase => exact h.run (m.publishesStatus_monitorStep phase) beside
  | access use =>
    have hspares : use.Spares m.settings.catalogKey := spares
    exact (hspares.get? rig.params).trans h
  | registry changed => exact h
  | elapse d => exact h
  | exit cue => exact h

/-- Whoever reads the definitions again gets a catalog. -/
theorem Reads.reading {definitions : Value} (h : m.Reads rig definitions) {active : Option String}
    {catalog : Catalog} (readable : Catalog.read definitions active = .ok catalog)
    (active' : Option String) : ∃ catalog', m.reading rig.params active' = .ok catalog' := by
  obtain ⟨catalog', hread⟩ := Catalog.read_of_read readable active'
  refine ⟨catalog', ?_⟩
  unfold Manager.reading
  rw [h]
  exact hread

/-! ## The beginning -/

theorem source_of_readCatalog {active : Option String} {catalog : Catalog}
    (h : (readCatalog m.settings active).run rig = (some (.ok catalog), after)) :
    ∃ source, m.Reads rig source ∧ Catalog.read source active = .ok catalog ∧
      after.params = rig.params := by
  obtain ⟨found, mid, hfound, hrest⟩ := run_bind_some.1 h
  rw [definitions, run_of] at hfound
  rcases rig.answer_cases (.definitions m.settings.catalogKey) with ⟨-, heq⟩ | ⟨-, heq⟩
  · cases heq.symm.trans hfound
  · cases heq.symm.trans hfound
    cases hsource : rig.params.get? m.settings.catalogKey with
    | none =>
      simp only [Rig.respond, hsource] at hrest
      obtain ⟨_, _, -, hdone⟩ := run_bind_some.1 hrest
      cases hdone
    | some source =>
      simp only [Rig.respond, hsource] at hrest
      cases hread : Catalog.read source active with
      | error e =>
        rw [hread] at hrest
        obtain ⟨_, _, -, hdone⟩ := run_bind_some.1 hrest
        cases hdone
      | ok catalog =>
        rw [hread] at hrest
        cases hrest
        exact ⟨source, hsource, hread, rfl⟩

/-- A manager that has been made has read a list of definitions, and then published that nothing is
active. -/
theorem MadeOn.source (h : m.MadeOn rig made) :
    ∃ items catalog, m.Reads rig (.array items) ∧
      Catalog.read (.array items) none = .ok catalog ∧ m.settings.problem = none ∧
      made.params = (rig.params.publish m.settings.statusKey (ManagerState.statusText none)).1 := by
  obtain ⟨state, after, hrun, rfl⟩ := h
  unfold make Settings.checked at hrun
  cases hproblem : m.settings.problem with
  | some problem =>
    rw [hproblem] at hrun
    cases hrun
  | none =>
    rw [hproblem] at hrun
    obtain ⟨read, mid, hread, hrest⟩ := run_bind_some.1 hrun
    cases read with
    | error e => cases hrest
    | ok catalog =>
      obtain ⟨source, hsource, hcatalog, hparams⟩ := source_of_readCatalog hread
      obtain ⟨items, rfl⟩ := Catalog.array_of_read hcatalog
      obtain ⟨_, noted, hinform, hlast⟩ := run_bind_some.1 hrest
      cases hinform
      obtain ⟨_, published, hpublish, hdone⟩ := run_bind_some.1 hlast
      cases hdone
      refine ⟨items, catalog, hsource, hcatalog, rfl, ?_⟩
      rw [publish, run_of] at hpublish
      rw [← hparams]
      rcases Rig.answer_cases _ (.publish m.settings.statusKey (ManagerState.statusText none)) with
        ⟨-, heq⟩ | ⟨-, heq⟩
      · cases heq.symm.trans hpublish
      · cases heq.symm.trans hpublish
        rfl

/-! ## Every run -/

/-- **A manager never alters its own definitions, unless its status key is that of the catalog or
leads to it.** If it is not, the definitions are there at every point of every run, whoever crashes,
as long as nobody else writes there, and also when the manager has gone; where nobody is to crash,
they can be listed and read again. If it is, they are gone as soon as the manager has been made. -/
theorem definitions_kept_iff (m : Manager) (rig made : Rig) (madeOn : m.MadeOn rig made) :
    (∀ moves : List Move, (∀ move ∈ moves, move.Spares m.settings.catalogKey) →
      let after := m.takeAll made moves
      after.params.get? m.settings.catalogKey = rig.params.get? m.settings.catalogKey ∧
      (m.drop.run after).2.params.get? m.settings.catalogKey =
        rig.params.get? m.settings.catalogKey ∧
      (after.armed = ∅ → m.list.Succeeds after ∧ m.refresh.Succeeds after)) ↔
    ¬ Param.segments m.settings.statusKey <+: Param.segments m.settings.catalogKey := by
  obtain ⟨items, catalog, hsource, hreadable, hproblem, hparams⟩ := madeOn.source
  have husable : Param.segments m.settings.statusKey ≠ [] :=
    Param.segments_ne_nil (Settings.statusKey_usable hproblem)
  constructor
  · -- what the manager publishes at first takes the place of the definitions
    intro kept overlaps
    obtain ⟨hkept, -⟩ := kept [] nofun
    have hmade : made.params.get? m.settings.catalogKey = some (.array items) := hkept.trans hsource
    obtain ⟨rest, hrest⟩ := ParamTree.get?_publish_of_prefix hsource (ManagerState.statusText none)
      husable overlaps
    rw [hparams, hrest] at hmade
    cases rest with
    | nil => cases hmade
    | cons name path => cases hmade
  · intro beside moves spared after
    have hmade : m.Reads made (.array items) := by
      unfold Reads
      rw [hparams]
      exact ParamTree.get?_publish_of_not_prefix hsource nofun _ beside
    have step : ∀ (rig : Rig) (move : Move), m.Reads rig (.array items) →
        move.Spares m.settings.catalogKey → m.Reads (m.take rig move) (.array items) :=
      fun _ _ h spares => h.take beside spares
    have hafter : m.Reads after (.array items) :=
      (throughout_of_forall spared made).preserves step hmade
    refine ⟨hafter.trans hsource.symm,
      (hafter.run m.publishesStatus_drop beside).trans hsource.symm, fun calm => ?_⟩
    obtain ⟨found, hfound⟩ := hafter.reading hreadable after.memory.activeName
    have hrenewed : ∀ result final, m.Refreshes after result final → result = .ok found := by
      intro result final h
      cases h with
      | refused hread => cases hread.symm.trans hfound
      | renewed hread => rw [Except.ok.inj (hread.symm.trans hfound)]
    obtain ⟨listed, final, hlist, hlisted⟩ := m.run_list calm
    obtain ⟨refreshed, final', hrefresh, hrefreshed⟩ := m.run_refresh calm
    rw [hrenewed listed final hlisted] at hlist
    rw [hrenewed refreshed final' hrefreshed] at hrefresh
    exact ⟨⟨_, _, hlist⟩, ⟨_, _, hrefresh⟩⟩

/-- Handling is started at the second attempt, because the first load crashes, and stopped by a check
that finds the arm gone; meanwhile somebody uses other parameters. The definitions can still be
listed. -/
theorem definitions_kept_handling :
    let rig : Rig := { Rig.workshop with armed := NameSet.ofList ["load"] }
    let after := Manager.usual.takeAll (Manager.usual.made rig)
      [.start "handling" .strict, .start "handling" .strict, .access (.insert "shift" (.integer 2)),
        .registry (.fresh .zero .zero), .checkHealth]
    after.params.get? "control_configurations" = rig.params.get? "control_configurations" ∧
      Manager.usual.list.Succeeds after := by
  intro rig after
  have hkept := (definitions_kept_iff .usual rig (Manager.usual.made rig)
    (madeOn_made (by decide +kernel))).2 (by decide +kernel)
  obtain ⟨hsame, -, hlisted⟩ := hkept
    [.start "handling" .strict, .start "handling" .strict, .access (.insert "shift" (.integer 2)),
      .registry (.fresh .zero .zero), .checkHealth] (by decide +kernel)
  exact ⟨hsame, (hlisted (by decide +kernel)).1⟩

/-- A manager that is to publish its status where its definitions are. -/
def overlapping : Manager :=
  ⟨{ Settings.standard with statusKey := "/control_configurations/" }, SimRegistry.name⟩

/-- Its settings can be used, and it can be made. Then the definitions are gone, and so is the list.
-/
theorem definitions_are_lost :
    overlapping.settings.problem = none ∧
    overlapping.MadeOn .workshop (overlapping.made .workshop) ∧
    (overlapping.made .workshop).params.get? overlapping.settings.catalogKey ≠
      Rig.workshop.params.get? overlapping.settings.catalogKey ∧
    ¬ overlapping.list.Succeeds (overlapping.made .workshop) ∧
    ¬ overlapping.refresh.Succeeds (overlapping.made .workshop) := by
  have hmade : overlapping.MadeOn .workshop (overlapping.made .workshop) :=
    madeOn_made (by decide +kernel)
  refine ⟨by decide +kernel, hmade, fun hsame => ?_, by decide +kernel, by decide +kernel⟩
  have htext : ((overlapping.made .workshop).params.text? overlapping.settings.catalogKey) =
      some "none" := by
    decide +kernel
  have hlist : (Rig.workshop.params.text? overlapping.settings.catalogKey) = none := by
    decide +kernel
  unfold ParamTree.text? at htext hlist
  rw [hsame, hlist] at htext
  cases htext

end Manager

end ControlRig
