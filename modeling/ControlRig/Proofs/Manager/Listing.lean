import ControlRig.Proofs.Configuration.Definition
import ControlRig.Proofs.Manager.Tags
import ControlRig.Proofs.Transition.Aftermath

/-!
# What is listed, and what is known

The catalog is a copy of definitions that are kept elsewhere and change without notice. A listing
does not look at the copy: it reads the definitions again, so **its answer is a function of the
definitions and of the active name** (`Manager.ListsAnew`), and so is the catalog afterwards. A
request to start does look at the copy. Transitions tag the copy anew and failed readings leave it
alone, so that **the names that can be started are those of the last reading that succeeded**
(`Manager.Knows`), of which `Manager.lastRead` keeps account along a run.
-/

namespace ControlRig

/-- What a listing of definitions is, while the given name is active: one configuration for each
definition, by increasing names. -/
structure Catalog.Lists (active : Option String) (definitions : List Definition)
    (answer : List Configuration) : Prop where
  increasing : answer.Pairwise (·.name < ·.name)
  names : (answer.map (·.name)).Perm (definitions.map (·.name))
  defined : ∀ c ∈ answer, (∃ d ∈ definitions, d.Defines c) ∧ c.state = stateOf active c.name

namespace Catalog

variable {active : Option String} {source : Value} {definitions : List Definition}

/-- **A catalog that has been read lists what was read.** -/
theorem lists_of_read {catalog : Catalog} (h : Catalog.read source active = .ok catalog) :
    ∃ definitions, Decode.sequence (Definition.decode .counted) source.datum = .ok definitions ∧
      Definition.AllWellFormed definitions ∧
      catalog.configurations.keys.Perm (definitions.map (·.name)) ∧
      Lists active definitions catalog.toList := by
  have htagged := tagged_of_read h
  unfold Catalog.read Definition.readAll at h
  cases hdecode : Decode.sequence (Definition.decode .counted) source.datum with
  | error fault =>
    rw [hdecode] at h
    cases h
  | ok definitions =>
    rw [hdecode] at h
    dsimp only at h
    cases hcheck : Definition.checkAll ∅ definitions with
    | error e =>
      rw [hcheck] at h
      cases h
    | ok configurations =>
      rw [hcheck] at h
      cases h
      have hkeys : ((markActive ⟨configurations⟩ active).configurations.keys).Perm
          (definitions.map (·.name)) := by
        rw [markActive, SortedMap.keys_mapValues]
        exact Definition.perm_keys hcheck
      refine ⟨definitions, rfl, (Definition.exists_checkAll_iff.1 ⟨_, hcheck⟩).1, hkeys, ?_⟩
      have hentry : ∀ e ∈ (markActive ⟨configurations⟩ active).configurations.entries,
          e.2.name = e.1 ∧ e.2.state = stateOf active e.1 :=
        fun e he => htagged e.1 e.2 (SortedMap.find?_eq_some_iff.2 he)
      refine ⟨?_, ?_, fun c hc => ?_⟩
      · refine List.pairwise_map.2 ?_
        refine (markActive ⟨configurations⟩ active).configurations.increasing.imp_of_mem ?_
        intro a b ha hb hlt
        rw [(hentry a ha).1, (hentry b hb).1]
        exact hlt
      · have hnames : (markActive ⟨configurations⟩ active).toList.map (·.name) =
            (markActive ⟨configurations⟩ active).configurations.keys := by
          unfold toList SortedMap.values SortedMap.keys Entries.keys
          rw [List.map_map]
          exact List.map_congr_left fun e he => (hentry e he).1
        rw [hnames]
        exact hkeys
      · obtain ⟨e, he, rfl⟩ := List.mem_map.1 hc
        obtain ⟨hname, hstate⟩ := hentry e he
        refine ⟨?_, by rw [hname]; exact hstate⟩
        have hfind := SortedMap.find?_eq_some_iff.2 he
        rw [markActive, SortedMap.find?_mapValues] at hfind
        obtain ⟨before, hbefore, hafter⟩ := Option.map_eq_some_iff.1 hfind
        rcases (Definition.find?_checkAll hcheck e.1).1 before hbefore with hnone | ⟨d, hd, -, hd'⟩
        · cases hnone
        · rw [← hafter]
          exact ⟨d, hd, Definition.defines_of_configuration hd' _⟩

theorem exists_read {active : Option String}
    (decodes : Decode.sequence (Definition.decode .counted) source.datum = .ok definitions)
    (wellFormed : Definition.AllWellFormed definitions) :
    ∃ catalog, Catalog.read source active = .ok catalog := by
  obtain ⟨configurations, hcheck⟩ : ∃ configurations,
      Definition.checkAll ∅ definitions = .ok configurations :=
    Definition.exists_checkAll_iff.2 ⟨wellFormed, fun _ _ => rfl⟩
  refine ⟨markActive ⟨configurations⟩ active, ?_⟩
  unfold Catalog.read Definition.readAll
  rw [decodes]
  dsimp only
  rw [hcheck]

end Catalog

namespace Manager

open Procedure

variable {m : Manager} {rig after : Rig}

/-! ## Reading anew -/

/-- The definitions are there, and there is nothing wrong with them. -/
structure Stores (m : Manager) (params : ParamTree) (definitions : List Definition) : Prop where
  there : ∃ source, params.get? m.settings.catalogKey = some source ∧
    Decode.sequence (Definition.decode .counted) source.datum = .ok definitions
  wellFormed : Definition.AllWellFormed definitions

theorem Stores.unique {params : ParamTree} {definitions others : List Definition}
    (h : m.Stores params definitions) (h' : m.Stores params others) : definitions = others := by
  obtain ⟨source, hget, hdecode⟩ := h.there
  obtain ⟨source', hget', hdecode'⟩ := h'.there
  rw [hget] at hget'
  cases hget'
  rw [hdecode] at hdecode'
  exact Except.ok.inj hdecode'

theorem Stores.reading {params : ParamTree} {definitions : List Definition}
    (h : m.Stores params definitions) (active : Option String) :
    ∃ catalog, m.reading params active = .ok catalog := by
  obtain ⟨source, hget, hdecode⟩ := h.there
  unfold Manager.reading
  rw [hget]
  exact Catalog.exists_read hdecode h.wellFormed

theorem stores_of_reading {params : ParamTree} {active : Option String} {catalog : Catalog}
    (h : m.reading params active = .ok catalog) :
    ∃ definitions, m.Stores params definitions ∧
      catalog.configurations.keys.Perm (definitions.map (·.name)) ∧
      Catalog.Lists active definitions catalog.toList := by
  unfold Manager.reading at h
  cases hget : params.get? m.settings.catalogKey with
  | none =>
    rw [hget] at h
    cases h
  | some source =>
    rw [hget] at h
    obtain ⟨definitions, hdecode, hwell, hkeys, hlists⟩ := Catalog.lists_of_read h
    exact ⟨definitions, ⟨⟨source, hget, hdecode⟩, hwell⟩, hkeys, hlists⟩

theorem run_status (m : Manager) (rig : Rig) :
    m.status.run rig = (some
      { active := rig.memory.activeName
        transitions := rig.memory.transitions
        lastTransitionAt := rig.memory.lastTransitionAt
        configurations := rig.memory.catalog.size
        registry := m.registry }, rig.entered) :=
  run_withLock rfl

/-- What reading again makes of a rig, by what is stored there and nothing else. -/
theorem Refreshes.eq {result : Except ManagerError Catalog} (h : m.Refreshes rig result after) :
    result = (m.reading rig.params rig.memory.activeName).mapError .catalog ∧
      after.registry = rig.registry ∧
      ∀ catalog, result = .ok catalog → after.memory.catalog = catalog := by
  cases h with
  | refused hread halike =>
    rw [hread]
    exact ⟨rfl, halike.registry, nofun⟩
  | renewed hread halike =>
    rw [hread]
    refine ⟨rfl, halike.registry, fun catalog hok => ?_⟩
    cases hok
    rw [halike.memory]

/-- **Listings and refreshes read anew.** Both succeed exactly if the definitions are stored and
valid. Then the answer of the one, and the catalog after either, list them. -/
structure ListsAnew (m : Manager) (rig : Rig) : Prop where
  list_iff : m.list.Succeeds rig ↔ ∃ definitions, m.Stores rig.params definitions
  refresh_iff : m.refresh.Succeeds rig ↔ ∃ definitions, m.Stores rig.params definitions
  answers : ∀ definitions, m.Stores rig.params definitions → ∃ answer listed refreshed,
    m.list.run rig = (some (.ok answer), listed) ∧
    m.refresh.run rig = (some (.ok ()), refreshed) ∧
    Catalog.Lists rig.memory.activeName definitions answer ∧
    listed.memory.catalog.toList = answer ∧ refreshed.memory.catalog.toList = answer ∧
    ∀ after ∈ [listed, refreshed],
      (m.status.run after).1.map (·.configurations) = some definitions.length
  silent : (m.list.run rig).2.registry = rig.registry ∧
    (m.refresh.run rig).2.registry = rig.registry ∧ (m.status.run rig).2.registry = rig.registry

theorem size_of_lists {active : Option String} {definitions : List Definition} {catalog : Catalog}
    (h : Catalog.Lists active definitions catalog.toList) : catalog.size = definitions.length := by
  have hlength := h.names.length_eq
  rw [List.length_map, List.length_map] at hlength
  rw [← hlength]
  exact (List.length_map _).symm

theorem listsAnew (m : Manager) (calm : rig.armed = ∅) : m.ListsAnew rig := by
  obtain ⟨listing, listed, hlist, hlisted⟩ := m.run_list calm
  obtain ⟨renewal, refreshed, hrefresh, hrefreshed⟩ := m.run_refresh calm
  obtain ⟨hlisting, hlistedRegistry, hlistedCatalog⟩ := hlisted.eq
  obtain ⟨hrenewal, hrefreshedRegistry, hrefreshedCatalog⟩ := hrefreshed.eq
  have hsame : renewal = listing := hrenewal.trans hlisting.symm
  subst hsame
  have hiff : (∃ catalog, renewal = .ok catalog) ↔
      ∃ definitions, m.Stores rig.params definitions := by
    rw [hlisting]
    constructor
    · rintro ⟨catalog, hcatalog⟩
      cases hread : m.reading rig.params rig.memory.activeName with
      | error e =>
        rw [hread] at hcatalog
        cases hcatalog
      | ok found =>
        obtain ⟨definitions, hstores, -⟩ := stores_of_reading hread
        exact ⟨definitions, hstores⟩
    · rintro ⟨definitions, hstores⟩
      obtain ⟨catalog, hread⟩ := hstores.reading rig.memory.activeName
      exact ⟨catalog, by rw [hread]; rfl⟩
  refine ⟨?_, ?_, fun definitions hstores => ?_, ?_, ?_, ?_⟩
  · rw [← hiff]
    constructor
    · rintro ⟨answer, final, hrun⟩
      rw [hlist] at hrun
      cases renewal with
      | error e => cases hrun
      | ok catalog => exact ⟨catalog, rfl⟩
    · rintro ⟨catalog, rfl⟩
      exact ⟨_, _, hlist⟩
  · rw [← hiff]
    constructor
    · rintro ⟨answer, final, hrun⟩
      rw [hrefresh] at hrun
      cases renewal with
      | error e => cases hrun
      | ok catalog => exact ⟨catalog, rfl⟩
    · rintro ⟨catalog, rfl⟩
      exact ⟨_, _, hrefresh⟩
  · obtain ⟨catalog, hread⟩ := hstores.reading rig.memory.activeName
    obtain ⟨others, hothers, -, hlists⟩ := stores_of_reading hread
    cases hstores.unique hothers
    have hok : renewal = .ok catalog := by
      rw [hlisting, hread]
      rfl
    subst hok
    have h₁ := hlistedCatalog catalog rfl
    have h₂ := hrefreshedCatalog catalog rfl
    refine ⟨catalog.toList, listed, refreshed, hlist, hrefresh, hlists, by rw [h₁], by rw [h₂], ?_⟩
    intro final hfinal
    have hcatalog : final.memory.catalog = catalog := by
      simp only [List.mem_cons, List.not_mem_nil, or_false] at hfinal
      rcases hfinal with rfl | rfl
      · exact h₁
      · exact h₂
    rw [run_status, Option.map_some, hcatalog, size_of_lists hlists]
  · rw [hlist]
    exact hlistedRegistry
  · rw [hrefresh]
    exact hrefreshedRegistry
  · rw [run_status]
    exact rig.alike_entered.registry

/-! ## What is known -/

/-- The definitions that are stored, as far as they can be decoded. -/
def stored (m : Manager) (params : ParamTree) : List Definition :=
  match params.get? m.settings.catalogKey with
  | none => []
  | some source =>
    match Decode.sequence (Definition.decode .counted) source.datum with
    | .error _ => []
    | .ok definitions => definitions

theorem Stores.eq_stored {params : ParamTree} {definitions : List Definition}
    (h : m.Stores params definitions) : m.stored params = definitions := by
  obtain ⟨source, hget, hdecode⟩ := h.there
  simp only [stored, hget, hdecode]

/-- The definitions that were read last, after a move, by those that were before. -/
def readBy (m : Manager) (read : List Definition) (rig : Rig) : Move → List Definition
  | .list => if m.list.Succeeds rig then m.stored rig.params else read
  | .refresh => if m.refresh.Succeeds rig then m.stored rig.params else read
  | _ => read

/-- The definitions that were read last in a run, by those that were before. -/
def lastRead (m : Manager) : List Definition → Rig → List Move → List Definition
  | read, _, [] => read
  | read, rig, move :: rest => lastRead m (m.readBy read rig move) (m.take rig move) rest

/-- The catalog has the names of some definitions. -/
def Knows (rig : Rig) (read : List Definition) : Prop :=
  rig.memory.catalog.configurations.keys.Perm (read.map (·.name))

theorem Knows.find?_eq_none_iff {read : List Definition} (h : Knows rig read) {name : String} :
    rig.memory.catalog.find? name = none ↔ ∀ d ∈ read, d.name ≠ name := by
  have hkeys : name ∈ rig.memory.catalog.configurations.keys ↔ ∃ d ∈ read, d.name = name := by
    rw [h.mem_iff, List.mem_map]
  rw [← SortedMap.contains_iff_mem_keys, SortedMap.contains] at hkeys
  unfold Catalog.find?
  cases hfind : rig.memory.catalog.configurations.find? name with
  | none =>
    rw [hfind] at hkeys
    exact iff_of_true rfl fun d hd hname => Bool.false_ne_true (hkeys.2 ⟨d, hd, hname⟩)
  | some c =>
    rw [hfind] at hkeys
    obtain ⟨d, hd, hname⟩ := hkeys.1 rfl
    exact iff_of_false (Option.some_ne_none c) fun hall => hall d hd hname

/-! ### Moves that read nothing -/

/-- The names in the catalog stay. -/
def KeepsNames (rig after : Rig) : Prop :=
  after.memory.catalog.configurations.keys = rig.memory.catalog.configurations.keys

theorem keepsNames_of_alike (h : rig.Alike after) : KeepsNames rig after := by
  unfold KeepsNames
  rw [h.memory]

theorem Transits.keepsNames {target : Option Configuration} {strictness : Strictness}
    {outcome : Except ManagerError TransitionRecord}
    (h : m.Transits rig target strictness outcome after) (calm : rig.armed = ∅) :
    KeepsNames rig after := by
  unfold KeepsNames
  cases outcome with
  | error e => rw [(h.unwritten calm).1.1]
  | ok record =>
    -- a commit tags what is there
    obtain ⟨t, hmemory⟩ := (h.noted calm).memory
    rw [hmemory]
    exact SortedMap.keys_mapValues _ _

theorem Starts.keepsNames {name : String} {strictness : Strictness}
    {result : Except ManagerError (List String)} (h : m.Starts rig name strictness result after)
    (calm : rig.armed = ∅) : KeepsNames rig after := by
  cases h with
  | active _ halike => exact keepsNames_of_alike halike
  | unknown _ _ halike => exact keepsNames_of_alike halike
  | transits _ _ htransits => exact htransits.keepsNames calm

theorem Checks.keepsNames {result : Except ManagerError Bool} (h : m.Checks rig result after)
    (calm : rig.armed = ∅) : KeepsNames rig after := by
  cases h with
  | healthy _ halike => exact keepsNames_of_alike halike
  | stops _ _ _ htransits => exact htransits.keepsNames calm

theorem Monitors.keepsNames {phase next : MonitorPhase} (h : m.Monitors rig phase next after)
    (calm : rig.armed = ∅) : KeepsNames rig after := by
  cases h with
  | begun _ halike => exact keepsNames_of_alike halike
  | ends _ halike => exact keepsNames_of_alike halike
  | passes _ _ _ halike => exact keepsNames_of_alike halike
  | checks _ _ _ _ hchecks => exact hchecks.keepsNames calm
  | fails _ _ _ hchecks => exact hchecks.keepsNames calm
  | stops htransits => exact htransits.keepsNames calm
  | rests => exact keepsNames_of_alike (.refl rig)

/-! ### All moves -/

theorem Refreshes.knows {read : List Definition} {result : Except ManagerError Catalog}
    (knows : Knows rig read) (h : m.Refreshes rig result after) :
    (∀ e, result = .error e → Knows after read) ∧
      ∀ catalog, result = .ok catalog → Knows after (m.stored rig.params) := by
  cases h with
  | refused hread halike =>
    refine ⟨fun e he => ?_, nofun⟩
    unfold Knows
    rw [halike.memory]
    exact knows
  | renewed hread halike =>
    refine ⟨nofun, fun catalog hok => ?_⟩
    obtain ⟨definitions, hstores, hkeys, -⟩ := stores_of_reading hread
    unfold Knows
    rw [hstores.eq_stored, halike.memory]
    exact hkeys

theorem knows_take (m : Manager) (calm : rig.armed = ∅) {read : List Definition}
    (h : Knows rig read) (move : Move) : Knows (m.take rig move) (m.readBy read rig move) := by
  have hkeep : ∀ {after : Rig}, KeepsNames rig after → Knows after read := by
    intro after hkeeps
    unfold Knows
    rw [hkeeps]
    exact h
  cases move with
  | start name strictness =>
    obtain ⟨result, after, hrun, hstarts⟩ := m.run_start calm name strictness
    simp only [take, hrun]
    exact hkeep (hstarts.keepsNames calm)
  | stop strictness =>
    obtain ⟨outcome, after, hrun, htransits⟩ := run_stop (m := m) calm strictness
    simp only [take, hrun]
    exact hkeep (htransits.keepsNames calm)
  | list =>
    obtain ⟨result, after, hrun, hrefreshes⟩ := m.run_list calm
    obtain ⟨herror, hok⟩ := hrefreshes.knows h
    unfold take readBy
    cases result with
    | error e =>
      have hfails : ¬ m.list.Succeeds rig := by
        rintro ⟨answer, final, hsucceeds⟩
        rw [hrun] at hsucceeds
        cases hsucceeds
      dsimp only
      rw [hrun, if_neg hfails]
      exact herror e rfl
    | ok catalog =>
      have hsucceeds : m.list.Succeeds rig := ⟨_, _, hrun⟩
      dsimp only
      rw [hrun, if_pos hsucceeds]
      exact hok catalog rfl
  | refresh =>
    obtain ⟨result, after, hrun, hrefreshes⟩ := m.run_refresh calm
    obtain ⟨herror, hok⟩ := hrefreshes.knows h
    unfold take readBy
    cases result with
    | error e =>
      have hfails : ¬ m.refresh.Succeeds rig := by
        rintro ⟨answer, final, hsucceeds⟩
        rw [hrun] at hsucceeds
        cases hsucceeds
      dsimp only
      rw [hrun, if_neg hfails]
      exact herror e rfl
    | ok catalog =>
      have hsucceeds : m.refresh.Succeeds rig := ⟨_, _, hrun⟩
      dsimp only
      rw [hrun, if_pos hsucceeds]
      exact hok catalog rfl
  | checkHealth =>
    obtain ⟨result, after, hrun, hchecks⟩ := m.run_checkHealth calm
    simp only [take, hrun]
    exact hkeep (hchecks.keepsNames calm)
  | monitor phase =>
    obtain ⟨next, after, hrun, hmonitors⟩ := m.run_monitorStep calm phase
    simp only [take, hrun]
    exact hkeep (hmonitors.keepsNames calm)
  | registry changed => exact h
  | access use => exact h
  | elapse d => exact h
  | exit cue => exact h

theorem knows_takeAll (m : Manager) (calm : rig.armed = ∅) {read : List Definition}
    (h : Knows rig read) (moves : List Move) :
    Knows (m.takeAll rig moves) (m.lastRead read rig moves) := by
  induction moves generalizing rig read with
  | nil => exact h
  | cons move rest ih => exact ih (m.calm_take calm move) (m.knows_take calm h move)

theorem MadeOn.knows {made : Rig} (h : m.MadeOn rig made) (calm : rig.armed = ∅) :
    Knows made (m.stored rig.params) := by
  obtain ⟨catalog, mid, hread, hmemory⟩ := h.read
  obtain ⟨mid', hread', -⟩ := m.run_readCatalog calm none
  rw [hread] at hread'
  obtain ⟨hreading, -⟩ := Prod.ext_iff.1 hread'
  obtain ⟨definitions, hstores, hkeys, -⟩ := stores_of_reading (Option.some.inj hreading).symm
  unfold Knows
  rw [hstores.eq_stored, hmemory]
  exact hkeys

/-! ## Names that cannot be started -/

theorem not_unknown_of_transits {target : Option Configuration} {strictness : Strictness}
    {e : ManagerError} (h : m.Transits rig target strictness (.error e) after) (name : String) :
    e ≠ .unknownConfiguration name := by
  rintro rfl
  cases h with
  | failed hbefore hrun hafter =>
    rcases Transition.stage_of_failed hrun with hstage | hstage | hstage
    · exact hstage
    · exact hstage
    · exact hstage

/-- A name is unknown exactly if it is neither active nor among what was read last, and then nothing
is asked of the registry. -/
theorem start_unknown_iff (m : Manager) (calm : rig.armed = ∅) {read : List Definition}
    (h : Knows rig read) (name : String) (strictness : Strictness) :
    ((∃ other, ((m.start name strictness).run rig).1 =
        some (.error (.unknownConfiguration other))) ↔
      rig.memory.activeName ≠ some name ∧ ∀ d ∈ read, d.name ≠ name) ∧
    (rig.memory.activeName ≠ some name → (∀ d ∈ read, d.name ≠ name) → ∃ final,
      (m.start name strictness).run rig = (some (.error (.unknownConfiguration name)), final) ∧
      final.registry = rig.registry) := by
  obtain ⟨result, final, hrun, hstarts⟩ := m.run_start calm name strictness
  rw [hrun, ← h.find?_eq_none_iff]
  cases hstarts with
  | active hactive halike =>
    exact ⟨iff_of_false nofun fun hno => hno.1 hactive, fun hno _ => absurd hactive hno⟩
  | unknown hactive hfind halike =>
    exact ⟨iff_of_true ⟨name, rfl⟩ ⟨hactive, hfind⟩, fun _ _ => ⟨final, rfl, halike.registry⟩⟩
  | @transits target outcome _ hactive hfind htransits =>
    have hknown : ¬ rig.memory.catalog.find? name = none := by
      rw [hfind]
      nofun
    refine ⟨iff_of_false ?_ fun hno => hknown hno.2, fun _ hno => absurd hno hknown⟩
    rintro ⟨other, hother⟩
    cases outcome with
    | error e =>
      obtain rfl : e = .unknownConfiguration other := by
        injection hother with herror
        injection herror
      exact not_unknown_of_transits htransits other rfl
    | ok record => cases hother

/-! ## Every run -/

/-- **What is listed depends on the definitions and on the active name, and what is known on the
last reading that succeeded.** At every point of every run, and whatever is stored then: listings
and refreshes read anew, and two managers that find the same definitions while the same name is
active come to the same answers and catalogs, whatever has happened to them. A request to start
fails to know a name exactly if it is neither active nor among the definitions that were read last,
which are those of the beginning if none were read since; it asks nothing of the registry then. -/
theorem listing_of_run (m : Manager) (rig made : Rig) (moves : List Move) (calm : rig.armed = ∅)
    (madeOn : m.MadeOn rig made) :
    let after := m.takeAll made moves
    let read := m.lastRead (m.stored rig.params) made moves
    (∀ tree, m.ListsAnew { after with params := tree }) ∧
    (∀ other : Rig, other.armed = ∅ → other.memory.activeName = after.memory.activeName →
      other.params.get? m.settings.catalogKey = after.params.get? m.settings.catalogKey →
      (m.list.run other).1 = (m.list.run after).1 ∧
      (m.list.Succeeds after →
        (m.list.run other).2.memory.catalog = (m.list.run after).2.memory.catalog ∧
        (m.refresh.run other).2.memory.catalog = (m.list.run after).2.memory.catalog)) ∧
    (m.status.run after).1.map (·.configurations) = some read.length ∧
    ∀ name strictness,
      ((∃ other, ((m.start name strictness).run after).1 =
          some (.error (.unknownConfiguration other))) ↔
        after.memory.activeName ≠ some name ∧ ∀ d ∈ read, d.name ≠ name) ∧
      (after.memory.activeName ≠ some name → (∀ d ∈ read, d.name ≠ name) → ∃ final,
        (m.start name strictness).run after =
          (some (.error (.unknownConfiguration name)), final) ∧
        final.registry = after.registry) := by
  intro after read
  obtain ⟨-, -, -, -, hcalm⟩ := madeOn.fresh calm
  have hafter : after.armed = ∅ := m.calm_takeAll hcalm moves
  have hknows : Knows after read := m.knows_takeAll hcalm (madeOn.knows calm) moves
  refine ⟨fun tree => m.listsAnew hafter, fun other hother hactive hsource => ?_, ?_,
    fun name strictness => m.start_unknown_iff hafter hknows name strictness⟩
  · obtain ⟨result, final, hrun, hrefreshes⟩ := m.run_list hafter
    obtain ⟨result', final', hrun', hrefreshes'⟩ := m.run_list hother
    obtain ⟨renewal, renewed, hrun'', hrefreshes''⟩ := m.run_refresh hother
    have hreading : m.reading other.params other.memory.activeName =
        m.reading after.params after.memory.activeName := by
      unfold Manager.reading
      rw [hsource, hactive]
    have hsame : result' = result := by rw [hrefreshes'.eq.1, hrefreshes.eq.1, hreading]
    have hsame' : renewal = result := by rw [hrefreshes''.eq.1, hrefreshes.eq.1, hreading]
    subst hsame hsame'
    rw [hrun, hrun', hrun'']
    refine ⟨rfl, ?_⟩
    rintro ⟨answer, last, hsucceeds⟩
    rw [hrun] at hsucceeds
    cases renewal with
    | error e => cases hsucceeds
    | ok catalog =>
      rw [hrefreshes.eq.2.2 catalog rfl, hrefreshes'.eq.2.2 catalog rfl,
        hrefreshes''.eq.2.2 catalog rfl]
      exact ⟨rfl, rfl⟩
  · have hlength := hknows.length_eq
    rw [List.length_map] at hlength
    rw [run_status, Option.map_some, ← hlength]
    exact congrArg some (List.length_map _).symm

/-- Only welding is left of the definitions when they are read again, and nothing when they are
read once more. -/
def definitionsLost : List Move :=
  [.access (.insert "control_configurations" (.array [.definition "welding" [("arm", "torch")]])),
    .list, .access (.insert "control_configurations" (.integer 1)), .refresh]

theorem listing_of_run_definitions_lost :
    let after := Manager.usual.takeAll (Manager.usual.made .workshop) definitionsLost
    (Manager.usual.status.run after).1.map (·.configurations) = some 1 ∧
    ¬ (∃ other, ((Manager.usual.start "welding" .strict).run after).1 =
      some (.error (.unknownConfiguration other))) ∧
    ∃ final, (Manager.usual.start "handling" .strict).run after =
      (some (.error (.unknownConfiguration "handling")), final) ∧
      final.registry = after.registry := by
  obtain ⟨-, -, hcount, hunknown⟩ := listing_of_run .usual .workshop
    (Manager.usual.made .workshop) definitionsLost rfl (madeOn_made (by decide +kernel))
  have hread : (Manager.usual.lastRead (Manager.usual.stored Rig.workshop.params)
      (Manager.usual.made .workshop) definitionsLost).map (·.name) = ["welding"] := by
    decide +kernel
  have hlength := congrArg List.length hread
  rw [List.length_map] at hlength
  refine ⟨by rw [hcount, hlength]; rfl, ?_, ?_⟩
  · rw [(hunknown "welding" .strict).1]
    rintro ⟨-, hno⟩
    obtain ⟨d, hd, hname⟩ := List.mem_map.1 (hread.symm ▸ List.mem_singleton_self "welding")
    exact hno d hd hname
  · refine (hunknown "handling" .strict).2 (by decide +kernel) fun d hd hname => ?_
    have hmem := List.mem_map_of_mem (f := (·.name)) hd
    rw [hread, hname] at hmem
    exact absurd hmem (by decide)

end Manager

end ControlRig
