import ControlRig.Proofs.Manager.Status
import ControlRig.Proofs.Manager.Idempotence

/-!
# What the published status tells apart

The published text is the active name, or "none" while nothing is active, and a definition is
refused for a blank name and for no other. So **a configuration may be called "none", and while it
is active the text says that nothing is** (`Manager.idle_and_none_look_alike`). This is all there is
to mistake: what is active has been started (`Manager.started_of_active`), and wherever no
configuration of that name has been, the text tells what is active (`Manager.text_tells_active`).
-/

namespace ControlRig

/-- The text of no name is also that of the name "none". -/
theorem activeText_eq_none_iff {active : Option String} :
    active.getD "none" = "none" ↔ active = none ∨ active = some "none" := by
  cases active <;> simp

/-- Texts are the same for the same names, and for "none" and no name. -/
theorem activeText_eq_iff {active other : Option String} :
    active.getD "none" = other.getD "none" ↔ active = other ∨
      (active = none ∧ other = some "none") ∨ (active = some "none" ∧ other = none) := by
  cases active <;> cases other <;> simp [eq_comm]

namespace Manager

variable {m : Manager} {rig made : Rig} {moves : List Move} {name : String}

/-- A manager has been made where its status can be published and nobody is to crash, and in what
follows nobody else writes there. -/
structure Undisturbed (m : Manager) (made : Rig) (moves : List Move) : Prop where
  madeOn : ∃ rig : Rig, rig.armed = ∅ ∧ m.MadeOn rig made ∧
    Param.Fields.Open (Param.segments m.settings.statusKey) rig.params.root
  spared : ∀ move ∈ moves, move.Spares m.settings.statusKey

/-- A configuration has been started: at some point of a run, note was taken of a start of it. -/
def Activates (m : Manager) (rig : Rig) (moves : List Move) (name : String) : Prop :=
  ∃ front strictness back skipped, moves = front ++ .start name strictness :: back ∧
    m.deed (m.takeAll rig front) (.start name strictness) = .started skipped

/-! ## Starts -/

theorem elim_ne_started {α : Type} {read : α → Deed} {skipped : List String}
    (never : ∀ result, read result ≠ .started skipped) (result : Option α) :
    result.elim .nothing read ≠ .started skipped := by
  cases result with
  | none => exact nofun
  | some result => exact never result

/-- Nothing but a start starts a configuration. -/
theorem exists_start_of_started {move : Move} {skipped : List String}
    (h : m.deed rig move = .started skipped) :
    ∃ name strictness, move = .start name strictness := by
  have hstop : ∀ result, Deed.ofStop result ≠ .started skipped := by
    rintro (e | _) hstarted <;> cases hstarted
  have hrefresh : ∀ {α : Type} (result : Except ManagerError α),
      Deed.ofRefresh result ≠ .started skipped := by
    rintro _ (e | _) hstarted <;> cases hstarted
  have hcheck : ∀ result, Deed.ofCheck result ≠ .started skipped := by
    rintro (e | _ | _) hstarted <;> cases hstarted
  cases move with
  | start name strictness => exact ⟨name, strictness, rfl⟩
  | stop strictness => exact absurd h (elim_ne_started hstop _)
  | list => exact absurd h (elim_ne_started hrefresh _)
  | refresh => exact absurd h (elim_ne_started hrefresh _)
  | checkHealth => exact absurd h (elim_ne_started hcheck _)
  | monitor phase =>
    cases phase with
    | passing loop =>
      simp only [deed, monitorDeed] at h
      split at h
      · cases h
      · split at h
        · exact absurd h (elim_ne_started hcheck _)
        · cases h
    | ending => exact absurd h (elim_ne_started hstop _)
    | _ => cases h
  | registry _ | access _ | elapse _ | exit _ => cases h

theorem activeName_of_started (calm : rig.armed = ∅) (tagged : rig.memory.Tagged)
    {strictness : Strictness} {skipped : List String}
    (h : m.deed rig (.start name strictness) = .started skipped) :
    (∃ d, rig.memory.catalog.find? name = some d) ∧
      (m.take rig (.start name strictness)).memory.activeName = some name := by
  obtain ⟨d, hfind, hactive⟩ := m.active_of_started calm h
  refine ⟨⟨d, hfind⟩, ?_⟩
  rw [ManagerState.activeName, hactive]
  exact congrArg some (tagged name d hfind).1

/-- What is active after a move was active before, or is what the move has started. -/
theorem active_or_started (calm : rig.armed = ∅) (tagged : rig.memory.Tagged) {move : Move}
    (h : (m.take rig move).memory.activeName = some name) :
    rig.memory.activeName = some name ∨
      ∃ strictness skipped, move = .start name strictness ∧ m.deed rig move = .started skipped := by
  have hkept : (m.deed rig move).IsCommit = false → rig.memory.activeName = some name := by
    intro hdeed
    rw [← h, ManagerState.activeName, ManagerState.activeName, m.active_take calm move hdeed]
  cases hdeed : m.deed rig move with
  | nothing | failed e =>
    rw [hdeed] at hkept
    exact .inl (hkept rfl)
  | started skipped =>
    obtain ⟨other, strictness, rfl⟩ := exists_start_of_started hdeed
    have hname := (activeName_of_started calm tagged hdeed).2
    obtain rfl : other = name := Option.some.inj (hname.symm.trans h)
    exact .inr ⟨strictness, skipped, rfl, rfl⟩
  | stopped =>
    rw [ManagerState.activeName, inactive_of_stopped hdeed] at h
    cases h

/-- **What is active has been started**, if it was not active all along. -/
theorem started_of_active (calm : rig.armed = ∅) (tagged : rig.memory.Tagged)
    (h : (m.takeAll rig moves).memory.activeName = some name) :
    rig.memory.activeName = some name ∨ m.Activates rig moves name := by
  induction moves generalizing rig with
  | nil => exact .inl h
  | cons move rest ih =>
    rcases ih (m.calm_take calm move) (tagged_take tagged move) h with hmid | hlater
    · refine (active_or_started calm tagged hmid).imp_right ?_
      rintro ⟨strictness, skipped, rfl, hdeed⟩
      exact ⟨[], strictness, rest, skipped, rfl, hdeed⟩
    · obtain ⟨front, strictness, back, skipped, rfl, hdeed⟩ := hlater
      exact .inr ⟨move :: front, strictness, back, skipped, rfl, hdeed⟩

/-! ## Texts -/

namespace Undisturbed

theorem front (h : m.Undisturbed made moves) {front : List Move} (hfront : front <+: moves) :
    m.Undisturbed made front :=
  ⟨h.madeOn, fun move hmove => h.spared move (hfront.subset hmove)⟩

theorem published (h : m.Undisturbed made moves) : m.Published (m.takeAll made moves) := by
  obtain ⟨rig, calm, hmade, way⟩ := h.madeOn
  exact (throughout_of_forall h.spared made).preserves (fun _ _ h hspares => h.take hspares)
    (hmade.published calm way)

theorem tagged (h : m.Undisturbed made moves) : (m.takeAll made moves).memory.Tagged := by
  obtain ⟨rig, -, hmade, -⟩ := h.madeOn
  exact tagged_takeAll hmade.tagged moves

theorem started (h : m.Undisturbed made moves)
    (active : (m.takeAll made moves).memory.activeName = some name) :
    m.Activates made moves name := by
  obtain ⟨rig, calm, hmade, -⟩ := h.madeOn
  obtain ⟨-, ⟨catalog, hfresh⟩, -, -, hcalm⟩ := hmade.fresh calm
  refine (started_of_active hcalm hmade.tagged active).resolve_left fun hname => ?_
  rw [hfresh] at hname
  cases hname

/-- What is started is in the catalog, and active at some point. -/
theorem active (h : m.Undisturbed made moves) (activates : m.Activates made moves name) :
    (∃ front, front <+: moves ∧
      ∃ d, (m.takeAll made front).memory.catalog.find? name = some d) ∧
    ∃ front, front <+: moves ∧ (m.takeAll made front).memory.activeName = some name := by
  obtain ⟨front, strictness, back, skipped, rfl, hdeed⟩ := activates
  have hfront := h.front (List.prefix_append front _)
  obtain ⟨hknown, hactive⟩ := activeName_of_started hfront.published.calm hfront.tagged hdeed
  refine ⟨⟨front, List.prefix_append .., hknown⟩, front ++ [.start name strictness], ?_, ?_⟩
  · exact ⟨back, by simp⟩
  · rw [takeAll, List.foldl_append]
    exact hactive

end Undisturbed

/-- **The text tells what is active, unless that is called "none".** A manager is made where its
status can be published, and nobody else writes there. Then the text is "none" exactly while nothing
is active, at every point of a run, if and only if no configuration of that name is started in it;
to be started it has to be in the catalog. At the ends of two runs, even of two managers, the texts
are the same exactly if the active names are, except that one of them may be "none", of a
configuration that was started, while nothing is active at the other. -/
theorem text_tells_active (m : Manager) (made : Rig) (moves : List Move)
    (undisturbed : m.Undisturbed made moves) :
    ((∀ front, front <+: moves →
        ((m.takeAll made front).params.text? m.settings.statusKey = some "none" ↔
          (m.takeAll made front).memory.active = none)) ↔
      ¬ m.Activates made moves "none") ∧
    (m.Activates made moves "none" → ∃ front, front <+: moves ∧
      ∃ d, (m.takeAll made front).memory.catalog.find? "none" = some d) ∧
    ∀ (other : Manager) (otherMade : Rig) (otherMoves : List Move),
      other.Undisturbed otherMade otherMoves →
      let active := (m.takeAll made moves).memory.activeName
      let otherActive := (other.takeAll otherMade otherMoves).memory.activeName
      ((m.takeAll made moves).params.text? m.settings.statusKey =
          (other.takeAll otherMade otherMoves).params.text? other.settings.statusKey ↔
        active = otherActive ∨
        (active = none ∧ otherActive = some "none" ∧
          other.Activates otherMade otherMoves "none") ∨
        (active = some "none" ∧ otherActive = none ∧ m.Activates made moves "none")) := by
  refine ⟨⟨fun htells hnone => ?_, fun hnever front hfront => ?_⟩, fun hnone => ?_,
    fun other otherMade otherMoves hother => ?_⟩
  · obtain ⟨-, front, hfront, hactive⟩ := undisturbed.active hnone
    have htext := (undisturbed.front hfront).published.text
    rw [hactive] at htext
    rw [ManagerState.activeName, (htells front hfront).1 htext] at hactive
    cases hactive
  · rw [(undisturbed.front hfront).published.text, Option.some_inj,
      activeText_eq_none_iff, ManagerState.activeName, Option.map_eq_none_iff]
    refine or_iff_left fun hactive => hnever ?_
    -- what is started at the beginning of a run is started in the run
    obtain ⟨back, rfl⟩ := hfront
    obtain ⟨before, strictness, after, skipped, rfl, hdeed⟩ :=
      (undisturbed.front (List.prefix_append front back)).started hactive
    exact ⟨before, strictness, after ++ back, skipped, by simp, hdeed⟩
  · exact (undisturbed.active hnone).1
  · intro active otherActive
    rw [undisturbed.published.text, hother.published.text, Option.some_inj, activeText_eq_iff]
    refine or_congr_right (or_congr ?_ ?_)
    · exact and_congr_right fun _ => (and_iff_left_of_imp hother.started).symm
    · refine ⟨fun h => ⟨h.1, h.2, undisturbed.started h.1⟩, fun h => ⟨h.1, h.2.1⟩⟩

/-- An arm that can be put to rest, which somebody has called "none". -/
def restingArm : Rig :=
  .fresh (.fresh .zero .zero)
    ⟨[("arm", .table [("grip", .table [])]),
      ("control_configurations", .array [.definition "none" [("arm", "grip")]])]⟩

theorem undisturbed_usual {rig : Rig} {moves : List Move} (calm : rig.armed = ∅)
    (succeeds : Manager.usual.make.Succeeds rig)
    (way : Param.Fields.Open (Param.segments Manager.usual.settings.statusKey) rig.params.root)
    (spared : ∀ move ∈ moves, move.Spares Manager.usual.settings.statusKey) :
    Manager.usual.Undisturbed (Manager.usual.made rig) moves :=
  ⟨⟨rig, calm, madeOn_made succeeds, way⟩, spared⟩

/-- Handling comes and goes, and the text tells when. In the end it is what it is while the other
arm rests. -/
theorem text_tells_active_handling :
    let moves : List Move :=
      [.start "handling" .strict, .registry (.fresh .zero .zero), .checkHealth]
    let made := Manager.usual.made .workshop
    let resting := Manager.usual.takeAll (Manager.usual.made restingArm) [.start "none" .strict]
    (∀ front, front <+: moves →
      ((Manager.usual.takeAll made front).params.text? Manager.usual.settings.statusKey =
          some "none" ↔
        (Manager.usual.takeAll made front).memory.active = none)) ∧
    (Manager.usual.takeAll made moves).params.text? Manager.usual.settings.statusKey =
      resting.params.text? Manager.usual.settings.statusKey := by
  intro moves made resting
  have hmoves : Manager.usual.Undisturbed made moves :=
    undisturbed_usual rfl (by decide +kernel) (by decide +kernel) (by decide +kernel)
  have hresting : Manager.usual.Undisturbed (Manager.usual.made restingArm)
      [.start "none" .strict] :=
    undisturbed_usual rfl (by decide +kernel) (by decide +kernel) (by decide +kernel)
  obtain ⟨htells, -, hsame⟩ := text_tells_active .usual made moves hmoves
  refine ⟨htells.2 ?_, (hsame .usual _ _ hresting).2 (.inr (.inl ?_))⟩
  · rintro ⟨front, strictness, back, skipped, hstart, -⟩
    have hmem : Move.start "none" strictness ∈ moves := by
      rw [hstart]
      exact List.mem_append_right _ List.mem_cons_self
    simp [moves] at hmem
  · have hnone : resting.memory.activeName = some "none" := by decide +kernel
    exact ⟨by decide +kernel, hnone, hresting.started hnone⟩

/-- **Nothing active and a configuration called "none" look alike.** -/
theorem idle_and_none_look_alike :
    let made := Manager.usual.made restingArm
    let resting := Manager.usual.takeAll made [.start "none" .strict]
    Manager.usual.Undisturbed made [] ∧ Manager.usual.Undisturbed made [.start "none" .strict] ∧
      made.params.text? Manager.usual.settings.statusKey = some "none" ∧
      resting.params.text? Manager.usual.settings.statusKey = some "none" ∧
      made.memory.activeName = none ∧ resting.memory.activeName = some "none" := by
  refine ⟨undisturbed_usual rfl ?_ ?_ ?_, undisturbed_usual rfl ?_ ?_ ?_, ?_, ?_, ?_, ?_⟩
  all_goals decide +kernel

end Manager

end ControlRig
