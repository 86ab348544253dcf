import ControlRig.Proofs.Manager.Activation

/-!
# Starting what is active

**A start of what is active is no start**: it asks the registry for nothing and leaves everything as
it was (`run_start_active`). So what matters is for how long something is active. What the catalog
has under the name by then, and what the registry holds, do not come into it; a request that fails
does not either, and one that crashes only if it crashes too late, after it has been taken note of.
What is left are the moves that supersede it (`Manager.Supersedes`), and **every other move leaves
it active** (`active_kept`), whoever else crashes. From there it is an induction over runs
(`start_idempotent`).
-/

namespace ControlRig

namespace Manager

open Procedure

variable {m : Manager} {rig after : Rig} {name : String}

/-! ## What success means for what is active -/

theorem memory_of_run_commit {state : ManagerState} {active : Option Configuration}
    (h : (m.commit state active).run rig = (some (), after)) :
    ∃ t, after.memory = state.commit active t := by
  obtain ⟨t, timed, -, h⟩ := run_bind_some.1 h
  obtain ⟨_, saved, hsave, hpublish⟩ := run_bind_some.1 h
  have hkept : ((publish m.settings.statusKey (ManagerState.statusText
      (active.map (·.name)))).run saved).2.memory = saved.memory := by
    rw [publish, run_of]
    exact saved.memory_answer fun state hsave => by cases hsave
  rw [hpublish] at hkept
  cases hsave
  exact ⟨t, hkept⟩

theorem memory_of_run_stopLocked {strictness : Strictness} {state : ManagerState}
    (h : (m.stopLocked strictness state).run rig = (some (.ok ()), after)) :
    after.memory.active = none := by
  obtain ⟨_, _, -, h⟩ := run_bind_some.1 h
  obtain ⟨outcome, mid, -, h⟩ := run_bind_some.1 h
  cases outcome with
  | error e =>
    obtain ⟨_, _, -, hdone⟩ := run_bind_some.1 h
    cases hdone
  | ok record =>
    obtain ⟨_, _, hcommit, hdone⟩ := run_bind_some.1 h
    cases hdone
    obtain ⟨t, hmemory⟩ := memory_of_run_commit hcommit
    rw [hmemory]
    rfl

theorem activeName_of_run_start {strictness : Strictness} {skipped : List String}
    (tagged : rig.memory.Tagged)
    (h : (m.start name strictness).run rig = (some (.ok skipped), after)) :
    after.memory.activeName = some name := by
  obtain ⟨number, numbered, hnumber, h⟩ := run_bind_some.1 h
  cases hnumber
  have h := run_withLock_iff.1 h
  unfold startLocked at h
  split at h
  · rename_i hactive
    obtain ⟨_, _, hnote, hdone⟩ := run_bind_some.1 h
    cases hnote
    cases hdone
    show (Rig.entered _).memory.activeName = some name
    rw [(Rig.alike_entered _).memory]
    exact hactive
  · split at h
    · cases h
    · rename_i target hfind
      obtain ⟨_, _, -, h⟩ := run_bind_some.1 h
      obtain ⟨outcome, mid, -, h⟩ := run_bind_some.1 h
      cases outcome with
      | error e =>
        obtain ⟨_, _, -, hdone⟩ := run_bind_some.1 h
        cases hdone
      | ok record =>
        obtain ⟨_, committed, hcommit, h⟩ := run_bind_some.1 h
        obtain ⟨t, hmemory⟩ := memory_of_run_commit hcommit
        have hkept : after.memory = committed.memory := by
          dsimp only at h
          split at h
          · obtain ⟨_, _, hnote, hdone⟩ := run_bind_some.1 h
            cases hnote
            cases hdone
            rfl
          · obtain ⟨_, _, hnote, hdone⟩ := run_bind_some.1 h
            cases hnote
            cases hdone
            rfl
        rw [hkept, hmemory]
        exact congrArg some (tagged name target hfind).1

theorem memory_of_run_checkHealth {found : Bool}
    (h : m.checkHealth.run rig = (some (.ok found), after)) :
    (found = true → after.memory.active = none) ∧ (found = false → after.memory = rig.memory) := by
  have h := run_withLock_iff.1 h
  have hentered := rig.alike_entered.memory
  unfold checkHealthLocked at h
  split at h
  · cases h
    exact ⟨nofun, fun _ => hentered⟩
  · rename_i active hactive
    obtain ⟨faulty, seen, hfaults, h⟩ := run_bind_some.1 h
    have hseen := ((faults_composed active.resources.names).spares.asks.spares rig.entered).1
    rw [hfaults] at hseen
    cases faulty with
    | nil =>
      cases h
      exact ⟨nofun, fun _ => hseen.trans hentered⟩
    | cons first rest =>
      -- what has been found is reported, and then there is a stop
      obtain ⟨_, reported, -, h⟩ := run_bind_some.1 h
      obtain ⟨_, warned, -, h⟩ := run_bind_some.1 h
      obtain ⟨outcome, stopped, hstop, hdone⟩ := run_bind_some.1 h
      match outcome with
      | .error e => cases hdone
      | .ok () =>
        cases hdone
        exact ⟨fun _ => memory_of_run_stopLocked hstop, nofun⟩

/-! ## What leaves it active -/

/-- A move is a start of something else that succeeds. -/
def StartsOther (m : Manager) (name : String) (rig : Rig) : Move → Prop
  | .start other strictness => other ≠ name ∧ (m.start other strictness).Succeeds rig
  | _ => False

theorem StartsOther.exists_start {move : Move} (h : m.StartsOther name rig move) :
    ∃ other strictness, move = .start other strictness ∧ other ≠ name ∧
      (m.start other strictness).Succeeds rig := by
  cases move with
  | start other strictness => exact ⟨other, strictness, rfl, h⟩
  | _ => exact absurd h id

/-- **What ends the activity of a configuration**: a stop that succeeds, be it an emergency stop or
the monitor's last, or a start of something else. A publisher that crashes does so while note is
taken of one of these. -/
def Supersedes (m : Manager) (name : String) (rig : Rig) (move : Move) : Prop :=
  m.deed rig move = .stopped ∨ m.StartsOther name rig move ∨
    rig.PublisherCrashed (m.take rig move)

instance (deed : Deed) : Decidable (deed = .stopped) :=
  match deed with
  | .stopped => isTrue rfl
  | .nothing | .failed _ | .started _ => isFalse nofun

instance (m : Manager) (name : String) (rig : Rig) (move : Move) :
    Decidable (m.StartsOther name rig move) :=
  match move with
  | .start other strictness =>
    inferInstanceAs (Decidable (other ≠ name ∧ (m.start other strictness).Succeeds rig))
  | .stop _ | .list | .refresh | .checkHealth | .monitor _ | .registry _ | .access _ | .elapse _
  | .exit _ => isFalse id

instance (m : Manager) (name : String) (rig : Rig) (move : Move) :
    Decidable (m.Supersedes name rig move) :=
  inferInstanceAs (Decidable (_ ∨ _ ∨ _ ∧ _))

/-- What can come about while a configuration stays active. -/
inductive Stays (m : Manager) (name : String) : Rig → Rig → Prop
  | refl (rig : Rig) : Stays m name rig rig
  | move {rig mid : Rig} (move : Move) : Stays m name rig mid → ¬ m.Supersedes name mid move →
      Stays m name rig (m.take mid move)
  | status {rig mid : Rig} : Stays m name rig mid → Stays m name rig (m.status.run mid).2

theorem Stays.takeAll {begin : Rig} (h : m.Stays name begin rig) {moves : List Move}
    (lasting : m.Throughout (fun rig move => ¬ m.Supersedes name rig move) rig moves) :
    m.Stays name begin (m.takeAll rig moves) := by
  induction moves generalizing rig with
  | nil => exact h
  | cons move rest ih => exact ih (.move move h lasting.1) lasting.2

/-- A start of what is active. Only the request is counted. -/
theorem run_start_active (active : rig.memory.activeName = some name) (strictness : Strictness) :
    ∃ after, (m.start name strictness).run rig = (some (.ok []), after) ∧
      after.hushed = { rig.hushed with numbers := rig.numbers + 1 } := by
  let numbered : Rig := { rig with numbers := rig.numbers + 1 }
  refine ⟨numbered.entered.note .info ("configuration '" ++ name ++ "' is already running"),
    run_bind_some.2 ⟨rig.numbers + 1, numbered, rfl, run_withLock ?_⟩, numbered.hushed_entered⟩
  unfold startLocked
  rw [if_pos active]
  rfl

/-- A run has left the memory as it was, or else its publisher has crashed. -/
def LeavesMemory {α : Type} (p : Procedure α) (rig : Rig) : Prop :=
  (p.run rig).2.memory = rig.memory ∨ (p.run rig).1 = none ∧ rig.PublisherCrashed (p.run rig).2

theorem leavesMemory_of_maintains {α : Type} {p : Procedure α}
    (h : ∀ I : ManagerState → Prop, p.Maintains I) (rig : Rig) : LeavesMemory p rig :=
  .inl (h (· = rig.memory) rig rfl)

/-- What follows may be anything that does not write. -/
theorem LeavesMemory.bind {α β : Type} {p : Procedure α} {f : α → Procedure β}
    (h : LeavesMemory p rig) (hf : ∀ a (I : ManagerState → Prop), (f a).Maintains I) :
    LeavesMemory (p >>= f) rig := by
  unfold LeavesMemory at h ⊢
  rw [run_bind]
  cases hrun : p.run rig with
  | mk result mid =>
    rw [hrun] at h
    cases result with
    | none => exact h.imp id fun hcrash => ⟨rfl, hcrash.2⟩
    | some a =>
      rcases h with hsame | ⟨hnone, -⟩
      · exact .inl (hf a (· = rig.memory) mid hsame)
      · cases hnone

/-- A request that has come to no stop has written nothing, unless its publisher has crashed. -/
theorem leavesMemory_of_failsClean {α : Type} {p : Procedure (Except ManagerError α)}
    (clean : p.FailsClean)
    (ok : ∀ a after, p.run rig = (some (.ok a), after) → after.memory = rig.memory) :
    LeavesMemory p rig := by
  unfold LeavesMemory
  cases hrun : p.run rig with
  | mk result after =>
    match result with
    | none => exact (clean.crash rig after hrun).imp And.left (⟨rfl, ·⟩)
    | some (.error e) => exact .inl (clean.error rig e after hrun).1
    | some (.ok a) => exact .inl (ok a after hrun)

theorem leavesMemory_checkHealth
    (quiet : (m.checkHealth.run rig).1.elim .nothing Deed.ofCheck ≠ .stopped) :
    LeavesMemory m.checkHealth rig := by
  refine leavesMemory_of_failsClean m.failsClean_checkHealth fun found after hrun => ?_
  cases found with
  | true =>
    rw [hrun] at quiet
    exact absurd rfl quiet
  | false => exact (memory_of_run_checkHealth hrun).2 rfl

/-- A stop that has not succeeded, whatever is said before it. -/
theorem leavesMemory_of_stop {p : Procedure (Except ManagerError Unit)} (clean : p.FailsClean)
    (quiet : (p.run rig).1.elim .nothing Deed.ofStop ≠ .stopped) : LeavesMemory p rig := by
  refine leavesMemory_of_failsClean clean fun u after hrun => ?_
  rw [hrun] at quiet
  exact absurd rfl quiet

/-- A pass is nothing, or else what its check is. -/
theorem monitorPass_is_check (m : Manager) (loop : MonitorLoop) (rig : Rig) :
    m.monitorDeed rig (.passing loop) = .nothing ∧
        ((m.monitorPass loop).run rig).2.memory = rig.memory ∨
      ∃ result mid, m.checkHealth.run (rig.elapse Rig.lookTime) = (result, mid) ∧
        m.monitorDeed rig (.passing loop) = result.elim .nothing Deed.ofCheck ∧
        ((m.monitorPass loop).run rig).2.memory = mid.memory ∧
        (result = none → (m.monitorPass loop).run rig = (none, mid)) := by
  unfold monitorDeed
  cases hexit : rig.exitRequested with
  | true =>
    rw [monitorPass_eq, run_bind, run_exitRequested, hexit]
    exact .inl ⟨rfl, rfl⟩
  | false =>
    by_cases hdue : m.CheckDue loop
    · rw [m.monitorPass_of_due hdue, run_bind, run_exitRequested, hexit]
      cases hcheck : m.checkHealth.run (rig.elapse Rig.lookTime) with
      | mk result mid =>
        refine .inr ⟨result, mid, rfl, if_pos hdue, ?_⟩
        dsimp only
        rw [if_neg Bool.false_ne_true, run_bind, hcheck]
        cases result with
        | none => exact ⟨rfl, fun _ => rfl⟩
        | some checked =>
          exact ⟨maintains_concludePass (m := m) (I := (· = mid.memory)) _ checked mid rfl, nofun⟩
    · rw [m.monitorPass_of_not_due hdue, run_bind, run_exitRequested, hexit]
      exact .inl ⟨if_neg hdue, maintains_monitorWait (I := (· = rig.memory)) _ _ rfl⟩

theorem leavesMemory_monitorPass (loop : MonitorLoop)
    (quiet : m.monitorDeed rig (.passing loop) ≠ .stopped) :
    LeavesMemory (m.monitorPass loop) rig := by
  rcases m.monitorPass_is_check loop rig with
    ⟨-, hsame⟩ | ⟨result, mid, hcheck, hdeed, hsame, hcrash⟩
  · exact .inl hsame
  · have hleaves : LeavesMemory m.checkHealth (rig.elapse Rig.lookTime) := by
      refine leavesMemory_checkHealth ?_
      rw [hcheck, ← hdeed]
      exact quiet
    unfold LeavesMemory at hleaves ⊢
    rw [hcheck] at hleaves
    rcases hleaves with hkept | ⟨hnone, hcrashed⟩
    · exact .inl (hsame.trans hkept)
    · rw [hcrash hnone]
      exact .inr ⟨rfl, hcrashed⟩

theorem leavesMemory_monitorStep (phase : MonitorPhase)
    (quiet : m.monitorDeed rig phase ≠ .stopped) : LeavesMemory (m.monitorStep phase) rig := by
  match phase with
  | .starting =>
    refine leavesMemory_of_maintains (fun I => ?_) rig
    exact .bind (.bind (maintains_of nofun) fun _ _ _ _ =>
      .bind (maintains_of nofun) fun _ _ _ _ => maintains_done _) fun _ _ _ _ => maintains_done _
  | .passing loop => exact leavesMemory_monitorPass loop quiet
  | .ending =>
    have hclean : m.monitorEnd.FailsClean :=
      .bind (Composed.of _ trivial).asks fun _ => m.failsClean_stop .bestEffort
    exact (leavesMemory_of_stop hclean quiet).bind fun _ _ => maintains_done _
  | .over outcome => exact .inl rfl

/-- Reading the catalog again writes the catalog. -/
theorem maintains_refreshLocked_active {state : ManagerState} :
    (m.refreshLocked state).Maintains (·.active = state.active) := by
  refine .bind (readCatalog_composed _ _).spares.maintains fun _ read _ _ => ?_
  cases read with
  | error e => exact maintains_done _
  | ok catalog => exact .bind (maintains_save rfl) fun _ _ _ _ => maintains_done _

theorem maintains_refresh_active (active : Option Configuration) :
    m.refresh.Maintains (·.active = active) := by
  refine .withLock fun state hstate => ?_
  subst hstate
  refine .bind maintains_refreshLocked_active fun _ result _ _ => ?_
  cases result with
  | error e => exact maintains_done _
  | ok catalog => exact .bind (maintains_of nofun) fun _ _ _ _ => maintains_done _

theorem maintains_list_active (active : Option Configuration) :
    m.list.Maintains (·.active = active) := by
  refine .withLock fun state hstate => ?_
  subst hstate
  refine .bind maintains_refreshLocked_active fun _ result _ _ => ?_
  cases result <;> exact maintains_done _

/-- **What does not supersede leaves it active.** -/
theorem active_kept (active : rig.memory.activeName = some name) {move : Move}
    (lasting : ¬ m.Supersedes name rig move) :
    (m.take rig move).memory.active = rig.memory.active := by
  have hquiet : m.deed rig move ≠ .stopped := fun hstopped => lasting (.inl hstopped)
  have hcrash : ¬ rig.PublisherCrashed (m.take rig move) :=
    fun hcrashed => lasting (.inr (.inr hcrashed))
  cases move with
  | start other strictness =>
    by_cases hother : other = name
    · subst hother
      obtain ⟨after, hrun, hsame⟩ := run_start_active (m := m) active strictness
      show ((m.start other strictness).run rig).2.memory.active = _
      rw [hrun]
      exact congrArg ManagerState.active (congrArg Rig.memory hsame :)
    · have hfails : ¬ (m.start other strictness).Succeeds rig := fun hsucceeds =>
        lasting (.inr (.inl ⟨hother, hsucceeds⟩))
      have hclean := (m.failsClean_start other strictness).unwritten hfails
      exact congrArg ManagerState.active (hclean.resolve_right hcrash).1
  | stop strictness =>
    have hleaves := leavesMemory_of_stop (m.failsClean_stop strictness) hquiet
    exact congrArg ManagerState.active (hleaves.resolve_right fun h => hcrash h.2)
  | list => exact maintains_list_active _ rig rfl
  | refresh => exact maintains_refresh_active _ rig rfl
  | checkHealth =>
    have hleaves := leavesMemory_checkHealth hquiet
    exact congrArg ManagerState.active (hleaves.resolve_right fun h => hcrash h.2)
  | monitor phase =>
    have hleaves := leavesMemory_monitorStep phase hquiet
    exact congrArg ManagerState.active (hleaves.resolve_right fun h => hcrash h.2)
  | registry changed => rfl
  | access use => rfl
  | elapse d => rfl
  | exit cue => rfl

theorem Stays.active {begin : Rig} (h : m.Stays name begin after)
    (active : begin.memory.activeName = some name) : after.memory.active = begin.memory.active := by
  induction h with
  | refl => rfl
  | @move mid move _ hlasting ih =>
    have hmid : mid.memory.activeName = some name := by
      rw [ManagerState.activeName, ih]
      exact active
    exact (active_kept hmid hlasting).trans ih
  | status _ ih => exact (congrArg ManagerState.active (m.run_status_alike _).memory).trans ih

theorem Stays.tagged {begin : Rig} (h : m.Stays name begin after)
    (tagged : begin.memory.Tagged) : after.memory.Tagged := by
  induction h with
  | refl => exact tagged
  | move move _ _ ih => exact tagged_take ih move
  | status _ ih =>
    rw [(m.run_status_alike _).memory]
    exact ih

/-! ## What ends it -/

theorem run_of_ofCheck (h : (m.checkHealth.run rig).1.elim .nothing Deed.ofCheck = .stopped) :
    ∃ after, m.checkHealth.run rig = (some (.ok true), after) := by
  cases hrun : m.checkHealth.run rig with
  | mk result after =>
    rw [hrun] at h
    match result with
    | none | some (.error _) | some (.ok false) => cases h
    | some (.ok true) => exact ⟨after, rfl⟩

theorem run_of_ofStop {p : Procedure (Except ManagerError Unit)}
    (h : (p.run rig).1.elim .nothing Deed.ofStop = .stopped) :
    ∃ after, p.run rig = (some (.ok ()), after) := by
  cases hrun : p.run rig with
  | mk result after =>
    rw [hrun] at h
    match result with
    | none | some (.error _) => cases h
    | some (.ok ()) => exact ⟨after, rfl⟩

theorem inactive_monitorStep {phase : MonitorPhase} (stopped : m.monitorDeed rig phase = .stopped) :
    ((m.monitorStep phase).run rig).2.memory.active = none := by
  match phase with
  | .starting | .over _ => cases stopped
  | .passing loop =>
    show ((m.monitorPass loop).run rig).2.memory.active = none
    rcases m.monitorPass_is_check loop rig with
      ⟨hnothing, -⟩ | ⟨result, mid, hcheck, hdeed, hsame, -⟩
    · rw [hnothing] at stopped
      cases stopped
    · obtain ⟨after, hrun⟩ : ∃ after,
          m.checkHealth.run (rig.elapse Rig.lookTime) = (some (.ok true), after) := by
        refine run_of_ofCheck ?_
        rw [hcheck, ← hdeed]
        exact stopped
      cases hcheck.symm.trans hrun
      rw [hsame]
      exact (memory_of_run_checkHealth hrun).1 rfl
  | .ending =>
    obtain ⟨mid, hend⟩ := run_of_ofStop stopped
    obtain ⟨_, told, -, hstop⟩ := run_bind_some.1 hend
    show ((m.monitorEnd >>= fun outcome => Procedure.done _).run rig).2.memory.active = none
    rw [run_bind, hend]
    exact memory_of_run_stopLocked (run_withLock_iff.1 hstop)

theorem ofStart_ne_stopped (already : Bool) (result : Option (Except ManagerError (List String))) :
    result.elim .nothing (Deed.ofStart already) ≠ .stopped := by
  match result, already with
  | none, _ | some (.error _), _ | some (.ok _), true | some (.ok _), false => exact nofun

theorem ofRefresh_ne_stopped {α : Type} (result : Option (Except ManagerError α)) :
    result.elim .nothing Deed.ofRefresh ≠ .stopped := by
  match result with
  | none | some (.error _) | some (.ok _) => exact nofun

theorem inactive_of_stopped {move : Move} (stopped : m.deed rig move = .stopped) :
    (m.take rig move).memory.active = none := by
  match move, stopped with
  | .stop strictness, stopped =>
    obtain ⟨after, hrun⟩ := run_of_ofStop stopped
    simp only [take, hrun]
    exact memory_of_run_stopLocked (run_withLock_iff.1 hrun)
  | .checkHealth, stopped =>
    obtain ⟨after, hrun⟩ := run_of_ofCheck stopped
    simp only [take, hrun]
    exact (memory_of_run_checkHealth hrun).1 rfl
  | .monitor phase, stopped => exact inactive_monitorStep stopped
  | .start other strictness, stopped => exact absurd stopped (ofStart_ne_stopped _ _)
  | .list, stopped => exact absurd stopped (ofRefresh_ne_stopped _)
  | .refresh, stopped => exact absurd stopped (ofRefresh_ne_stopped _)

/-- **Starting what is active is idempotent, over runs.** Once a configuration has been started, and
as long as no stop and no start of anything else succeeds, every further start of it succeeds, skips
nothing and changes nothing but the number of requests: the registry with its calls, the memory and
the parameters are what they were. Whatever is stored and read meanwhile, whatever the registry
holds, whatever fails and whoever crashes, as long as it is not the publisher. What supersedes it
ends that: then it is not active any more. -/
theorem start_idempotent (m : Manager) (rig made : Rig) (earlier : List Move) (name : String)
    (first : Strictness) (madeOn : m.MadeOn rig made) :
    let before := m.takeAll made earlier
    (m.start name first).Succeeds before →
      ∀ after, m.Stays name (m.take before (.start name first)) after →
        after.memory.activeName = some name ∧
        (∀ strictness, ∃ final, (m.start name strictness).run after = (some (.ok []), final) ∧
          final.hushed = { after.hushed with numbers := after.numbers + 1 }) ∧
        ∀ move, m.Supersedes name after move → after.PublisherCrashed (m.take after move) ∨
          (m.take after move).memory.activeName ≠ some name := by
  rintro before ⟨skipped, started, hrun⟩ after hstays
  have htagged : before.memory.Tagged := tagged_takeAll madeOn.tagged earlier
  have hstarted : (m.take before (.start name first)).memory.activeName = some name := by
    show ((m.start name first).run before).2.memory.activeName = some name
    rw [hrun]
    exact activeName_of_run_start htagged hrun
  have hactive : after.memory.activeName = some name := by
    rw [ManagerState.activeName, hstays.active hstarted]
    exact hstarted
  refine ⟨hactive, run_start_active hactive, ?_⟩
  rintro move (hstopped | hother | hcrashed)
  · refine .inr ?_
    rw [ManagerState.activeName, inactive_of_stopped hstopped]
    exact (Option.some_ne_none name).symm
  · obtain ⟨other, strictness, rfl, hne, skipped', final, hfinal⟩ := hother.exists_start
    refine .inr fun hsame => hne ?_
    have hnow := activeName_of_run_start (hstays.tagged (tagged_take htagged _)) hfinal
    simp only [take, hfinal] at hsame
    exact Option.some.inj (hnow.symm.trans hsame)
  · exact .inl hcrashed

/-- The catalog forgets handling, feeding is asked for in vain, the registry loses everything. -/
def handlingLeft : List Move :=
  [.access (.insert "control_configurations" (.array [.definition "feeding" [("gate", "lift")]])),
    .refresh, .registry ((SimRegistry.fresh .zero .zero).failLoad "gate"),
    .start "feeding" .strict, .registry (.fresh .zero .zero)]

theorem start_idempotent_handling_left :
    let left := (Manager.usual.status.run (Manager.usual.takeAll .handling handlingLeft)).2
    (left.memory.catalog.find? "handling" = none ∧ left.registry.loaded = ∅) ∧
      ∃ final, (Manager.usual.start "handling" .strict).run left = (some (.ok []), final) ∧
        final.registry = left.registry ∧ final.memory = left.memory ∧
        final.params.text? Manager.usual.settings.statusKey = some "handling" := by
  intro left
  have hquiet : Manager.usual.Throughout
      (fun rig move => ¬ Manager.usual.Supersedes "handling" rig move) .handling handlingLeft :=
    ⟨by decide +kernel, by decide +kernel, by decide +kernel, by decide +kernel,
      by decide +kernel, trivial⟩
  obtain ⟨-, hagain, -⟩ := start_idempotent .usual .workshop (Manager.usual.made .workshop) []
    "handling" .strict (madeOn_made (by decide +kernel)) (by decide +kernel) left
    (.status (Stays.takeAll (.refl _) hquiet))
  obtain ⟨final, hrun, hsame⟩ := hagain .strict
  have hparams : final.params = left.params := (congrArg Rig.params hsame :)
  refine ⟨by decide +kernel, final, hrun, (congrArg Rig.registry hsame :),
    (congrArg Rig.memory hsame :), ?_⟩
  rw [hparams]
  decide +kernel

end Manager

end ControlRig
