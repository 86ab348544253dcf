import ControlRig.Proofs.Manager.Stop
import ControlRig.Proofs.Settings.Acceptance

/-!
# The rounds of the monitor

Which calls the monitor makes, and when, cannot be seen from where it stands. So it is written down
once more with a record of its calls (`Manager.recordStep`); erasing the record gives the monitor
back (`erase_recordStep`). A `Patrol` is the monitor at work among others, who do what they like
between its phases.

A monitor that nobody disturbs ends as its patrol does (`run_monitor_alone`).

As long as nobody wants it to end **the monitor checks the health on every so-many-th pass and on no
other**, and after the first check that fails it is over (`patrol_passes`). When it is to end it
stops the active configuration once, and that is its outcome (`patrol_ends`).
-/

namespace ControlRig

/-- Something that the monitor asks of the manager, with the answer. -/
inductive MonitorCall where
  | check (answer : Except ManagerError Bool)
  | stop (strictness : Strictness) (outcome : Except ManagerError Unit)

def MonitorPhase.isPassing : MonitorPhase → Bool
  | .passing _ => true
  | .starting | .ending | .over _ => false

namespace Manager

open Procedure

variable {m : Manager} {rig after : Rig}

/-! ## Keeping a record -/

/-- A pass of the loop, with a record of the check. -/
def recordPass (m : Manager) (loop : MonitorLoop) :
    Procedure (MonitorPhase × List MonitorCall) := do
  if ← of .exitRequested then return (.ending, [])
  else if m.CheckDue loop then
    let answer ← m.checkHealth
    return (← m.concludePass { loop with tick := loop.tick + 1 } answer, [.check answer])
  else return (← monitorWait { loop with tick := loop.tick + 1 }, [])

/-- From one phase to the next, with a record of the calls on the way. -/
def recordStep (m : Manager) : MonitorPhase → Procedure (MonitorPhase × List MonitorCall)
  | .starting => do return (.passing (← m.monitorStart), [])
  | .passing loop => m.recordPass loop
  | .ending => do
    inform "exit requested, stopping the running configuration"
    let outcome ← m.stop .bestEffort
    return (.over outcome, [.stop .bestEffort outcome])
  | .over outcome => return (.over outcome, [])

theorem erase_recordPass (m : Manager) (loop : MonitorLoop) :
    (m.recordPass loop >>= fun told => .done told.1) = m.monitorPass loop := by
  unfold recordPass
  rw [Procedure.bind_assoc]
  by_cases hdue : m.CheckDue loop
  · rw [m.monitorPass_of_due hdue]
    congr 1
    funext ends
    cases ends with
    | true => rfl
    | false =>
      simp only [Bool.false_eq_true, if_false, if_pos hdue, Procedure.bind_assoc]
      congr 1
      funext answer
      exact Procedure.bind_done _
  · rw [m.monitorPass_of_not_due hdue]
    congr 1
    funext ends
    cases ends with
    | true => rfl
    | false =>
      simp only [Bool.false_eq_true, if_false, if_neg hdue, Procedure.bind_assoc]
      exact Procedure.bind_done _

/-- **Erasing the record gives the monitor back.** -/
theorem erase_recordStep (m : Manager) (phase : MonitorPhase) :
    (m.recordStep phase >>= fun told => .done told.1) = m.monitorStep phase := by
  match phase with
  | .passing loop => exact m.erase_recordPass loop
  | .over outcome => rfl
  | .starting | .ending =>
    unfold recordStep monitorStep monitorEnd
    simp only [Procedure.bind_assoc]
    rfl

/-- **What a phase comes to, and with which calls.** -/
inductive Records (m : Manager) (rig : Rig) :
    MonitorPhase → MonitorPhase → List MonitorCall → Rig → Prop
  | begun {loop : MonitorLoop} {after : Rig} : loop.tick = 0 →
      Records m rig .starting (.passing loop) [] after
  | ends {loop : MonitorLoop} {after : Rig} : rig.exitRequested = true →
      Records m rig (.passing loop) .ending [] after
  | passes {loop next : MonitorLoop} {after : Rig} : rig.exitRequested = false →
      ¬ m.CheckDue loop → next.tick = loop.tick + 1 →
      Records m rig (.passing loop) (.passing next) [] after
  | checks {loop next : MonitorLoop} {found : Bool} {after : Rig} : rig.exitRequested = false →
      m.CheckDue loop → next.tick = loop.tick + 1 →
      Records m rig (.passing loop) (.passing next) [.check (.ok found)] after
  | fails {loop : MonitorLoop} {e : ManagerError} {after : Rig} : rig.exitRequested = false →
      m.CheckDue loop → Records m rig (.passing loop) (.over (.error e)) [.check (.error e)] after
  | stops {outcome : Except ManagerError Unit} {after : Rig} :
      (outcome = .ok () → after.memory.active = none ∧ after.registry.loaded = ∅) →
      Records m rig .ending (.over outcome) [.stop .bestEffort outcome] after
  | rests {outcome : Except ManagerError Unit} {after : Rig} :
      Records m rig (.over outcome) (.over outcome) [] after

/-- A pass on which a check is due has made it. -/
theorem calls_of_due {loop : MonitorLoop} {told : MonitorPhase × List MonitorCall}
    (run : (m.recordPass loop).run rig = (some told, after)) (goesOn : rig.exitRequested = false)
    (due : m.CheckDue loop) : ∃ answer,
      (m.checkHealth.run (rig.elapse Rig.lookTime)).1 = some answer ∧
      told.2 = [.check answer] := by
  obtain ⟨ends, looked, hlook, hrest⟩ := run_bind_some.1 run
  cases hlook
  rw [goesOn, if_neg Bool.false_ne_true, if_pos due] at hrest
  obtain ⟨answer, mid, hcheck, hrest⟩ := run_bind_some.1 hrest
  obtain ⟨_, _, -, hdone⟩ := run_bind_some.1 hrest
  cases hdone
  exact ⟨answer, by rw [hcheck], rfl⟩

/-- Any other pass has called nothing. -/
theorem calls_of_undue {loop : MonitorLoop} {told : MonitorPhase × List MonitorCall}
    (run : (m.recordPass loop).run rig = (some told, after))
    (undue : rig.exitRequested = true ∨ ¬ m.CheckDue loop) : told.2 = [] := by
  obtain ⟨ends, looked, hlook, hrest⟩ := run_bind_some.1 run
  cases hlook
  cases hexit : rig.exitRequested with
  | true =>
    rw [hexit] at hrest
    cases hrest
    rfl
  | false =>
    rw [hexit] at undue hrest
    rw [if_neg Bool.false_ne_true, if_neg (undue.resolve_left Bool.false_ne_true)] at hrest
    obtain ⟨_, _, -, hdone⟩ := run_bind_some.1 hrest
    cases hdone
    rfl

theorem Monitors.records {loop : MonitorLoop} {told : MonitorPhase × List MonitorCall}
    (h : m.Monitors rig (.passing loop) told.1 after)
    (run : (m.recordPass loop).run rig = (some told, after)) :
    m.Records rig (.passing loop) told.1 told.2 after := by
  obtain ⟨next, calls⟩ := told
  cases h with
  | ends hexit =>
    cases calls_of_undue run (.inl hexit)
    exact .ends hexit
  | passes hexit hdue htick =>
    cases calls_of_undue run (.inr hdue)
    exact .passes hexit hdue htick
  | checks hexit hdue htick hfound =>
    obtain ⟨answer, hanswer, hcalls⟩ := calls_of_due run hexit hdue
    cases hcalls
    cases hfound.symm.trans hanswer
    exact .checks hexit hdue htick
  | fails hexit hdue hfailed =>
    obtain ⟨answer, hanswer, hcalls⟩ := calls_of_due run hexit hdue
    cases hcalls
    cases hfailed.symm.trans hanswer
    exact .fails hexit hdue

theorem run_recordStep (m : Manager) (calm : rig.armed = ∅) (phase : MonitorPhase) :
    ∃ next calls after, (m.recordStep phase).run rig = (some (next, calls), after) ∧
      m.Records rig phase next calls after := by
  match phase with
  | .starting => exact ⟨_, _, _, rfl, .begun rfl⟩
  | .passing loop =>
    obtain ⟨next, after, hrun, hmonitors⟩ := m.run_monitorPass calm loop
    rw [← m.erase_recordPass loop] at hrun
    obtain ⟨told, _, hrecord, hdone⟩ := run_bind_some.1 hrun
    cases hdone
    exact ⟨_, _, after, hrecord, hmonitors.records hrecord⟩
  | .ending =>
    have hnoted := rig.alike_note .info "exit requested, stopping the running configuration"
    obtain ⟨outcome, after, hstop, htransits⟩ := run_stop (m := m) (hnoted.calm calm) .bestEffort
    refine ⟨_, _, after, run_bind_some.2 ⟨(), _, run_inform _ rig,
      run_bind_some.2 ⟨_, after, hstop, rfl⟩⟩, .stops fun hok => ?_⟩
    cases outcome with
    | error e => cases hok
    | ok record =>
      obtain ⟨t, hmemory⟩ := (htransits.noted (hnoted.calm calm)).memory
      refine ⟨?_, htransits.emptied⟩
      rw [hmemory]
      rfl
  | .over outcome => exact ⟨_, _, _, rfl, .rests⟩

/-! ## The monitor among others -/

/-- How far a monitor has come: the rig that it has left, where it stands, and the calls that it has
made, each with the number of the phase in which it was made. -/
structure Patrol where
  rig : Rig
  phase : MonitorPhase
  calls : List (Nat × MonitorCall)

/-- The monitor after so many phases, when others make these moves before each of them. The first
phase only begins the loop, so that the number of a phase is the number of its pass. Should somebody
crash, the phase has not taken place. -/
def patrol (m : Manager) (others : Nat → List Move) (rig : Rig) : Nat → Patrol
  | 0 => ⟨rig, .starting, []⟩
  | n + 1 =>
    let before := patrol m others rig n
    match (m.recordStep before.phase).run (m.takeAll before.rig (others n)) with
    | (some (phase, calls), after) => ⟨after, phase, before.calls ++ calls.map (n, ·)⟩
    | (none, after) => { before with rig := after }

/-- What the monitor finds when a phase begins. -/
def findsAt (m : Manager) (others : Nat → List Move) (rig : Rig) (n : Nat) : Rig :=
  m.takeAll (m.patrol others rig n).rig (others n)

/-- The monitor sees that it is to end after so many complete passes, unless it is over by then. -/
def ExitSeenAfter (m : Manager) (others : Nat → List Move) (rig : Rig) (passes : Nat) : Prop :=
  ∀ n ≤ passes, (m.patrol others rig (n + 1)).phase.isPassing = true →
    (m.findsAt others rig (n + 1)).exitRequested = decide (n = passes)

instance (m : Manager) (others : Nat → List Move) (rig : Rig) (passes : Nat) :
    Decidable (m.ExitSeenAfter others rig passes) :=
  inferInstanceAs (Decidable (∀ n ≤ passes, _))

section Patrol

variable {others : Nat → List Move} {n passes : Nat}

/-- A phase of the patrol is a move like any other. -/
theorem rig_patrol_succ (m : Manager) (others : Nat → List Move) (rig : Rig) (n : Nat) :
    (m.patrol others rig (n + 1)).rig =
      m.take (m.findsAt others rig n) (.monitor (m.patrol others rig n).phase) := by
  show _ = ((m.monitorStep _).run _).2
  rw [← erase_recordStep, run_bind, patrol, findsAt]
  cases (m.recordStep _).run _ with
  | mk told after => cases told <;> rfl

theorem calm_patrol (m : Manager) (others : Nat → List Move) (calm : rig.armed = ∅) (n : Nat) :
    (m.patrol others rig n).rig.armed = ∅ := by
  induction n with
  | zero => exact calm
  | succ n ih =>
    rw [rig_patrol_succ]
    exact m.calm_take (m.calm_takeAll ih _) _

/-- Where nobody is to crash every phase takes place. -/
theorem patrol_succ (m : Manager) (others : Nat → List Move) (calm : rig.armed = ∅) (n : Nat) :
    ∃ calls, (m.recordStep (m.patrol others rig n).phase).run (m.findsAt others rig n) =
        (some ((m.patrol others rig (n + 1)).phase, calls), (m.patrol others rig (n + 1)).rig) ∧
      (m.patrol others rig (n + 1)).calls = (m.patrol others rig n).calls ++ calls.map (n, ·) ∧
      m.Records (m.findsAt others rig n) (m.patrol others rig n).phase
        (m.patrol others rig (n + 1)).phase calls (m.patrol others rig (n + 1)).rig := by
  obtain ⟨next, calls, after, hrun, hrecords⟩ := m.run_recordStep
    (m.calm_takeAll (m.calm_patrol others calm n) (others n)) (m.patrol others rig n).phase
  refine ⟨calls, ?_⟩
  rw [patrol, hrun]
  exact ⟨hrun, rfl, hrecords⟩

/-- A monitor that is over stays so, and asks for nothing any more. -/
theorem patrol_of_over {outcome : Except ManagerError Unit} (m : Manager)
    (others : Nat → List Move) (calm : rig.armed = ∅)
    (isOver : (m.patrol others rig n).phase = .over outcome) {later : Nat} (reached : n ≤ later) :
    (m.patrol others rig later).phase = .over outcome ∧
      (m.patrol others rig later).calls = (m.patrol others rig n).calls := by
  induction reached with
  | refl => exact ⟨isOver, rfl⟩
  | @step later _ ih =>
    obtain ⟨calls, -, hcalls, hrecords⟩ := m.patrol_succ others calm later
    rw [ih.1] at hrecords
    generalize (m.patrol others rig (later + 1)).phase = next at hrecords ⊢
    cases hrecords with
    | rests => exact ⟨rfl, (hcalls.trans (List.append_nil _)).trans ih.2⟩

/-! ## The monitor alone -/

/-- Others who do nothing. -/
abbrev nobody : Nat → List Move := fun _ => []

theorem run_patrol_alone (m : Manager) (calm : rig.armed = ∅) (n : Nat) :
    (m.monitorStep (m.patrol nobody rig n).phase).run (m.patrol nobody rig n).rig =
      (some (m.patrol nobody rig (n + 1)).phase, (m.patrol nobody rig (n + 1)).rig) := by
  obtain ⟨calls, hrun, -, -⟩ := m.patrol_succ nobody calm n
  have hfinds : m.findsAt nobody rig n = (m.patrol nobody rig n).rig := rfl
  rw [hfinds] at hrun
  rw [← erase_recordStep, run_bind, hrun]
  rfl

/-- Where nobody else does anything, nothing changes any more once the monitor is over. -/
theorem patrol_alone_of_over {n later : Nat} {outcome : Except ManagerError Unit}
    (isOver : (m.patrol nobody rig n).phase = .over outcome) (reached : n ≤ later) :
    m.patrol nobody rig later = m.patrol nobody rig n := by
  induction reached with
  | refl => rfl
  | @step later _ ih =>
    rw [patrol, ih, isOver]
    show Patrol.mk _ _ (_ ++ []) = _
    rw [List.append_nil, ← isOver]
    rfl

/-- The loop goes on if it is still passing. -/
def watchOn (m : Manager) (passes : Nat) : MonitorPhase → Procedure MonitorPhase
  | .passing loop => m.watch passes loop
  | phase => return phase

theorem watch_succ (m : Manager) (passes : Nat) (loop : MonitorLoop) :
    m.watch (passes + 1) loop = m.monitorPass loop >>= m.watchOn passes := rfl

/-- The loop goes as far as the patrol goes with it. -/
theorem run_watch_alone (m : Manager) (calm : rig.armed = ∅) (passes : Nat) {n : Nat}
    {loop : MonitorLoop} (passing : (m.patrol nobody rig n).phase = .passing loop) :
    ∃ went, (m.watch passes loop).run (m.patrol nobody rig n).rig =
        (some (m.patrol nobody rig (n + went)).phase, (m.patrol nobody rig (n + went)).rig) ∧
      ((m.patrol nobody rig (n + went)).phase.isPassing = true → went = passes) := by
  induction passes generalizing n loop with
  | zero => exact ⟨0, by rw [Nat.add_zero, passing]; rfl, fun _ => rfl⟩
  | succ passes ih =>
    have hpass : (m.monitorPass loop).run (m.patrol nobody rig n).rig =
        (some (m.patrol nobody rig (n + 1)).phase, (m.patrol nobody rig (n + 1)).rig) := by
      rw [← m.run_patrol_alone calm n, passing]
      rfl
    rw [watch_succ, run_bind, hpass]
    by_cases hon : ∃ next, (m.patrol nobody rig (n + 1)).phase = .passing next
    · obtain ⟨next, hnext⟩ := hon
      obtain ⟨went, hrun, hall⟩ := ih hnext
      refine ⟨went + 1, ?_, ?_⟩
      · rw [hnext, ← Nat.add_assoc, Nat.add_right_comm]
        exact hrun
      · rw [← Nat.add_assoc, Nat.add_right_comm]
        exact fun h => congrArg (· + 1) (hall h)
    · refine ⟨1, ?_⟩
      rcases hnext : (m.patrol nobody rig (n + 1)).phase with _ | next | _ | other
      · exact ⟨rfl, fun h => absurd h Bool.false_ne_true⟩
      · exact absurd ⟨next, hnext⟩ hon
      · exact ⟨rfl, fun h => absurd h Bool.false_ne_true⟩
      · exact ⟨rfl, fun h => absurd h Bool.false_ne_true⟩

/-- **A monitor that nobody disturbs** ends as its patrol does. -/
theorem run_monitor_alone (m : Manager) (calm : rig.armed = ∅) {passes last : Nat}
    {outcome : Except ManagerError Unit} (enough : last ≤ passes + 1)
    (isOver : (m.patrol nobody rig last).phase = .over outcome) :
    (m.monitor passes).run rig = (some (some outcome), (m.patrol nobody rig last).rig) := by
  obtain ⟨loop, hloop⟩ : ∃ loop, (m.patrol nobody rig 1).phase = .passing loop := ⟨_, rfl⟩
  obtain ⟨went, hrun, hall⟩ := m.run_watch_alone calm passes hloop
  have hstep := m.run_patrol_alone calm (1 + went)
  cases hloop
  refine run_bind_some.2 ⟨_, _, rfl, run_bind_some.2 ⟨_, _, hrun, ?_⟩⟩
  -- the patrol stays where it is over, so it has not got there before the loop has
  have hstays : ∀ phase, (m.patrol nobody rig (1 + went)).phase = phase →
      (∀ other, phase ≠ .over other) → 1 + went < last := by
    rintro phase hphase hgoing
    refine Nat.lt_of_not_le fun hearly => hgoing outcome ?_
    rw [← hphase, patrol_alone_of_over isOver hearly, isOver]
  match hphase : (m.patrol nobody rig (1 + went)).phase with
  | .starting =>
    obtain ⟨calls, -, -, hrecords⟩ := m.patrol_succ nobody calm went
    rw [Nat.add_comm went 1, hphase] at hrecords
    generalize (m.patrol nobody rig went).phase = before at hrecords
    cases hrecords
  | .passing next =>
    rw [hphase] at hall
    have := hstays _ hphase fun _ h => by cases h
    have := hall rfl
    omega
  | .ending =>
    rw [hphase] at hstep
    obtain ⟨other, mid, hend, hdone⟩ := run_bind_some.1 hstep
    have hover : (m.patrol nobody rig (1 + went + 1)).phase = .over other :=
      (Option.some.inj (congrArg Prod.fst hdone)).symm
    have hlast := patrol_alone_of_over hover (hstays _ hphase fun _ h => by cases h)
    rw [hlast] at isOver ⊢
    cases hover.symm.trans isOver
    exact run_bind_some.2 ⟨outcome, mid, hend, congrArg (some (some outcome), ·.2) hdone⟩
  | .over other =>
    have hlast : m.patrol nobody rig last = m.patrol nobody rig (1 + went) := by
      rcases Nat.le_total last (1 + went) with hle | hle
      · exact (patrol_alone_of_over isOver hle).symm
      · exact patrol_alone_of_over hphase hle
    rw [hlast] at isOver ⊢
    cases hphase.symm.trans isOver
    rfl

/-! ## The schedule of the checks -/

/-- The passes up to this one on which a check is due. -/
def dueBy (every passes : Nat) : List Nat :=
  (List.range' 1 passes).filter (every ∣ ·)

theorem dueBy_succ (every passes : Nat) :
    dueBy every (passes + 1) =
      dueBy every passes ++ if every ∣ passes + 1 then [passes + 1] else [] := by
  rw [dueBy, List.range'_1_concat, List.filter_append, Nat.add_comm 1 passes, dueBy]
  by_cases hdue : every ∣ passes + 1 <;> simp [hdue]

example : dueBy 3 10 = [3, 6, 9] := by decide

/-- One check has been made on each of the passes on which it was due, and all of them succeeded. -/
structure Checked (every passes : Nat) (calls : List (Nat × MonitorCall)) : Prop where
  times : calls.map Prod.fst = dueBy every passes
  succeeded : ∀ call ∈ calls, ∃ found, call.2 = .check (.ok found)

theorem Checked.begun (every : Nat) : Checked every 0 [] :=
  ⟨rfl, fun _ hcall => absurd hcall List.not_mem_nil⟩

theorem Checked.undue {every : Nat} {calls : List (Nat × MonitorCall)}
    (h : Checked every passes calls) (undue : ¬ every ∣ passes + 1) :
    Checked every (passes + 1) calls := by
  refine ⟨?_, h.succeeded⟩
  rw [dueBy_succ, if_neg undue, List.append_nil]
  exact h.times

theorem Checked.due {every : Nat} {calls : List (Nat × MonitorCall)}
    (h : Checked every passes calls) (due : every ∣ passes + 1) (found : Bool) :
    Checked every (passes + 1) (calls ++ [(passes + 1, .check (.ok found))]) := by
  constructor
  · rw [dueBy_succ, if_pos due, List.map_append, h.times]
    rfl
  · intro call hcall
    rcases List.mem_append.1 hcall with hold | hnew
    · exact h.succeeded call hold
    · rw [List.mem_singleton.1 hnew]
      exact ⟨found, rfl⟩

/-- The monitor has come through so many passes. -/
structure Through (m : Manager) (others : Nat → List Move) (rig : Rig) (passes : Nat) : Prop where
  passing : ∃ loop : MonitorLoop,
    (m.patrol others rig (passes + 1)).phase = .passing loop ∧ loop.tick = passes
  checked : Checked m.settings.monitor.healthCheckEvery passes
    (m.patrol others rig (passes + 1)).calls

/-- The check of the pass after so many has failed, and with that the monitor is over. -/
structure Fails (m : Manager) (others : Nat → List Move) (rig : Rig) (passes : Nat)
    (e : ManagerError) : Prop where
  through : m.Through others rig passes
  due : m.settings.monitor.healthCheckEvery ∣ passes + 1
  ended : (m.patrol others rig (passes + 2)).phase = .over (.error e)
  last : (m.patrol others rig (passes + 2)).calls =
    (m.patrol others rig (passes + 1)).calls ++ [(passes + 1, .check (.error e))]

theorem Through.begun (calm : rig.armed = ∅) : m.Through others rig 0 := by
  obtain ⟨calls, -, hcalls, hrecords⟩ := m.patrol_succ others calm 0
  generalize hphase : (m.patrol others rig 1).phase = next at hrecords
  cases hrecords with
  | @begun loop _ htick =>
    refine ⟨⟨loop, hphase, htick⟩, ?_⟩
    rw [hcalls]
    exact .begun _

/-- What a pass comes to as long as nobody wants the monitor to end. -/
theorem Through.onward (calm : rig.armed = ∅) (h : m.Through others rig passes)
    (wanted : (m.findsAt others rig (passes + 1)).exitRequested = false) :
    m.Through others rig (passes + 1) ∨ ∃ e, m.Fails others rig passes e := by
  obtain ⟨loop, hloop, rfl⟩ := h.passing
  have hdue : m.CheckDue loop ↔ m.settings.monitor.healthCheckEvery ∣ loop.tick + 1 :=
    Nat.dvd_iff_mod_eq_zero.symm
  obtain ⟨calls, -, hcalls, hrecords⟩ := m.patrol_succ others calm (loop.tick + 1)
  rw [hloop] at hrecords
  generalize hphase : (m.patrol others rig (loop.tick + 2)).phase = next at hrecords
  cases hrecords with
  | ends hexit =>
    rw [wanted] at hexit
    cases hexit
  | @passes _ next _ _ hundue htick =>
    refine .inl ⟨⟨next, hphase, htick⟩, ?_⟩
    rw [hcalls, List.map_nil, List.append_nil]
    exact h.checked.undue (mt hdue.2 hundue)
  | @checks _ next found _ _ hcheck htick =>
    refine .inl ⟨⟨next, hphase, htick⟩, ?_⟩
    rw [hcalls]
    exact h.checked.due (hdue.1 hcheck) found
  | @fails _ e _ _ hcheck => exact .inr ⟨e, h, hdue.1 hcheck, hphase, hcalls⟩

/-- **As long as nobody wants the monitor to end** it comes through its passes, with a check on
every one on which a check is due, unless one of these fails. -/
theorem patrol_passes (calm : rig.armed = ∅)
    (wanted : ∀ n < passes, m.Through others rig n →
      (m.findsAt others rig (n + 1)).exitRequested = false) :
    m.Through others rig passes ∨ ∃ earlier < passes, ∃ e, m.Fails others rig earlier e := by
  induction passes with
  | zero => exact .inl (.begun calm)
  | succ passes ih =>
    rcases ih fun n hn => wanted n (Nat.lt_succ_of_lt hn) with
      hthrough | ⟨earlier, hearlier, hfails⟩
    · rcases hthrough.onward calm (wanted passes (Nat.lt_succ_self _) hthrough) with hnext | hfails
      · exact .inl hnext
      · exact .inr ⟨passes, Nat.lt_succ_self _, hfails⟩
    · exact .inr ⟨earlier, Nat.lt_succ_of_lt hearlier, hfails⟩

/-! ## The end -/

/-- **How the monitor has ended**, with its calls: after a check that fails, or else, when it is to
end after so many passes, with one stop. -/
inductive Ended (every passes : Nat) :
    Nat → Except ManagerError Unit → List (Nat × MonitorCall) → Prop
  | failed {earlier : Nat} {e : ManagerError} {checks : List (Nat × MonitorCall)} :
      earlier < passes → every ∣ earlier + 1 → Checked every earlier checks →
      Ended every passes (earlier + 2) (.error e) (checks ++ [(earlier + 1, .check (.error e))])
  | stopped {outcome : Except ManagerError Unit} {checks : List (Nat × MonitorCall)} :
      Checked every passes checks → Ended every passes (passes + 3) outcome
        (checks ++ [(passes + 2, .stop .bestEffort outcome)])

/-- The monitor is over from then on, and not before. -/
theorem over_iff {outcome : Except ManagerError Unit} (calm : rig.armed = ∅) {last : Nat}
    (before : ∀ other, (m.patrol others rig last).phase ≠ .over other)
    (isOver : (m.patrol others rig (last + 1)).phase = .over outcome) :
    (∃ other, (m.patrol others rig n).phase = .over other) ↔ last < n := by
  constructor
  · rintro ⟨other, hover⟩
    refine Nat.lt_of_not_le fun hearly => ?_
    exact before other (m.patrol_of_over others calm hover hearly).1
  · exact fun hlate => ⟨outcome, (m.patrol_of_over others calm isOver hlate).1⟩

/-- A monitor that has come through its passes and is to end then. -/
theorem Through.stopped (calm : rig.armed = ∅) (h : m.Through others rig passes)
    (wanted : (m.findsAt others rig (passes + 1)).exitRequested = true) :
    (m.patrol others rig (passes + 2)).phase = .ending ∧ ∃ outcome,
      (m.patrol others rig (passes + 3)).phase = .over outcome ∧
      (m.patrol others rig (passes + 3)).calls =
        (m.patrol others rig (passes + 1)).calls ++
          [(passes + 2, .stop .bestEffort outcome)] ∧
      (outcome = .ok () → (m.patrol others rig (passes + 3)).rig.memory.active = none ∧
        (m.patrol others rig (passes + 3)).rig.registry.loaded = ∅) := by
  obtain ⟨loop, hloop, -⟩ := h.passing
  obtain ⟨seen, -, hseen, hrecords⟩ := m.patrol_succ others calm (passes + 1)
  rw [hloop] at hrecords
  generalize hending : (m.patrol others rig (passes + 2)).phase = next at hrecords
  cases hrecords with
  | ends =>
    refine ⟨rfl, ?_⟩
    obtain ⟨calls, -, hcalls, hrecords⟩ := m.patrol_succ others calm (passes + 2)
    rw [hending] at hrecords
    generalize hover : (m.patrol others rig (passes + 3)).phase = next at hrecords
    cases hrecords with
    | @stops outcome _ hok =>
      refine ⟨outcome, rfl, ?_, hok⟩
      rw [hcalls, hseen]
      simp
  | passes hexit | checks hexit | fails hexit =>
    rw [wanted] at hexit
    cases hexit

/-- **The rounds of the monitor.** With settings that are accepted, whatever others do between its
phases: if it is to end after so many passes it checks the health on every so-many-th of them and on
no other. If a check fails it is over with that error and makes no other call. Otherwise it stops
what is active once, with best effort, and is over with the outcome of that. If it is over with
success nothing is active then and nothing is loaded.

The record changes nothing: without it the steps of a patrol are those of the monitor, and where
nobody else does anything the whole monitor comes to the same end, if enough passes are made. -/
theorem patrol_ends (m : Manager) (others : Nat → List Move) (rig : Rig) (passes : Nat)
    (accepted : m.settings.problem = none) (calm : rig.armed = ∅)
    (schedule : m.ExitSeenAfter others rig passes) :
    0 < m.settings.monitor.healthCheckEvery ∧
    (∀ phase, (m.recordStep phase >>= fun told => .done told.1) = m.monitorStep phase) ∧
    ∃ last outcome,
      (∀ n, (∃ other, (m.patrol others rig n).phase = .over other) ↔ last ≤ n) ∧
      (∀ n, last ≤ n → (m.patrol others rig n).phase = .over outcome ∧
        Ended m.settings.monitor.healthCheckEvery passes last outcome
          (m.patrol others rig n).calls) ∧
      (outcome = .ok () → (m.patrol others rig last).rig.memory.active = none ∧
        (m.patrol others rig last).rig.registry.loaded = ∅) ∧
      (others = nobody → ∀ enough, last ≤ enough + 1 →
        (m.monitor enough).run rig = (some (some outcome), (m.patrol others rig last).rig)) := by
  refine ⟨Settings.healthCheckEvery_pos accepted, m.erase_recordStep, ?_⟩
  have hseen : ∀ n ≤ passes, m.Through others rig n →
      (m.findsAt others rig (n + 1)).exitRequested = decide (n = passes) := by
    intro n hn hthrough
    obtain ⟨loop, hloop, -⟩ := hthrough.passing
    refine schedule n hn ?_
    rw [hloop]
    rfl
  have hunwanted : ∀ n < passes, m.Through others rig n →
      (m.findsAt others rig (n + 1)).exitRequested = false := by
    intro n hn hthrough
    rw [hseen n (Nat.le_of_lt hn) hthrough, decide_eq_false (Nat.ne_of_lt hn)]
  have halone : ∀ {last : Nat} {outcome : Except ManagerError Unit},
      (m.patrol others rig last).phase = .over outcome → others = nobody →
      ∀ enough, last ≤ enough + 1 →
        (m.monitor enough).run rig = (some (some outcome), (m.patrol others rig last).rig) := by
    rintro last outcome hover rfl enough hlast
    exact m.run_monitor_alone calm hlast hover
  rcases patrol_passes calm hunwanted with hthrough | ⟨earlier, hearlier, e, hfails⟩
  · have hwanted := (hseen passes (Nat.le_refl passes) hthrough).trans (decide_eq_true rfl)
    obtain ⟨hending, outcome, hover, hcalls, hok⟩ := hthrough.stopped calm hwanted
    refine ⟨passes + 3, outcome, fun n => over_iff calm ?_ hover, fun n hn => ?_, hok,
      halone hover⟩
    · rw [hending]
      exact fun _ h => by cases h
    · obtain ⟨hstays, hsame⟩ := m.patrol_of_over others calm hover hn
      refine ⟨hstays, ?_⟩
      rw [hsame, hcalls]
      exact .stopped hthrough.checked
  · refine ⟨earlier + 2, .error e, fun n => over_iff calm ?_ hfails.ended, fun n hn => ?_, nofun,
      halone hfails.ended⟩
    · obtain ⟨loop, hloop, -⟩ := hfails.through.passing
      rw [hloop]
      exact fun _ h => by cases h
    · obtain ⟨hstays, hsame⟩ := m.patrol_of_over others calm hfails.ended hn
      refine ⟨hstays, ?_⟩
      rw [hsame, hfails.last]
      exact .failed hearlier hfails.due hfails.through.checked

end Patrol

/-- Every second pass has a check. -/
def attentive : Manager :=
  ⟨{ Settings.standard with monitor := { MonitorSettings.standard with healthCheckEvery := 2 } },
    SimRegistry.name⟩

/-- The arm is lost before the second pass, welding is started before the third, and the monitor is
to end before the fourth. -/
def armLostMeanwhile : Nat → List Move
  | 2 => [.registry (Rig.handling.registry.forget "arm")]
  | 3 => [.start "welding" .strict]
  | 4 => [.exit .now]
  | _ => []

/-- There is one check, which stops handling, and then one stop, which stops welding. -/
theorem patrol_ends_arm_lost :
    (attentive.patrol armLostMeanwhile .handling 5).rig.memory.activeName = some "welding" ∧
    (attentive.patrol armLostMeanwhile .handling 6).calls =
      [(2, .check (.ok true)), (5, .stop .bestEffort (.ok ()))] ∧
    (attentive.patrol armLostMeanwhile .handling 6).rig.memory.active = none ∧
    (attentive.patrol armLostMeanwhile .handling 6).rig.registry.loaded = ∅ := by
  obtain ⟨-, -, last, outcome, hover, hends, hok, -⟩ := patrol_ends attentive armLostMeanwhile
    .handling 3 (by decide +kernel) (by decide +kernel) (by decide +kernel)
  have hending : (attentive.patrol armLostMeanwhile .handling 5).phase = .ending := rfl
  have hphase : (attentive.patrol armLostMeanwhile .handling 6).phase = .over (.ok ()) := rfl
  have hreached : last ≤ 6 := (hover 6).1 ⟨_, hphase⟩
  have hlate : ¬ last ≤ 5 := by
    intro hearly
    obtain ⟨other, hother⟩ := (hover 5).2 hearly
    cases hending.symm.trans hother
  obtain rfl : last = 6 := by omega
  cases hphase.symm.trans (hends 6 hreached).1
  exact ⟨by decide +kernel, rfl, hok rfl⟩

end Manager

end ControlRig
