import ControlRig.Proofs.Manager.Soundness
import ControlRig.Proofs.Manager.Status
import ControlRig.Proofs.Manager.Turns
import ControlRig.Server.Serving

/-!
# The stops of the monitor

The monitor tells no more of its stops than that the last one failed, or that none did. Here it is
written down once more so that each phase also tells the outcome of the stop that it has performed
(`Manager.tellLine`); forgetting what is told gives the monitor back (`forget_tellLine`). So from the
answers that the monitor's line was given, the outcomes of its stops are known (`Manager.Performs`).
**The monitor ends with success exactly if every stop that it has performed succeeded**
(`Performs.ok_iff`), because it ends with the first that fails.
-/

namespace ControlRig

/-- What a stop comes to. -/
abbrev StopOutcome := Except ManagerError Unit

/-- A phase that is not the last. -/
abbrev MonitorPhase.IsGoing (phase : MonitorPhase) : Prop := ∀ outcome, phase ≠ .over outcome

namespace Manager

open Procedure

variable (m : Manager)

/-! ## Telling -/

/-- Check the health, while the lock is held, and tell of the emergency stop if there is one. -/
def emergency (state : ManagerState) : Procedure (Option StopOutcome) := do
  match state.active with
  | none => return none
  | some active =>
    match ← faults active.resources.names with
    | [] => return none
    | found =>
      reportFaults active.name found
      warn "emergency stop"
      return some (← m.stopLocked .bestEffort state)

/-- The answer of a health check that has performed this stop. -/
def verdict : Option StopOutcome → Except ManagerError Bool
  | none => .ok false
  | some (.ok ()) => .ok true
  | some (.error e) => .error e

/-- What is left of the monitor's check after a health check that has performed this stop. -/
def afterCheck (loop : MonitorLoop) : Option StopOutcome → Procedure (Except ManagerError MonitorLoop)
  | some (.error e) => return .error e
  | some (.ok ()) => return .ok loop
  | none => do
    let (ready, heartbeat) := loop.heartbeat.ready (← now)
    if ready then
      let active ← m.activeName
      inform ("monitor alive, active configuration: " ++ nameOrNone active)
    return .ok { loop with heartbeat := heartbeat }

/-- The monitor's check, telling of the emergency stop. -/
def tellCheck (loop : MonitorLoop) :
    Procedure (Except ManagerError MonitorLoop × Option StopOutcome) := do
  if loop.tick % m.settings.monitor.healthCheckEvery ≠ 0 then return (.ok loop, none)
  else
    let stop ← withLock m.emergency
    return (← m.afterCheck loop stop, stop)

/-- A pass of the loop, telling of the emergency stop. -/
def tellPass (loop : MonitorLoop) : Procedure (MonitorPhase × Option StopOutcome) := do
  if ← of .exitRequested then return (.ending, none)
  else
    match ← m.tellCheck { loop with tick := loop.tick + 1 } with
    | (.error e, stop) => return (.over (.error e), stop)
    | (.ok loop, stop) => return (← monitorWait loop, stop)

/-- From one phase to the next, telling of the stop on the way. -/
def tellStep : MonitorPhase → Procedure (MonitorPhase × Option StopOutcome)
  | .starting => do return (.passing (← m.monitorStart), none)
  | .passing loop => m.tellPass loop
  | .ending => do
    let outcome ← m.monitorEnd
    return (.over outcome, some outcome)
  | .over outcome => return (.over outcome, none)

/-- The line of the monitor that goes on to the next phase, telling of the stop on the way. -/
def tellLine (phase : MonitorPhase) : Procedure (MonitorPhase × Option StopOutcome) := do
  match ← m.tellStep phase with
  | (.over outcome, stop) =>
    reportEnd outcome
    return (.over outcome, stop)
  | told => return told

/-! ## Forgetting -/

theorem forget_emergency (state : ManagerState) :
    (m.emergency state >>= fun stop => .done (verdict stop)) = m.checkHealthLocked state := by
  unfold checkHealthLocked emergency
  cases state.active with
  | none => rfl
  | some active =>
    dsimp only
    rw [Procedure.bind_assoc]
    congr 1
    funext found
    cases found with
    | nil => rfl
    | cons fault rest =>
      -- the report, the warning and the stop are the same; only the value is told differently
      simp only [Procedure.bind_assoc]
      congr 1
      funext _
      congr 1
      funext _
      congr 1
      funext outcome
      cases outcome <;> rfl

theorem forget_tellCheck (loop : MonitorLoop) :
    (m.tellCheck loop >>= fun told => .done told.1) = m.monitorCheck loop := by
  have hcheck : m.checkHealth = withLock m.emergency >>= fun stop => .done (verdict stop) := by
    rw [withLock_bind_done]
    exact congrArg withLock (funext fun state => (m.forget_emergency state).symm)
  unfold tellCheck monitorCheck
  split
  · rfl
  · rw [hcheck]
    simp only [Procedure.bind_assoc]
    congr 1
    funext stop
    rcases stop with _ | ⟨e | _⟩
    · exact Procedure.bind_done _
    · rfl
    · rfl

theorem forget_tellPass (loop : MonitorLoop) :
    (m.tellPass loop >>= fun told => .done told.1) = m.monitorPass loop := by
  rw [monitorPass_eq]
  unfold tellPass
  rw [Procedure.bind_assoc]
  congr 1
  funext ends
  cases ends with
  | true => rfl
  | false =>
    rw [← forget_tellCheck, if_neg Bool.false_ne_true, Procedure.bind_assoc]
    simp only [Bool.false_eq_true, if_false, Procedure.bind_assoc]
    congr 1
    funext told
    obtain ⟨e | loop, stop⟩ := told
    · rfl
    · show (monitorWait loop >>= fun next => .done (next, stop)) >>= _ = monitorWait loop
      rw [Procedure.bind_assoc]
      exact Procedure.bind_done _

theorem forget_tellStep (phase : MonitorPhase) :
    (m.tellStep phase >>= fun told => .done told.1) = m.monitorStep phase := by
  match phase with
  | .passing loop => exact m.forget_tellPass loop
  | .over outcome => rfl
  | .starting | .ending =>
    unfold tellStep monitorStep
    rw [Procedure.bind_assoc]
    rfl

/-- **Forgetting what is told gives the monitor back.** -/
theorem forget_tellLine (phase : MonitorPhase) :
    (m.tellLine phase >>= fun told => .done (.monitor told.1)) =
      Server.Serving.monitorLine m phase := by
  unfold Server.Serving.monitorLine tellLine
  rw [← forget_tellStep, Procedure.bind_assoc, Procedure.bind_assoc]
  congr 1
  funext told
  obtain ⟨next, stop⟩ := told
  match next with
  | .over outcome =>
    rw [done_bind]
    dsimp only
    rw [Procedure.bind_assoc]
    rfl
  | .starting | .passing _ | .ending => rfl

/-! ## What a phase comes to -/

/-- A phase that ends the monitor has performed a stop and has its outcome; any other one has
performed none that failed. -/
def Candid : MonitorPhase × Option StopOutcome → Prop
  | (.over outcome, stop) => stop = some outcome
  | (_, stop) => ∀ outcome, stop = some outcome → outcome = .ok ()

theorem conducts_emergency (state : ManagerState) : m.Conducts (m.emergency state) := by
  unfold emergency
  split
  · trivial
  · rename_i active _
    refine ((faults_composed _).spares.soundAt _).bind fun found _ => ?_
    split
    · trivial
    · refine ((reportFaults_composed active.name _).spares.soundAt _).bind fun _ _ => ?_
      exact conducts_log _ _ ((m.conducts_stopLocked .bestEffort state).bind fun _ _ => trivial)

theorem conducts_monitorWait (loop : MonitorLoop) : (monitorWait loop).Sound
    (Action.WritesAt m.settings.statusKey) fun next => ∃ loop', next = .passing loop' := by
  refine Sound.bind (p := now) (sound_of trivial) fun t _ => ?_
  dsimp only
  split
  · exact (sound_of trivial).bind fun _ _ => ⟨_, rfl⟩
  · exact ⟨_, rfl⟩

theorem sound_lookAround (loop : MonitorLoop) : (m.afterCheck loop none).Sound
    (Action.WritesAt m.settings.statusKey) fun result => ∃ loop', result = .ok loop' := by
  refine Sound.bind (p := now) (sound_of trivial) fun t _ => ?_
  dsimp only
  split
  · exact m.conducts_activeName.bind fun _ _ => (sound_of trivial).bind fun _ _ => ⟨_, rfl⟩
  · exact ⟨_, rfl⟩

/-- A check that has performed no stop, or one that succeeded, lets the loop go on. -/
theorem sound_tellCheck (loop : MonitorLoop) : (m.tellCheck loop).Sound
    (Action.WritesAt m.settings.statusKey) fun told =>
      match told with
      | (.error e, stop) => stop = some (.error e)
      | (.ok _, stop) => ∀ outcome, stop = some outcome → outcome = .ok () := by
  unfold tellCheck
  split
  · exact nofun
  · refine (Sound.withLock (allowsLock_writesAt _) m.conducts_emergency).bind fun stop _ => ?_
    rcases stop with _ | ⟨e | _⟩
    · refine (m.sound_lookAround loop).bind ?_
      rintro _ ⟨loop', rfl⟩
      exact nofun
    · exact rfl
    · rintro _ ⟨⟩
      rfl

theorem sound_tellStep {phase : MonitorPhase} (h : phase.IsGoing) :
    (m.tellStep phase).Sound (Action.WritesAt m.settings.statusKey) Candid := by
  match phase, h with
  | .starting, _ => exact ⟨trivial, fun _ => ⟨trivial, fun _ => nofun⟩⟩
  | .passing loop, _ =>
    refine (sound_of trivial).bind fun ends _ => ?_
    split
    · exact nofun
    · refine (m.sound_tellCheck _).bind ?_
      rintro ⟨e | loop, stop⟩ hstop
      · exact hstop
      · refine (m.conducts_monitorWait loop).bind ?_
        rintro _ ⟨next, rfl⟩
        exact hstop
  | .ending, _ =>
    exact (conducts_log _ _ (m.conducts_stop .bestEffort)).bind fun outcome _ => rfl
  | .over outcome, h => exact absurd rfl (h outcome)

theorem sound_tellLine {phase : MonitorPhase} (h : phase.IsGoing) :
    (m.tellLine phase).Sound (Action.WritesAt m.settings.statusKey) Candid := by
  refine (m.sound_tellStep h).bind ?_
  rintro ⟨next, stop⟩ hstop
  match next, hstop with
  | .over outcome, hstop => exact (m.conducts_reportEnd outcome).bind fun _ _ => hstop
  | .starting, hstop | .passing _, hstop | .ending, hstop => exact hstop

theorem Candid.ok {next : MonitorPhase} {stop : Option StopOutcome} (h : Candid (next, stop))
    (going : next.IsGoing) : ∀ other ∈ stop.toList, other = .ok () := by
  intro other hother
  match next, h, going with
  | .over outcome, _, going => exact absurd rfl (going outcome)
  | .starting, h, _ | .passing _, h, _ | .ending, h, _ => exact h other (Option.mem_toList.1 hother)

/-! ## The whole watch -/

/-- The monitor comes from one phase to another, is given these answers on the way, and performs
these stops. -/
inductive Performs : MonitorPhase → List Told → List StopOutcome → MonitorPhase → Prop
  | here (phase : MonitorPhase) : Performs phase [] [] phase
  | next {phase next last : MonitorPhase} {trail told : List Told} {stop : Option StopOutcome}
      {stops : List StopOutcome} : phase.IsGoing →
      (m.tellLine phase).Follows trail (.done (next, stop)) → Performs next told stops last →
      Performs phase (trail ++ told) (stop.toList ++ stops) last

variable {m} {phase next last : MonitorPhase} {told trail : List Told} {stops : List StopOutcome}
  {outcome : Except ManagerError Unit}

theorem Performs.snoc {stop : Option StopOutcome} (h : m.Performs phase told stops next)
    (going : next.IsGoing)
    (tells : (m.tellLine next).Follows trail (.done (last, stop))) :
    m.Performs phase (told ++ trail) (stops ++ stop.toList) last := by
  induction h with
  | here next =>
    have hlast := Performs.next going tells (.here last)
    rwa [List.append_nil, List.append_nil] at hlast
  | next hgoing hfollows _ ih =>
    rw [List.append_assoc, List.append_assoc]
    exact .next hgoing hfollows (ih going tells)

/-- The stops of a monitor that is over are known from what it has been told. -/
theorem Performs.unique {stops' : List StopOutcome} {outcome' : Except ManagerError Unit}
    (h : m.Performs phase told stops (.over outcome))
    (h' : m.Performs phase told stops' (.over outcome')) : stops = stops' ∧ outcome = outcome' := by
  generalize hlast : MonitorPhase.over outcome = last at h
  generalize htold : told = told' at h'
  -- where a phase ends follows from what it was told, so both accounts part at the same places
  induction h generalizing stops' told' with
  | here phase =>
    cases h' with
    | here => exact ⟨rfl, MonitorPhase.over.inj hlast⟩
    | next hgoing => exact absurd hlast.symm (hgoing outcome)
  | next hgoing hfollows _ ih =>
    cases h' with
    | here => exact absurd rfl (hgoing outcome')
    | next _ hfollows' hrest' =>
      obtain ⟨-, heq, hsame⟩ := hfollows.unique hfollows' htold
      cases heq
      obtain ⟨rfl, rfl⟩ := ih hlast _ hsame hrest'
      exact ⟨rfl, rfl⟩

/-- The monitor ends with the outcome of its last stop, and no stop before it failed. -/
theorem Performs.candid (h : m.Performs phase told stops (.over outcome))
    (going : phase.IsGoing) :
    ∃ earlier, (∀ stop ∈ earlier, stop = .ok ()) ∧ stops = earlier ++ [outcome] := by
  generalize hlast : MonitorPhase.over outcome = last at h
  induction h with
  | here phase => exact absurd hlast.symm (going outcome)
  | @next phase next last trail told stop stops hgoing hfollows hrest ih =>
    have hcandid : Candid (next, stop) := (m.sound_tellLine hgoing).follows hfollows
    by_cases hnext : ∃ outcome', next = .over outcome'
    · -- there is nothing after the last phase
      obtain ⟨outcome', rfl⟩ := hnext
      cases hcandid
      cases hrest with
      | here =>
        cases hlast
        exact ⟨[], nofun, rfl⟩
      | next hgoing' => exact absurd rfl (hgoing' outcome')
    · have hgoes : next.IsGoing := fun outcome' heq => hnext ⟨outcome', heq⟩
      obtain ⟨earlier, hearlier, rfl⟩ := ih hgoes hlast
      exact ⟨stop.toList ++ earlier, List.forall_mem_append.2 ⟨hcandid.ok hgoes, hearlier⟩,
        (List.append_assoc _ _ _).symm⟩

/-- **The monitor ends with success exactly if every stop that it has performed succeeded.** -/
theorem Performs.ok_iff (h : m.Performs phase told stops (.over outcome))
    (going : phase.IsGoing) :
    outcome = .ok () ↔ ∀ stop ∈ stops, stop = .ok () := by
  obtain ⟨earlier, hearlier, rfl⟩ := h.candid going
  constructor
  · rintro rfl
    exact List.forall_mem_append.2 ⟨hearlier, fun stop hstop => List.mem_singleton.1 hstop⟩
  · exact fun hall => hall outcome (List.mem_append_right _ (List.mem_singleton.2 rfl))

end Manager

end ControlRig
