import ControlRig.Proofs.Manager.Activation
import ControlRig.Proofs.Manager.Turns
import ControlRig.Proofs.Transition.Foresight

/-!
# Side by side

Any number of requests and checks of the health can be under way on one manager. They come to what
they would come to **one at a time, in the order in which they take the lock**
(`Manager.serialized_of_run`): the values up to moments, and what is remembered, held and published
in the end.

For each operation it has to be shown that it mirrors itself from states that differ in the moment
of the last transition. How lines come to wait for each other has nothing to do with what they do,
and is found in `ControlRig.Proofs.Manager.Turns`.
-/

namespace ControlRig

/-- Something that a manager can be asked to do beside other things. -/
inductive Errand where
  | start (name : String) (strictness : Strictness)
  | stop (strictness : Strictness)
  | list
  | refresh
  | status
  | checkHealth
  deriving DecidableEq, Repr

/-- What an errand comes to. -/
inductive Errand.Result where
  | started (result : Except ManagerError (List String))
  | stopped (result : Except ManagerError Unit)
  | listed (result : Except ManagerError (List Configuration))
  | refreshed (result : Except ManagerError Unit)
  | status (status : ManagerStatus)
  | checked (result : Except ManagerError Bool)

def ManagerStatus.undated (s : ManagerStatus) : ManagerStatus :=
  { s with lastTransitionAt := s.lastTransitionAt.map fun _ => .start }

def Errand.Result.undated : Errand.Result → Errand.Result
  | .status s => .status s.undated
  | result => result

/-- Values that differ in nothing but moments. -/
def Errand.Result.Agree (a b : Errand.Result) : Prop := a.undated = b.undated

theorem Rig.lingers_entered (rig : Rig) : rig.Lingers rig.entered := by
  unfold entered
  split
  · exact rig.lingers_note _ _
  · exact .refl rig

namespace ManagerState

variable {s s' : ManagerState}

/-- States without their moments are the same if they are made of the same parts. -/
theorem eq_of_undated (h : s.undated = s'.undated) :
    s' = { s with lastTransitionAt := s'.lastTransitionAt } ∧
      s.lastTransitionAt.map (fun _ => Instant.start) =
        s'.lastTransitionAt.map (fun _ => Instant.start) := by
  obtain ⟨active, catalog, transitions, last⟩ := s
  obtain ⟨active', catalog', transitions', last'⟩ := s'
  obtain ⟨rfl, rfl, rfl, hlast⟩ := ManagerState.mk.inj h
  exact ⟨rfl, hlast⟩

theorem active_of_undated (h : s.undated = s'.undated) : s'.active = s.active :=
  (congrArg ManagerState.active h).symm

theorem activeName_of_undated (h : s.undated = s'.undated) : s'.activeName = s.activeName :=
  congrArg (Option.map Configuration.name) (active_of_undated h)

theorem catalog_of_undated (h : s.undated = s'.undated) : s'.catalog = s.catalog :=
  (congrArg ManagerState.catalog h).symm

end ManagerState

namespace Manager

open Procedure

variable {m : Manager} {s s' : ManagerState}

/-- Have the manager run an errand. -/
def serve (m : Manager) : Errand → Procedure Errand.Result
  | .start name strictness => return .started (← m.start name strictness)
  | .stop strictness => return .stopped (← m.stop strictness)
  | .list => return .listed (← m.list)
  | .refresh => return .refreshed (← m.refresh)
  | .status => return .status (← m.status)
  | .checkHealth => return .checked (← m.checkHealth)

/-! ## Operations that mirror themselves -/

theorem mirrors_commit (m : Manager) (h : s.undated = s'.undated) (active : Option Configuration) :
    (m.commit s active).Mirrors Eq (m.commit s' active) := by
  obtain ⟨heq, -⟩ := ManagerState.eq_of_undated h
  refine mirrors_now.bind fun t t' _ => (mirrors_save ?_).bind fun _ _ _ => mirrors_publish _ _
  rw [heq]
  rfl

/-- The number of a request is told in messages only. -/
theorem mirrors_startLocked (m : Manager) (h : s.undated = s'.undated) (number number' : Nat)
    (name : String) (strictness : Strictness) :
    (m.startLocked number name strictness s).Mirrors Eq
      (m.startLocked number' name strictness s') := by
  unfold startLocked
  rw [ManagerState.activeName_of_undated h, ManagerState.active_of_undated h,
    ManagerState.catalog_of_undated h]
  by_cases hrunning : s.activeName = some name
  · rw [if_pos hrunning, if_pos hrunning]
    exact (mirrors_log _ _ _ _).bind fun _ _ _ => mirrors_done rfl
  · rw [if_neg hrunning, if_neg hrunning]
    cases s.catalog.find? name with
    | none => exact mirrors_done rfl
    | some target =>
      refine (mirrors_log _ _ _ _).bind fun _ _ _ => ?_
      refine (Transition.mirrors_run _ _ _ _ _).bind fun outcome _ same => same ▸ ?_
      cases outcome with
      | error e => exact (mirrors_log _ _ _ _).bind fun _ _ _ => mirrors_done rfl
      | ok record =>
        refine (m.mirrors_commit h (some target)).bind fun _ _ _ => ?_
        dsimp only
        split
        · exact (mirrors_log _ _ _ _).bind fun _ _ _ => mirrors_done rfl
        · exact (mirrors_log _ _ _ _).bind fun _ _ _ => mirrors_done rfl

theorem mirrors_stopLocked (m : Manager) (h : s.undated = s'.undated) (strictness : Strictness) :
    (m.stopLocked strictness s).Mirrors Eq (m.stopLocked strictness s') := by
  unfold stopLocked
  rw [ManagerState.active_of_undated h]
  refine (mirrors_log _ _ _ _).bind fun _ _ _ => ?_
  refine (Transition.mirrors_run _ _ _ _ _).bind fun outcome _ same => same ▸ ?_
  cases outcome with
  | error e => exact (mirrors_log _ _ _ _).bind fun _ _ _ => mirrors_done rfl
  | ok record => exact (m.mirrors_commit h none).bind fun _ _ _ => mirrors_done rfl

theorem mirrors_refreshLocked (m : Manager) (h : s.undated = s'.undated) :
    (m.refreshLocked s).Mirrors Eq (m.refreshLocked s') := by
  unfold refreshLocked
  rw [ManagerState.activeName_of_undated h]
  refine (readCatalog_composed m.settings s.activeName).mirrors.bind fun read _ same => same ▸ ?_
  cases read with
  | error e => exact mirrors_done rfl
  | ok catalog =>
    refine (mirrors_save ?_).bind fun _ _ _ => mirrors_done rfl
    have hundated : ({ s with catalog := catalog } : ManagerState).undated =
        ({ s.undated with catalog := catalog } : ManagerState) := rfl
    rw [hundated, h]
    rfl

theorem mirrors_checkHealthLocked (m : Manager) (h : s.undated = s'.undated) :
    (m.checkHealthLocked s).Mirrors Eq (m.checkHealthLocked s') := by
  unfold checkHealthLocked
  rw [ManagerState.active_of_undated h]
  cases s.active with
  | none => exact mirrors_done rfl
  | some active =>
    refine (faults_composed _).mirrors.bind fun found _ same => same ▸ ?_
    cases found with
    | nil => exact mirrors_done rfl
    | cons first rest =>
      refine (reportFaults_composed _ _).mirrors.bind fun _ _ _ => ?_
      refine (mirrors_log _ _ _ _).bind fun _ _ _ =>
        (m.mirrors_stopLocked h .bestEffort).bind fun result _ same => same ▸ ?_
      cases result <;> exact mirrors_done rfl

/-! ## Errands wait for each other -/

/-- A step under the lock waits for it, and comes to what it comes to on its own. The other one may
have a number that differs. -/
theorem waits_of_mirrors {α : Type} {R : α → α → Prop} {q : Procedure α}
    {step : ManagerState → Procedure α}
    (h : ∀ other : Rig, other.armed = ∅ → ∃ begin step', other.Lingers begin ∧
      q.run other = (withLock step').run begin ∧
      ∀ s s' : ManagerState, s.undated = s'.undated → (step s).Mirrors R (step' s')) :
    Waits R q (withLock step) := by
  refine .lock fun rig other hsame steady => ?_
  obtain ⟨begin, step', hbegin, hq, hmirrors⟩ := h other (hsame.steady steady).calm
  have hbegun := hsame.trans hbegin.resembles.symm
  refine Ensures.mono (hmirrors rig.memory begin.memory hbegun.memory rig begin.entered
    (hbegun.trans begin.lingers_entered.resembles.symm) steady) ?_
  rintro a after ⟨b, final, hrun, hmatches⟩
  exact ⟨b, final, hq.trans (run_withLock hrun), hmatches⟩

theorem waits_withLock {α β : Type} {S : α → α → Prop} {R : β → β → Prop}
    {step : ManagerState → Procedure α} {f : α → β} (agree : ∀ a a', S a a' → R (f a) (f a'))
    (h : ∀ s s' : ManagerState, s.undated = s'.undated → (step s).Mirrors S (step s')) :
    Waits R (withLock step >>= fun a => .done (f a)) (withLock step >>= fun a => .done (f a)) := by
  rw [withLock_bind_done]
  refine waits_of_mirrors fun other _ => ⟨other, _, .refl other, rfl, fun s s' hsame => ?_⟩
  exact (h s s' hsame).bind fun a a' same => mirrors_done (agree a a' same)

theorem waits_serve (m : Manager) (errand : Errand) :
    Waits Errand.Result.Agree (m.serve errand) (m.serve errand) := by
  cases errand with
  | start name strictness =>
    let step (number : Nat) (s : ManagerState) : Procedure Errand.Result :=
      m.startLocked number name strictness s >>= fun result => .done (.started result)
    have hserve : m.serve (.start name strictness) =
        of .nextNumber >>= fun number => withLock (step number) := by
      simp only [step, ← withLock_bind_done]
      exact Procedure.bind_assoc (of .nextNumber)
        (fun number => withLock (m.startLocked number name strictness)) _
    rw [hserve]
    refine .number fun number => waits_of_mirrors fun other calm =>
      ⟨{ other with numbers := other.numbers + 1 }, step (other.numbers + 1),
        ⟨rfl, rfl, rfl, rfl, rfl, Nat.le_refl _⟩, ?_, fun s s' hsame => ?_⟩
    · rw [run_bind, run_of_calm calm]
      rfl
    · exact (m.mirrors_startLocked hsame _ _ name strictness).bind fun _ _ same =>
        mirrors_done (same ▸ rfl)
  | stop strictness =>
    exact waits_withLock (S := Eq) (fun _ _ same => same ▸ rfl) fun _ _ hsame =>
      m.mirrors_stopLocked hsame strictness
  | list =>
    refine waits_withLock (S := Eq) (fun _ _ same => same ▸ rfl) fun _ _ hsame => ?_
    refine (m.mirrors_refreshLocked hsame).bind fun result _ same => same ▸ ?_
    cases result <;> exact mirrors_done rfl
  | refresh =>
    refine waits_withLock (S := Eq) (fun _ _ same => same ▸ rfl) fun _ _ hsame => ?_
    refine (m.mirrors_refreshLocked hsame).bind fun result _ same => same ▸ ?_
    cases result with
    | error e => exact mirrors_done rfl
    | ok catalog => exact (mirrors_log _ _ _ _).bind fun _ _ _ => mirrors_done rfl
  | status =>
    refine waits_withLock (S := fun a b : ManagerStatus => a.undated = b.undated)
      (fun _ _ same => congrArg Errand.Result.status same) fun s s' hsame => mirrors_done ?_
    obtain ⟨heq, hlast⟩ := ManagerState.eq_of_undated hsame
    have hundated (s : ManagerState) : ManagerStatus.undated
        ⟨s.activeName, s.transitions, s.lastTransitionAt, s.catalog.size, m.registry⟩ =
          ⟨s.activeName, s.transitions, s.lastTransitionAt.map fun _ => .start, s.catalog.size,
            m.registry⟩ := rfl
    rw [hundated, hundated, hlast, heq]
    rfl
  | checkHealth =>
    exact waits_withLock (S := Eq) (fun _ _ same => same ▸ rfl) fun _ _ hsame =>
      m.mirrors_checkHealthLocked hsame

/-! ## In the order of the lock -/

/-- The rig after some errands one at a time, given by their lines. -/
def oneByOne (m : Manager) (errands : List Errand) (rig : Rig) (turns : List Nat) : Rig :=
  Crew.inTurn (errands.map m.serve) rig turns

/-- **What comes of errands side by side.** They are compared to the same errands one at a time, in
the order in which they have taken the lock. -/
structure Serialized (m : Manager) (errands : List Errand) (rig : Rig)
    (crew : Crew Errand.Result) (traffic : List (Nat × Call)) : Prop where
  /-- Calls to the registry have not overlapped. -/
  apart : crew.rig.registry.reentrant = false
  once : crew.turns.Nodup
  /-- Every errand that has ended has come to what it comes to in its turn, by the same calls. -/
  ended : ∀ before i later, crew.turns = before ++ i :: later → crew.holder ≠ some i →
    ∃ errand result serial, errands[i]? = some errand ∧
      crew.lines[i]? = some (.ready (.done result)) ∧
      ((m.serve errand).run (m.oneByOne errands rig before)).1 = some serial ∧
      result.undated = serial.undated ∧
      Crew.madeBy i traffic =
        Observation.calls ((m.serve errand).history (m.oneByOne errands rig before))
  /-- While nobody holds the lock, all is as it would be. -/
  free : crew.holder = none → crew.rig.Resembles (m.oneByOne errands rig crew.turns) ∧
    traffic = Crew.callsInTurn (errands.map m.serve) rig crew.turns
  calls : crew.rig.registry.calls = rig.registry.calls ++ traffic.map Prod.snd
  /-- While somebody holds the lock, the others leave alone what it guards. -/
  guarded : ∀ i event next, crew.holder = some i → event ≠ .turn i →
    crew.step? event = some next → crew.rig.Lingers next.rig ∧ next.holder = some i
  /-- A check that stops something stops what it has found faulty. -/
  stops : ∀ before i later result, crew.turns = before ++ i :: later → crew.holder ≠ some i →
    errands[i]? = some .checkHealth → crew.lines[i]? = some (.ready (.done (.checked result))) →
    result = .ok false ∨ ∃ active resource,
      (m.oneByOne errands rig before).memory.active = some active ∧
      resource ∈ active.resources ∧
      (m.oneByOne errands rig before).registry.Faulty resource ∧
      Transition.Differs active.resources none .bestEffort
        (m.oneByOne errands rig before).registry.loaded (result.map fun _ => ())
        (Crew.madeBy i traffic) ∧
      (m.oneByOne errands rig (before ++ [i])).memory.active =
        if result.toBool then none else some active
  /-- When all is over, every errand has had its turn. -/
  finished : crew.isOver = true → crew.holder = none ∧ crew.turns.Perm (List.range errands.length)
  /-- Nobody gets stuck. -/
  ends : ∃ events done, crew.run? events = some done ∧ done.isOver = true

theorem getD_serve (m : Manager) {errands : List Errand} {i : Nat} {errand : Errand}
    (h : errands[i]? = some errand) : (errands.map m.serve).getD i .crash = m.serve errand := by
  rw [List.getD_eq_getElem?_getD, List.getElem?_map, h]
  rfl

/-- A check that has done anything has stopped what it has found faulty. -/
theorem stops_of_check (m : Manager) {rig after : Rig} {result : Errand.Result}
    (calm : rig.armed = ∅) (hrun : (m.serve .checkHealth).run rig = (some result, after)) :
    ∃ found, result = .checked found ∧ (found = .ok false ∨
      ∃ active resource, rig.memory.active = some active ∧ resource ∈ active.resources ∧
        rig.registry.Faulty resource ∧
        Transition.Differs active.resources none .bestEffort rig.registry.loaded
          (found.map fun _ => ()) (Observation.calls ((m.serve .checkHealth).history rig)) ∧
        after.memory.active = if found.toBool then none else some active) := by
  obtain ⟨found, final, hcheck, hchecks⟩ := m.run_checkHealth calm
  have hserve : (m.serve .checkHealth).run rig = (some (.checked found), final) :=
    run_bind_some.2 ⟨found, final, hcheck, rfl⟩
  cases hrun.symm.trans hserve
  refine ⟨found, rfl, ?_⟩
  cases hchecks with
  | healthy => exact .inl rfl
  | @stops active resource outcome _ hactive hmem hfaulty htransits =>
    refine .inr ⟨active, resource, hactive, hmem, hfaulty, ?_, ?_⟩
    · obtain ⟨made, hcalls, hdiffers⟩ := htransits.differs
      have hlog := run_calls (m.serve .checkHealth) rig
      rw [hserve, hcalls] at hlog
      rw [← List.append_cancel_left hlog]
      rw [hactive] at hdiffers
      cases outcome <;> exact hdiffers
    · cases outcome with
      | error e =>
        rw [(htransits.unwritten calm).1.1, hactive]
        rfl
      | ok record =>
        obtain ⟨t, hmemory⟩ := (htransits.noted calm).memory
        rw [hmemory]
        rfl

/-- **Errands side by side come to what they come to one at a time, in the order in which they take
the lock**, whatever the interleaving. -/
theorem serialized_of_run (m : Manager) (rig : Rig) (steady : rig.Steady) (errands : List Errand)
    (events : List Crew.Event) (crew : Crew Errand.Result)
    (hrun : (Crew.start rig (errands.map m.serve)).run? events = some crew) :
    m.Serialized errands rig crew ((Crew.start rig (errands.map m.serve)).traffic events) := by
  have hstart : Crew.InTurns Errand.Result.Agree (errands.map m.serve) rig _ [] :=
    Crew.inTurns_start steady fun p hp => by
      obtain ⟨errand, -, rfl⟩ := List.mem_map.1 hp
      exact m.waits_serve errand
  have h := hstart.run hrun
  rw [List.nil_append] at h
  have herrand (i : Nat) (hi : i ∈ crew.turns) : ∃ errand, errands[i]? = some errand := by
    have hlt := h.known i hi
    rw [List.length_map] at hlt
    exact ⟨errands[i], List.getElem?_eq_getElem hlt⟩
  exact
    { apart := h.apart
      once := h.once
      calls := h.calls
      ends := h.ends
      ended := by
        intro before i later hturns hover
        obtain ⟨errand, hi⟩ := herrand i (hturns ▸ List.mem_append_right _ List.mem_cons_self)
        obtain ⟨⟨a, b, hline, hserial, hagree⟩, hmade⟩ := h.ended hturns hover
        rw [m.getD_serve hi] at hserial hmade
        exact ⟨errand, a, b, hi, hline, hserial, hagree, hmade⟩
      free := by
        intro hfree
        cases h.underway with
        | free _ _ hsame _ htraffic => exact ⟨hsame, htraffic⟩
        | held hheld =>
          rw [hfree] at hheld
          cases hheld
      guarded := fun i event next held other hstep => h.lingers_of_held held other hstep
      stops := by
        intro before i later result hturns hover hi hline
        obtain ⟨⟨_, b, hdone, hserial, hagree⟩, hmade⟩ := h.ended hturns hover
        rw [m.getD_serve hi] at hserial hmade
        cases hline.symm.trans hdone
        have hcalm := Crew.calm_inTurn (errands.map m.serve) steady.calm before
        obtain ⟨found, rfl, hfound⟩ := m.stops_of_check hcalm (Prod.ext hserial rfl)
        -- there is no moment in what a check comes to
        obtain rfl : result = found := Errand.Result.checked.inj hagree
        rw [hmade, oneByOne, oneByOne, Crew.inTurn_concat, m.getD_serve hi]
        exact hfound
      finished := fun hover => by
        have hperm := h.perm_of_over hover
        rwa [List.length_map] at hperm }

/-- The arm has failed while it handles. -/
def armFailed : Rig :=
  { Rig.handling with registry := Rig.handling.registry.forceState "arm" .error }

/-- A start takes its number before a check begins, but the check takes the lock before it. -/
def overtaken : List Crew.Event :=
  .turn 0 :: (List.replicate 9 (.turn 1) ++ .elapse (.ofMillis 20) :: List.replicate 8 (.turn 1) ++
    List.replicate 27 (.turn 0) ++ List.replicate 2 (.turn 2))

theorem serialized_of_run_overtaken :
    let begun := Crew.start armFailed
      ([.start "feeding" .strict, .checkHealth, .status].map Manager.usual.serve)
    ∃ crew, begun.run? overtaken = some crew ∧ crew.turns = [1, 0, 2] ∧
      crew.rig.registry.reentrant = false ∧ crew.rig.memory.activeName = some "feeding" ∧
      Crew.madeBy 1 (begun.traffic overtaken) =
        [.listLoaded, .stopControllers ["arm"], .unload ["arm"]] := by
  intro begun
  have hends : (begun.run? overtaken).map (fun crew => (crew.turns, crew.holder)) =
      some ([1, 0, 2], none) := by
    decide +kernel
  obtain ⟨crew, hrun, hparts⟩ := Option.map_eq_some_iff.1 hends
  obtain ⟨hturns, hfree⟩ := Prod.mk.inj hparts
  have hsteady : armFailed.Steady :=
    ⟨by decide +kernel, by decide +kernel, by decide +kernel, by decide +kernel⟩
  have h := serialized_of_run .usual armFailed hsteady _ overtaken crew hrun
  refine ⟨crew, hrun, hturns, h.apart, ?_, ?_⟩
  · rw [(h.free hfree).1.activeName, hturns]
    decide +kernel
  · obtain ⟨errand, _, _, hi, -, -, -, hmade⟩ := h.ended [] 1 [0, 2] hturns (by rw [hfree]; nofun)
    cases hi
    rw [hmade]
    decide +kernel

end Manager

end ControlRig
