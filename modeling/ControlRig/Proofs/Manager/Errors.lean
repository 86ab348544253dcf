import ControlRig.Proofs.Manager.Failure

/-!
# What operations fail with

A manager error tells the step that failed and keeps what the step reported, which may be any text.
Only one error begins with something that was not written down here, a parameter that is missing:
it begins with its owner. **Whoever answers an operation, and whatever he says, an owner is one that
a configuration has among its requirements** (`ManagerError.Owned`).
-/

namespace ControlRig

/-- What is missing is required by a configuration. -/
def ManagerError.Owned : ManagerError → Prop
  | .missingParameter key owner => ∃ target : Configuration, ⟨key, owner⟩ ∈ target.requirements
  | _ => True

namespace Procedure

variable {α : Type}

/-- A walk through a step under the lock contains one through the step. -/
theorem goes_withLock {step : ManagerState → Procedure α} {seen : List Observation} {a : α}
    (h : (Procedure.withLock step).Goes seen (some a)) :
    ∃ state within, (step state).Goes within (some a) := by
  rw [withLock_eq] at h
  obtain ⟨locked, _, _, -, hrest, -⟩ := goes_bind_some.1 h
  obtain ⟨_, _, _, -, hguarded, -⟩ := goes_bind_some.1 hrest
  obtain ⟨result, within, _, hstep, hend, -⟩ := goes_bind_some.1 hguarded
  cases result with
  | none =>
    obtain ⟨_, _, _, -, hcrash, -⟩ := goes_bind_some.1 hend
    exact absurd hcrash not_goes_crash
  | some b =>
    obtain ⟨_, _, _, -, hdone, -⟩ := goes_bind_some.1 hend
    obtain ⟨-, rfl⟩ := goes_done.1 hdone
    exact ⟨locked.state, within, goes_attempt.1 hstep⟩

end Procedure

namespace Transition

open Procedure

theorem owned_of_run {options : Options} {active target : Option Configuration}
    {strictness : Strictness} {limit : Duration} {seen : List Observation} {e : ManagerError}
    (h : (run options active target strictness limit).Goes seen (some (.error e))) : e.Owned := by
  obtain ⟨listed, steps, undone, attempt, -, hcourse, -, houtcome⟩ := goes_run h
  cases hcourse with
  | unmet hsplit =>
    cases houtcome
    cases target with
    | none => cases List.append_eq_nil_iff.1 hsplit.symm |>.2
    | some t =>
      refine ⟨t, ?_⟩
      rw [Configuration.requirements_eq_needs, show t.needs = requirementsOf (some t) from rfl,
        hsplit]
      exact List.mem_append_right _ List.mem_cons_self
  | settled => cases houtcome
  | _ =>
    cases houtcome
    trivial

end Transition

namespace Manager

open Procedure

variable {m : Manager} {seen : List Observation} {e : ManagerError}

theorem owned_of_startLocked {number : Nat} {name : String} {strictness : Strictness}
    {state : ManagerState}
    (h : (m.startLocked number name strictness state).Goes seen (some (.error e))) : e.Owned := by
  unfold startLocked at h
  split at h
  · obtain ⟨_, _, _, -, hdone, -⟩ := goes_bind_some.1 h
    cases (goes_done.1 hdone).2
  · split at h
    · cases (goes_done.1 h).2
      trivial
    · obtain ⟨_, _, _, -, hrest, -⟩ := goes_bind_some.1 h
      obtain ⟨outcome, _, _, hrun, hend, -⟩ := goes_bind_some.1 hrest
      cases outcome with
      | error e =>
        obtain ⟨_, _, _, -, hdone, -⟩ := goes_bind_some.1 hend
        cases (goes_done.1 hdone).2
        exact Transition.owned_of_run hrun
      | ok record =>
        obtain ⟨_, _, _, -, hlast, -⟩ := goes_bind_some.1 hend
        dsimp only at hlast
        split at hlast <;>
        · obtain ⟨_, _, _, -, hdone, -⟩ := goes_bind_some.1 hlast
          cases (goes_done.1 hdone).2

theorem owned_of_start {name : String} {strictness : Strictness}
    (h : (m.start name strictness).Goes seen (some (.error e))) : e.Owned := by
  obtain ⟨_, _, _, -, hlocked, -⟩ := goes_bind_some.1 h
  obtain ⟨_, _, hstep⟩ := goes_withLock hlocked
  exact owned_of_startLocked hstep

theorem owned_of_stop {strictness : Strictness}
    (h : (m.stop strictness).Goes seen (some (.error e))) : e.Owned := by
  obtain ⟨_, _, hstep⟩ := goes_withLock h
  unfold stopLocked at hstep
  obtain ⟨_, _, _, -, hrest, -⟩ := goes_bind_some.1 hstep
  obtain ⟨outcome, _, _, hrun, hend, -⟩ := goes_bind_some.1 hrest
  cases outcome with
  | error e =>
    obtain ⟨_, _, _, -, hdone, -⟩ := goes_bind_some.1 hend
    cases (goes_done.1 hdone).2
    exact Transition.owned_of_run hrun
  | ok record =>
    obtain ⟨_, _, _, -, hdone, -⟩ := goes_bind_some.1 hend
    cases (goes_done.1 hdone).2

theorem owned_of_refreshLocked {state : ManagerState}
    (h : (m.refreshLocked state).Goes seen (some (.error e))) : e.Owned := by
  obtain ⟨read, _, _, -, hend, -⟩ := goes_bind_some.1 h
  cases read with
  | error e =>
    cases (goes_done.1 hend).2
    trivial
  | ok catalog =>
    obtain ⟨_, _, _, -, hdone, -⟩ := goes_bind_some.1 hend
    cases (goes_done.1 hdone).2

theorem owned_of_refresh (h : m.refresh.Goes seen (some (.error e))) : e.Owned := by
  obtain ⟨_, _, hstep⟩ := goes_withLock h
  obtain ⟨outcome, _, _, hread, hend, -⟩ := goes_bind_some.1 hstep
  cases outcome with
  | error e =>
    cases (goes_done.1 hend).2
    exact owned_of_refreshLocked hread
  | ok catalog =>
    obtain ⟨_, _, _, -, hdone, -⟩ := goes_bind_some.1 hend
    cases (goes_done.1 hdone).2

theorem owned_of_list (h : m.list.Goes seen (some (.error e))) : e.Owned := by
  obtain ⟨_, _, hstep⟩ := goes_withLock h
  obtain ⟨outcome, _, _, hread, hend, -⟩ := goes_bind_some.1 hstep
  cases outcome with
  | error e =>
    cases (goes_done.1 hend).2
    exact owned_of_refreshLocked hread
  | ok catalog => cases (goes_done.1 hend).2

end Manager

end ControlRig
