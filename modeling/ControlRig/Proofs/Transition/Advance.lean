import ControlRig.Transition.Basic
import ControlRig.Proofs.Transition.Readiness

/-!
# A transition up to its first failure

`run_eq` splits a transition into `advance`, which does not know the rollback policy, and
`conclude`, which knows nothing else. So that two policies have everything up to the first failure
in common needs no argument: it is the same procedure (`advance_congr`), and an `Attempt` is all
that the second half learns of the first.

The other subject of this file is what a transition is put together from. It calls the registry, it
asks, logs and verifies, and **what can be shown of those parts is shown of the whole along its
text, once** (`Parts.run`). So it writes neither the manager's memory nor a parameter
(`run_composed`).
-/

namespace ControlRig

namespace Transition

open Procedure

/-! ## Two halves -/

/-- How far a transition has come when it stops. -/
inductive Attempt where
  /-- It failed before the first load. -/
  | refused (e : ManagerError)
  /-- It failed after these resources had been loaded. -/
  | failed (loaded : List String) (e : ManagerError)
  | settled (record : TransitionRecord)

/-- What the caller of a transition is told. -/
def Attempt.outcome : Attempt → Except ManagerError TransitionRecord
  | .refused e => .error e
  | .failed _ e => .error e
  | .settled record => .ok record

/-- Where a transition stops that has begun to load. -/
def Attempt.after (loaded : List String) : Except ManagerError TransitionRecord → Attempt
  | .error e => .failed loaded e
  | .ok record => .settled record

/-- The phases of a transition up to the first failure. -/
def advance (options : Options) (active target : Option Configuration) (strictness : Strictness)
    (limit : Duration) : Procedure Attempt := do
  match ← call .listLoaded limit with
  | .error e => return .refused (.registryQuery e)
  | .ok loaded =>
    match ← checkParameters target with
    | .error e => return .refused e
    | .ok () =>
      match ← synchronize limit (.plan active target (.ofList loaded)) with
      | .error e => return .refused e
      | .ok record =>
        let (loaded, result) ← carryOut options target strictness limit record
        return .after loaded result

/-- What follows after the first failure. -/
def conclude (policy : RollbackPolicy) (limit : Duration) :
    Attempt → Procedure (Except ManagerError TransitionRecord)
  | .refused e => return .error e
  | .settled record => return .ok record
  | .failed loaded e => do
    complain ("transition failed: " ++ e.message)
    rollBack policy limit loaded
    return .error e

/-- A transition advances as far as it can and then concludes. -/
theorem run_eq (options : Options) (active target : Option Configuration) (strictness : Strictness)
    (limit : Duration) :
    run options active target strictness limit =
      advance options active target strictness limit >>= conclude options.rollback limit := by
  unfold run advance
  rw [bind_assoc]
  congr 1
  funext listing
  cases listing with
  | error e => rfl
  | ok loaded =>
    dsimp only
    rw [bind_assoc]
    congr 1
    funext checked
    cases checked with
    | error e => rfl
    | ok u =>
      dsimp only
      rw [bind_assoc]
      congr 1
      funext synchronized
      cases synchronized with
      | error e => rfl
      | ok record =>
        dsimp only
        rw [bind_assoc]
        congr 1
        funext result
        obtain ⟨loaded, outcome⟩ := result
        cases outcome <;> rfl

/-- Up to the first failure the rollback policy is not asked for. -/
theorem advance_congr {options options' : Options}
    (h : options.verification = options'.verification) (active target : Option Configuration)
    (strictness : Strictness) (limit : Duration) :
    advance options active target strictness limit =
      advance options' active target strictness limit := by
  -- only the verification looks at the options before a rollback
  have hverify : verify options = verify options' := by
    funext record
    unfold verify
    rw [h]
  have hestablish : establish options = establish options' := by
    funext target strictness limit record
    unfold establish
    rw [hverify]
  have hcarry : carryOut options = carryOut options' := by
    funext target strictness limit record
    unfold carryOut
    rw [hestablish]
  unfold advance
  rw [hcarry]

/-- Mention that a step has failed, and go on. -/
def mention (failure : String) : Operation.Answer → Procedure Unit
  | .error e => warn (failure ++ e.message)
  | .ok _ => pure ()

/-- A rollback stops, then unloads, whatever becomes of the stopping. -/
theorem rollBack_eq (policy : RollbackPolicy) (limit : Duration) (loaded : List String) :
    rollBack policy limit loaded =
      if policy = .unloadLoaded && !loaded.isEmpty then do
        warn ("rolling back: unloading " ++ joined loaded)
        mention "rollback: stopping controllers failed: " (← call (.stopControllers loaded) limit)
        mention "rollback: unloading failed: " (← call (.unload loaded) limit)
      else pure () := by
  unfold rollBack
  split
  · congr 1
    funext _
    congr 1
    funext stopped
    cases stopped <;> rfl
  · rfl

/-! ## What a transition is put together from

One lemma for each phase, along its text. -/

/-- A property of all that transitions are put together from. -/
structure Parts (P : {α : Type} → Procedure α → Prop) : Prop extends Compositional P where
  call (operation : Operation) (limit : Duration) : P (Procedure.call operation limit)
  hasEntry (key : String) : P (Procedure.hasEntry key)
  log (level : Level) (message : String) : P (of (.log level message))
  verification (options : Verification.Options) (resources : NameSet) :
    P (Verification.run options resources)

namespace Parts

variable {P : {α : Type} → Procedure α → Prop} (h : Parts P)
variable (options : Options) (target : Option Configuration) (strictness : Strictness)
variable (limit : Duration)

include h

theorem firstUnmet (requirements : List Requirement) : P (Transition.firstUnmet requirements) := by
  induction requirements with
  | nil => exact h.done _
  | cons requirement rest ih =>
    refine h.bind (h.hasEntry _) fun there => ?_
    split
    · exact ih
    · exact h.done _

theorem checkParameters : P (Transition.checkParameters target) := by
  cases target with
  | none => exact h.done _
  | some t =>
    refine h.bind (h.firstUnmet _) fun unmet => ?_
    cases unmet <;> exact h.done _

theorem synchronize (record : TransitionRecord) : P (Transition.synchronize limit record) := by
  unfold Transition.synchronize
  split
  · exact h.done _
  · refine h.bind (h.log _ _) fun _ => h.bind (h.call _ _) fun answer => ?_
    cases answer <;> exact h.done _

theorem loadAll (names : List String) : P (Transition.loadAll limit names) := by
  induction names with
  | nil => exact h.done _
  | cons n rest ih =>
    refine h.bind (h.log _ _) fun _ => h.bind (h.call _ _) fun answer => ?_
    cases answer with
    | error e => exact h.done _
    | ok told => exact h.bind ih fun _ => h.done _

theorem verify (record : TransitionRecord) : P (Transition.verify options record) := by
  unfold Transition.verify
  split
  · exact h.done _
  · refine h.bind (h.verification _ _) fun outcomes => ?_
    split <;> exact h.done _

theorem startControllers (record : TransitionRecord) :
    P (Transition.startControllers target strictness limit record) := by
  cases target with
  | none => exact h.done _
  | some t =>
    unfold Transition.startControllers
    dsimp only
    -- a target without resources has nothing to be started on
    split
    · exact h.done _
    · refine h.bind (h.log _ _) fun _ => h.bind (h.call _ _) fun answer => ?_
      cases answer with
      | error e => exact h.done _
      | ok skipped =>
        dsimp only
        split
        · exact h.bind (h.log _ _) fun _ => h.done _
        · exact h.done _

theorem release (record : TransitionRecord) : P (Transition.release limit record) := by
  unfold Transition.release
  split
  · exact h.done _
  · refine h.bind (h.log _ _) fun _ => h.bind (h.call _ _) fun answer => ?_
    cases answer with
    | error e => exact h.done _
    | ok told =>
      refine h.bind (h.log _ _) fun _ => h.bind (h.call _ _) fun answer => ?_
      cases answer <;> exact h.done _

theorem establish (record : TransitionRecord) :
    P (Transition.establish options target strictness limit record) := by
  refine h.bind (h.verify options record) fun verified => ?_
  cases verified with
  | error e => exact h.done _
  | ok record =>
    refine h.bind (h.startControllers target strictness limit record) fun started => ?_
    cases started with
    | error e => exact h.done _
    | ok record => exact h.release limit record

theorem carryOut (record : TransitionRecord) :
    P (Transition.carryOut options target strictness limit record) := by
  refine h.bind (h.loadAll limit _) fun result => ?_
  obtain ⟨loaded, error⟩ := result
  cases error with
  | some e => exact h.done _
  | none => exact h.bind (h.establish options target strictness limit record) fun _ => h.done _

theorem advance (active : Option Configuration) :
    P (Transition.advance options active target strictness limit) := by
  refine h.bind (h.call _ _) fun answer => ?_
  cases answer with
  | error e => exact h.done _
  | ok loaded =>
    refine h.bind (h.checkParameters target) fun checked => ?_
    cases checked with
    | error e => exact h.done _
    | ok u =>
      refine h.bind (h.synchronize limit _) fun synchronized => ?_
      cases synchronized with
      | error e => exact h.done _
      | ok record =>
        exact h.bind (h.carryOut options target strictness limit record) fun _ => h.done _

theorem mention (failure : String) (answer : Operation.Answer) :
    P (Transition.mention failure answer) := by
  cases answer with
  | error e => exact h.log _ _
  | ok told => exact h.done _

theorem rollBack (policy : RollbackPolicy) (loaded : List String) :
    P (Transition.rollBack policy limit loaded) := by
  rw [rollBack_eq]
  split
  · exact h.bind (h.log _ _) fun _ => h.bind (h.call _ _) fun stopped =>
      h.bind (h.mention _ stopped) fun _ => h.bind (h.call _ _) fun unloaded =>
        h.mention _ unloaded
  · exact h.done _

theorem conclude (policy : RollbackPolicy) (attempt : Attempt) :
    P (Transition.conclude policy limit attempt) := by
  cases attempt with
  | refused e => exact h.done _
  | settled record => exact h.done _
  | failed loaded e =>
    exact h.bind (h.log _ _) fun _ => h.bind (h.rollBack limit policy loaded) fun _ => h.done _

/-- **What holds of the parts of a transition holds of the transition.** -/
theorem run (active : Option Configuration) :
    P (Transition.run options active target strictness limit) := by
  rw [run_eq]
  exact h.bind (h.advance options target strictness limit active)
    (h.conclude limit options.rollback)

end Parts

theorem run_composed (options : Options) (target : Option Configuration) (strictness : Strictness)
    (limit : Duration) (active : Option Configuration) :
    (run options active target strictness limit).Composed Action.Spares := by
  have hparts : Parts (Composed Action.Spares) :=
    { compositional_composed Action.Spares with
      call := fun _ _ => .of _ trivial
      hasEntry := fun _ => .of _ trivial
      log := fun _ _ => .of _ trivial
      verification := fun options resources =>
        (Verification.run_passive options resources).mono fun action => Action.Watches.spares }
  exact hparts.run options target strictness limit active

end Transition

end ControlRig
