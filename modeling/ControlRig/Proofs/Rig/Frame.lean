import ControlRig.Proofs.Rig.History

/-!
# What a procedure leaves alone

`p.Composed allowed` says that `p` is put together from single actions that pass the test `allowed`,
one after the other and some of them under `attempt`. It is checked along the text of a procedure,
once for each procedure, and pays twice:

* whatever no allowed action changes is the same after a run as before it (`Composed.keeps`);
* on a rig where nobody is to crash the run ends with a value (`Composed.returns`), because a
  composed procedure never crashes of its own accord.

The second half is the reason for an inductive relation where a test of all actions would do for the
first: what is put together from `.crash` passes every such test.
-/

namespace ControlRig

namespace Procedure

variable {α β : Type} {allowed : Action → Prop}

/-- Put together from single actions that pass a test. -/
inductive Composed (allowed : Action → Prop) : {α : Type} → Procedure α → Prop
  | done {α : Type} (a : α) : Composed allowed (.done a)
  | of (action : Action) : allowed action → Composed allowed (Procedure.of action)
  | bind {α β : Type} {p : Procedure α} {f : α → Procedure β} :
      Composed allowed p → (∀ a, Composed allowed (f a)) → Composed allowed (p >>= f)
  | attempt {α : Type} {p : Procedure α} : Composed allowed p → Composed allowed p.attempt

/-- Whatever the answers, a procedure asks only for actions that pass a test. -/
def Asks (allowed : Action → Prop) : Procedure α → Prop
  | .done _ => True
  | .crash => True
  | .ask action next => allowed action ∧ ∀ answer, (next answer).Asks allowed

theorem asks_of {action : Action} (h : allowed action) : (of action).Asks allowed := by
  refine ⟨h, fun answer => ?_⟩
  cases answer <;> trivial

theorem asks_bind {p : Procedure α} {f : α → Procedure β} (hp : p.Asks allowed)
    (hf : ∀ a, (f a).Asks allowed) : (p >>= f).Asks allowed := by
  induction p with
  | done a => exact hf a
  | crash => trivial
  | ask action next ih => exact ⟨hp.1, fun answer => ih answer (hp.2 answer)⟩

theorem asks_attempt {p : Procedure α} (hp : p.Asks allowed) : p.attempt.Asks allowed := by
  induction p with
  | done a => trivial
  | crash => trivial
  | ask action next ih => exact ⟨hp.1, fun answer => ih answer (hp.2 answer)⟩

/-- What is composed of allowed actions asks for no others. -/
theorem Composed.asks {p : Procedure α} (h : p.Composed allowed) : p.Asks allowed := by
  induction h with
  | done a => trivial
  | of action hal => exact asks_of hal
  | bind _ _ ihp ihf => exact asks_bind ihp ihf
  | attempt _ ih => exact asks_attempt ih

theorem Composed.mono {allowed' : Action → Prop} {p : Procedure α} (h : p.Composed allowed)
    (himp : ∀ action, allowed action → allowed' action) : p.Composed allowed' := by
  induction h with
  | done a => exact .done a
  | of action hal => exact .of action (himp action hal)
  | bind _ _ ihp ihf => exact .bind ihp ihf
  | attempt _ ih => exact .attempt ih

/-- A property that procedures have if it holds of what they are put together from. -/
structure Compositional (P : {α : Type} → Procedure α → Prop) : Prop where
  done {α : Type} (a : α) : P (.done a)
  bind {α β : Type} {p : Procedure α} {f : α → Procedure β} :
    P p → (∀ a, P (f a)) → P (p >>= f)

theorem compositional_composed (allowed : Action → Prop) : Compositional (Composed allowed) :=
  ⟨.done, .bind⟩

/-! ## Runs -/

/-- What no allowed action changes is the same after a run. -/
theorem Asks.keeps {γ : Type} (view : Rig → γ)
    (hview : ∀ rig action, allowed action → view (Rig.answer rig action).2 = view rig)
    {p : Procedure α} (h : p.Asks allowed) (rig : Rig) : view (p.run rig).2 = view rig := by
  induction p generalizing rig with
  | done a => rfl
  | crash => rfl
  | ask action next ih =>
    rw [run_ask, ih _ (h.2 _)]
    exact hview rig action h.1

/-- What every allowed action preserves is preserved by a run, crashes included. -/
theorem Asks.preserves {I : Rig → Prop}
    (step : ∀ rig action, allowed action → I rig → I (Rig.answer rig action).2)
    {p : Procedure α} (h : p.Asks allowed) {rig : Rig} (start : I rig) : I (p.run rig).2 := by
  induction p generalizing rig with
  | done a => exact start
  | crash => exact start
  | ask action next ih =>
    rw [run_ask]
    exact ih _ (h.2 _) (step rig action h.1 start)

/-- Nothing is observed but what allowed actions show. -/
theorem Asks.observes {shown : Observation → Prop}
    (hshown : ∀ action answer, allowed action → ∀ o ∈ Observation.of action answer, shown o)
    {p : Procedure α} (h : p.Asks allowed) {seen : List Observation} {result : Option α}
    (hgo : p.Goes seen result) : ∀ o ∈ seen, shown o := by
  induction p generalizing seen with
  | done a =>
    obtain ⟨rfl, -⟩ := hgo
    exact fun o ho => absurd ho List.not_mem_nil
  | crash =>
    obtain ⟨rfl, -⟩ := hgo
    exact fun o ho => absurd ho List.not_mem_nil
  | ask action next ih =>
    obtain ⟨answer, rest, -, rfl, hrest⟩ := hgo
    intro o ho
    rcases List.mem_append.1 ho with ho | ho
    · exact hshown action answer h.1 o ho
    · exact ih answer (h.2 answer) hrest o ho

/-- Where nobody is to crash who is asked, a composed procedure ends with a value. -/
theorem Composed.returns {p : Procedure α} (h : p.Composed allowed) {rig : Rig}
    (calm : ∀ action, allowed action → rig.isArmedAt action = false) :
    ∃ a after, p.run rig = (some a, after) ∧ after.armed = rig.armed := by
  induction h generalizing rig with
  | done a => exact ⟨a, rig, rfl, rfl⟩
  | of action hal =>
    rcases rig.answer_cases action with ⟨harm, -⟩ | ⟨-, heq⟩
    · rw [calm action hal] at harm
      cases harm
    · refine ⟨(rig.respond action).1, (rig.respond action).2, ?_, rig.respond_armed action⟩
      rw [Procedure.of, run_ask, heq]
      rfl
  | bind _ _ ihp ihf =>
    obtain ⟨a, mid, hp, hmid⟩ := ihp calm
    -- who is armed is all that matters to the rest
    have hcalm : ∀ action, allowed action → mid.isArmedAt action = false := by
      intro action hal
      rw [← calm action hal]
      unfold Rig.isArmedAt
      rw [hmid]
    obtain ⟨b, after, hf, hafter⟩ := ihf a hcalm
    refine ⟨b, after, ?_, hafter.trans hmid⟩
    rw [run_bind, hp]
    exact hf
  | attempt _ ih =>
    obtain ⟨a, after, hp, hafter⟩ := ih calm
    refine ⟨some a, after, ?_, hafter⟩
    rw [run_attempt, hp]

/-- Nobody is armed in the course of a run. -/
theorem mem_armed_of_run {p : Procedure α} {rig : Rig} {name : String}
    (h : name ∈ (p.run rig).2.armed) : name ∈ rig.armed := by
  induction p generalizing rig with
  | done a => exact h
  | crash => exact h
  | ask action next ih =>
    have hafter : name ∈ (rig.answer action).2.armed := ih _ h
    rcases rig.answer_cases action with ⟨-, heq⟩ | ⟨-, heq⟩
    · rw [heq] at hafter
      exact rig.mem_armed_of_disarm hafter
    · rw [heq, rig.respond_armed action] at hafter
      exact hafter

theorem calm_run (p : Procedure α) {rig : Rig} (calm : rig.armed = ∅) :
    (p.run rig).2.armed = ∅ := by
  refine NameSet.ext_mem fun name => ⟨fun h => ?_, fun h => absurd h (NameSet.not_mem_empty name)⟩
  rw [← calm]
  exact mem_armed_of_run h

end Procedure

/-! ## The manager's memory and the parameters -/

/-- An action that writes neither the manager's memory nor the parameters. -/
def Action.Spares : Action → Prop
  | .save _ => False
  | .publish .. => False
  | _ => True

/-- An action that asks for something, and it does not matter when. -/
def Action.Inquires : Action → Prop
  | .readState _ => True
  | .hasEntry _ => True
  | .definitions _ => True
  | .log .. => True
  | _ => False

theorem Action.Inquires.spares {action : Action} (h : action.Inquires) : action.Spares := by
  cases action <;> trivial

theorem Rig.answer_spares (rig : Rig) (action : Action) (h : action.Spares) :
    ((rig.answer action).2.memory, (rig.answer action).2.params) = (rig.memory, rig.params) := by
  rcases rig.answer_cases action with ⟨-, heq⟩ | ⟨-, heq⟩
  · rw [heq]
    unfold Rig.disarm
    split <;> rfl
  · rw [heq]
    cases action with
    | save state => exact absurd h id
    | publish key text => exact absurd h id
    | readState resource =>
      show (rig.countRead.memory, rig.countRead.params) = (rig.memory, rig.params)
      unfold Rig.countRead
      split <;> rfl
    | _ => rfl

namespace Procedure

variable {α : Type}

theorem Composed.spares {p : Procedure α} (h : p.Composed Action.Inquires) :
    p.Composed Action.Spares :=
  h.mono fun _ => Action.Inquires.spares

/-- What asks for no writing leaves the manager's memory and the parameters as they were. -/
theorem Asks.spares {p : Procedure α} (h : p.Asks Action.Spares) (rig : Rig) :
    (p.run rig).2.memory = rig.memory ∧ (p.run rig).2.params = rig.params := by
  have hkeep := h.keeps (fun rig => (rig.memory, rig.params)) Rig.answer_spares rig
  exact ⟨congrArg Prod.fst hkeep, congrArg Prod.snd hkeep⟩

/-- While nothing is written, look-ups tell the truth about the parameters. -/
theorem Asks.lookedUp {p : Procedure α} (h : p.Asks Action.Spares) {rig : Rig} {key : String}
    {found : Bool} (mem : .lookedUp key found ∈ p.history rig) :
    found = rig.params.hasEntry key := by
  induction p generalizing rig with
  | done a => exact absurd mem List.not_mem_nil
  | crash => exact absurd mem List.not_mem_nil
  | ask action next ih =>
    have hparams : (rig.answer action).2.params = rig.params :=
      congrArg Prod.snd (rig.answer_spares action h.1)
    rcases List.mem_append.1 mem with hnow | hlater
    · rcases rig.answer_cases action with ⟨-, heq⟩ | ⟨-, heq⟩
      · rw [heq] at hnow
        cases action <;> exact absurd hnow List.not_mem_nil
      · rw [heq] at hnow
        cases action with
        | hasEntry key' =>
          cases List.mem_singleton.1 hnow
          rfl
        | call operation limit => cases List.mem_singleton.1 hnow
        | readState resource => cases List.mem_singleton.1 hnow
        | _ => exact absurd hnow List.not_mem_nil
    · rw [← hparams]
      exact ih _ (h.2 _) hlater

end Procedure

end ControlRig
