import ControlRig.Proofs.Rig.Continuation
import ControlRig.Proofs.Transition.Readiness
import ControlRig.Rig.Crew

/-!
# However long it takes

A procedure that holds the lock is not alone on the rig. Between two of its actions, and while a
call or a pause lasts, time passes, and others take numbers and log; but what the lock guards stays
as it is (`Rig.Lingers`).

`p.Ensures Q rig` says that `p` comes to a value with the property `Q`, **however long others let it
wait**, and wherever. `Leads` is the same with any goal for the rest of the procedure instead of a
value. Both hold of what follows if they hold of what comes first (`Ensures.bind`), and a procedure
that is carried out with nothing in between is a special case (`Ensures.run`).
-/

namespace ControlRig

namespace Rig

/-- Time has passed, and nothing has changed that the lock guards. -/
structure Lingers (rig after : Rig) : Prop where
  registry : after.registry = rig.registry
  memory : after.memory = rig.memory
  params : after.params = rig.params
  crashed : after.crashed = rig.crashed
  armed : after.armed = rig.armed
  clock : rig.clock ≤ after.clock

theorem Lingers.refl (rig : Rig) : rig.Lingers rig := ⟨rfl, rfl, rfl, rfl, rfl, Nat.le_refl _⟩

theorem Lingers.trans {a b c : Rig} (hab : a.Lingers b) (hbc : b.Lingers c) : a.Lingers c where
  registry := hbc.registry.trans hab.registry
  memory := hbc.memory.trans hab.memory
  params := hbc.params.trans hab.params
  crashed := hbc.crashed.trans hab.crashed
  armed := hbc.armed.trans hab.armed
  clock := Nat.le_trans hab.clock hbc.clock

theorem Lingers.calm {rig after : Rig} (h : rig.Lingers after) (calm : rig.armed = ∅) :
    after.armed = ∅ :=
  h.armed.trans calm

theorem Lingers.prompt {rig after : Rig} (h : rig.Lingers after)
    (prompt : rig.registry.initDelay = .zero) : after.registry.initDelay = .zero := by
  rw [h.registry]
  exact prompt

theorem lingers_elapse (rig : Rig) (d : Duration) : rig.Lingers (rig.elapse d) :=
  ⟨rfl, rfl, rfl, rfl, rfl, Nat.le_add_right _ _⟩

theorem lingers_note (rig : Rig) (level : Level) (message : String) :
    rig.Lingers (rig.note level message) :=
  ⟨rfl, rfl, rfl, rfl, rfl, Nat.le_refl _⟩

theorem lingers_countRead (rig : Rig) : rig.Lingers rig.countRead := by
  unfold countRead
  split <;> exact ⟨rfl, rfl, rfl, rfl, rfl, Nat.le_refl _⟩

theorem answer_of_calm (rig : Rig) (calm : rig.armed = ∅) (action : Action) :
    rig.answer action = (some (rig.respond action).1, (rig.respond action).2) := by
  rcases rig.answer_cases action with ⟨harm, -⟩ | ⟨-, heq⟩
  · rw [rig.not_isArmedAt calm action] at harm
    cases harm
  · exact heq

end Rig

/-- An action that is answered at once, and has nothing to do with the lock. -/
def Action.IsPrompt : Action → Prop
  | .call .. => False
  | .sleep _ => False
  | .lock => False
  | .unlock _ => False
  | _ => True

namespace Procedure

variable {α β : Type} {T : Procedure α → Rig → Prop} {Q : α → Rig → Prop} {rig : Rig}

/-- However long it takes, a procedure gets to a point from which the rest reaches its goal. -/
inductive Leads (T : Procedure α → Rig → Prop) : Procedure α → Rig → Prop
  | here {p : Procedure α} {rig : Rig} : (∀ after, rig.Lingers after → T p after) → Leads T p rig
  | call {operation : Operation} {limit : Duration} {next : Option Operation.Answer → Procedure α}
      {rig : Rig} :
      (∀ begun, rig.Lingers begun → ∀ ended, (Crew.enterCall begun operation).Lingers ended →
        begun.clock.after (begun.registry.wait limit) ≤ ended.clock →
        Leads T (next (some (Crew.endCall ended operation limit).1))
          (Crew.endCall ended operation limit).2) →
      Leads T (.ask (.call operation limit) next) rig
  | sleep {d : Duration} {next : Option Unit → Procedure α} {rig : Rig} :
      (∀ begun, rig.Lingers begun → ∀ ended, begun.Lingers ended →
        begun.clock.after d ≤ ended.clock → Leads T (next (some ())) ended) →
      Leads T (.ask (.sleep d) next) rig
  | act {action : Action} {next : Option action.Answer → Procedure α} {rig : Rig} :
      action.IsPrompt →
      (∀ begun, rig.Lingers begun → Leads T (next (begun.answer action).1)
        (begun.answer action).2) →
      Leads T (.ask action next) rig

/-- However long it takes, a procedure comes to a value with a property. -/
def Ensures (p : Procedure α) (Q : α → Rig → Prop) (rig : Rig) : Prop :=
  Leads (fun p rig => ∃ a, p = .done a ∧ Q a rig) p rig

/-- Waiting before the beginning makes no difference. -/
theorem Leads.later {p : Procedure α} {mid : Rig} (h : Leads T p rig) (later : rig.Lingers mid) :
    Leads T p mid := by
  cases h with
  | here h => exact .here fun after ha => h after (later.trans ha)
  | call h => exact .call fun begun hb => h begun (later.trans hb)
  | sleep h => exact .sleep fun begun hb => h begun (later.trans hb)
  | act prompt h => exact .act prompt fun begun hb => h begun (later.trans hb)

theorem Leads.mono {T' : Procedure α → Rig → Prop} {p : Procedure α} (h : Leads T p rig)
    (imp : ∀ p rig, T p rig → T' p rig) : Leads T' p rig := by
  induction h with
  | here h => exact .here fun after ha => imp _ _ (h after ha)
  | call _ ih => exact .call ih
  | sleep _ ih => exact .sleep ih
  | act prompt _ ih => exact .act prompt ih

theorem Ensures.mono {Q' : α → Rig → Prop} {p : Procedure α} (h : p.Ensures Q rig)
    (imp : ∀ a rig, Q a rig → Q' a rig) : p.Ensures Q' rig := by
  refine Leads.mono h ?_
  rintro _ rig ⟨a, rfl, hq⟩
  exact ⟨a, rfl, imp a rig hq⟩

/-! ## Rules -/

theorem ensures_done {a : α} (h : ∀ after, rig.Lingers after → Q a after) :
    (Procedure.done a).Ensures Q rig :=
  .here fun after ha => ⟨a, rfl, h after ha⟩

theorem Ensures.bind {T : Procedure β → Rig → Prop} {p : Procedure α} {f : α → Procedure β}
    (hp : p.Ensures Q rig) (hf : ∀ a mid, Q a mid → Leads T (f a) mid) :
    Leads T (p >>= f) rig := by
  induction hp with
  | @here p rig h =>
    obtain ⟨a, rfl, hq⟩ := h rig (.refl rig)
    exact hf a rig hq
  | call _ ih => exact .call ih
  | sleep _ ih => exact .sleep ih
  | act prompt _ ih => exact .act prompt ih

theorem Ensures.attempt {p : Procedure α} (hp : p.Ensures Q rig) :
    p.attempt.Ensures (fun result after => ∃ a, result = some a ∧ Q a after) rig := by
  induction hp with
  | @here p rig h =>
    obtain ⟨a, rfl, -⟩ := h rig (.refl rig)
    refine ensures_done fun after ha => ?_
    obtain ⟨_, hdone, hq⟩ := h after ha
    cases hdone
    exact ⟨a, rfl, hq⟩
  | call _ ih => exact .call ih
  | sleep _ ih => exact .sleep ih
  | act prompt _ ih => exact .act prompt ih

theorem ensures_of (action : Action) {Q : action.Answer → Rig → Prop} (prompt : action.IsPrompt)
    (calm : rig.armed = ∅) (h : ∀ begun, rig.Lingers begun →
      ∀ after, (begun.respond action).2.Lingers after → Q (begun.respond action).1 after) :
    (of action).Ensures Q rig := by
  refine .act prompt fun begun hbegun => ?_
  rw [begun.answer_of_calm (hbegun.calm calm)]
  exact ensures_done (h begun hbegun)

theorem ensures_call {operation : Operation} {limit : Duration}
    {Q : Operation.Answer → Rig → Prop}
    (h : ∀ begun, rig.Lingers begun → ∀ ended, (Crew.enterCall begun operation).Lingers ended →
      ∀ after, (Crew.endCall ended operation limit).2.Lingers after →
        Q (Crew.endCall ended operation limit).1 after) :
    (call operation limit).Ensures Q rig :=
  .call fun begun hbegun ended hended _ => ensures_done (h begun hbegun ended hended)

theorem ensures_sleep (rig : Rig) (d : Duration) : (sleep d).Ensures
    (fun _ after => rig.Lingers after ∧ rig.clock.after d ≤ after.clock) rig := by
  refine .sleep fun begun hbegun ended hended hdue => ensures_done fun after hafter => ?_
  refine ⟨hbegun.trans (hended.trans hafter), ?_⟩
  have hstart : rig.clock.nanos ≤ begun.clock.nanos := hbegun.clock
  have hwait : begun.clock.nanos + d.nanos ≤ ended.clock.nanos := hdue
  have hend : ended.clock.nanos ≤ after.clock.nanos := hafter.clock
  show rig.clock.nanos + d.nanos ≤ after.clock.nanos
  omega

theorem ensures_now (calm : rig.armed = ∅) : now.Ensures
    (fun t after => rig.Lingers after ∧ rig.clock ≤ t ∧ t ≤ after.clock) rig :=
  ensures_of .now trivial calm fun _ hbegun _ hafter =>
    ⟨hbegun.trans hafter, hbegun.clock, hafter.clock⟩

theorem ensures_readState (calm : rig.armed = ∅) (resource : String) :
    (readState resource).Ensures (fun state after => ∃ begun, rig.Lingers begun ∧
      begun.Lingers after ∧ state = begun.stateOf resource) rig :=
  ensures_of (.readState resource) trivial calm fun begun hbegun _ hafter =>
    ⟨begun, hbegun, begun.lingers_countRead.trans hafter, rfl⟩

theorem ensures_log (calm : rig.armed = ∅) (level : Level) (message : String) :
    (of (.log level message)).Ensures (fun _ after => rig.Lingers after) rig :=
  ensures_of (.log level message) trivial calm fun begun hbegun _ hafter =>
    hbegun.trans ((begun.lingers_note level message).trans hafter)

/-- Who only watches changes nothing that the lock guards. -/
theorem Composed.lingers {p : Procedure α} (h : p.Composed Action.Watches)
    (calm : rig.armed = ∅) : p.Ensures (fun _ after => rig.Lingers after) rig := by
  induction h generalizing rig with
  | done a => exact ensures_done fun after ha => ha
  | of action watches =>
    cases action with
    | readState resource =>
      exact (ensures_readState calm resource).mono fun _ _ ⟨_, hbegun, hafter, _⟩ =>
        hbegun.trans hafter
    | log level message => exact ensures_log calm level message
    | now => exact (ensures_now calm).mono fun _ _ h => h.1
    | sleep d => exact (ensures_sleep rig d).mono fun _ _ h => h.1
    | _ => exact absurd watches id
  | bind _ _ ihp ihf =>
    refine (ihp calm).bind fun a mid hmid => ?_
    exact Ensures.mono (ihf a (hmid.calm calm)) fun _ _ hafter => hmid.trans hafter
  | attempt _ ih => exact (ih calm).attempt.mono fun _ _ ⟨_, _, hafter⟩ => hafter

/-! ## Special cases -/

/-- **What is ensured however long it takes is so with nothing in between.** -/
theorem Ensures.run {p : Procedure α} (h : p.Ensures Q rig) (calm : rig.armed = ∅) :
    ∃ a after, p.run rig = (some a, after) ∧ Q a after := by
  induction h with
  | @here p rig h =>
    obtain ⟨a, rfl, hq⟩ := h rig (.refl rig)
    exact ⟨a, rig, rfl, hq⟩
  | @call operation limit next rig _ ih =>
    rw [run_ask, rig.answer_of_calm calm]
    show ∃ a after, (next (some (rig.call operation limit).1)).run (rig.call operation limit).2 =
      (some a, after) ∧ Q a after
    rw [Crew.call_eq]
    exact ih rig (.refl rig) _ (Rig.lingers_elapse _ _) (Nat.le_refl _) calm
  | @sleep d next rig _ ih =>
    rw [run_ask, rig.answer_of_calm calm]
    exact ih rig (.refl rig) (rig.elapse d) (rig.lingers_elapse d) (Nat.le_refl _) calm
  | @act action next rig prompt _ ih =>
    refine ih rig (.refl rig) ?_
    rw [rig.answer_of_calm calm]
    exact (rig.respond_armed action).trans calm

/-- The value of who only watches is one to which a walk leads. -/
theorem Ensures.goes {p : Procedure α} (h : p.Ensures Q rig) (calm : rig.armed = ∅)
    (watches : p.Asks Action.Watches) :
    p.Ensures (fun a after => Q a after ∧ ∃ seen, p.Goes seen (some a)) rig := by
  induction h with
  | @here p rig h =>
    obtain ⟨a, rfl, -⟩ := h rig (.refl rig)
    refine ensures_done fun after ha => ?_
    obtain ⟨_, hdone, hq⟩ := h after ha
    cases hdone
    exact ⟨hq, [], goes_done.2 ⟨rfl, rfl⟩⟩
  | call => exact absurd watches.1 id
  | @sleep d next rig _ ih =>
    refine .sleep fun begun hbegun ended hended hdue => ?_
    have hcalm := hended.calm (hbegun.calm calm)
    refine Ensures.mono (ih begun hbegun ended hended hdue hcalm (watches.2 _)) ?_
    rintro a after ⟨hq, seen, hgo⟩
    exact ⟨hq, _, some (), seen, fun _ _ => trivial, rfl, hgo⟩
  | @act action next rig prompt _ ih =>
    refine .act prompt fun begun hbegun => ?_
    have hcalm := hbegun.calm calm
    have hafter : (begun.answer action).2.armed = ∅ := by
      rw [begun.answer_of_calm hcalm]
      exact (begun.respond_armed action).trans hcalm
    refine Ensures.mono (ih begun hbegun hafter (watches.2 _)) ?_
    rintro a after ⟨hq, seen, hgo⟩
    refine ⟨hq, _, (begun.answer action).1, seen, fun answer hanswer => ?_, rfl, hgo⟩
    rw [begun.answer_of_calm hcalm] at hanswer
    cases hanswer
    exact begun.respond_admits action

end Procedure

end ControlRig
