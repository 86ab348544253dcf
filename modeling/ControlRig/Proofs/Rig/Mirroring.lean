import ControlRig.Proofs.Registry.Undated
import ControlRig.Proofs.Rig.Leisure

/-!
# Two rigs side by side

Two rigs resemble each other if they differ only in moments, messages and numbers
(`Rig.Resembles`). `p.Mirrors R q` relates two procedures: wherever `p` is carried out, and
**however long it takes, it comes to what `q` comes to with nothing in between** on a rig that
resembles the first, up to the relation `R` between values, and leaves rigs that resemble each
other.

This is compositional, so it has to be shown of single actions only. What asks for the time mirrors
itself up to any relation, and nothing may be concluded from what it is told.
-/

namespace ControlRig

def ManagerState.undated (s : ManagerState) : ManagerState :=
  { s with lastTransitionAt := s.lastTransitionAt.map fun _ => .start }

namespace Rig

/-- Rigs that differ in nothing but moments, messages and numbers. -/
structure Resembles (rig other : Rig) : Prop where
  registry : rig.registry.undated = other.registry.undated
  memory : rig.memory.undated = other.memory.undated
  params : rig.params = other.params
  crashed : rig.crashed = other.crashed
  armed : rig.armed = other.armed

/-- Nobody is to crash, no resource needs time to initialize, no call is under way, and none have
overlapped. -/
structure Steady (rig : Rig) : Prop where
  calm : rig.armed = ∅
  prompt : rig.registry.initDelay = .zero
  idle : rig.registry.busy = false
  apart : rig.registry.reentrant = false

theorem Resembles.refl (rig : Rig) : rig.Resembles rig := ⟨rfl, rfl, rfl, rfl, rfl⟩

theorem Lingers.resembles {rig after : Rig} (h : rig.Lingers after) : after.Resembles rig :=
  ⟨by rw [h.registry], by rw [h.memory], h.params, h.crashed, h.armed⟩

theorem Resembles.trans {a b c : Rig} (hab : a.Resembles b) (hbc : b.Resembles c) : a.Resembles c :=
  ⟨hab.registry.trans hbc.registry, hab.memory.trans hbc.memory, hab.params.trans hbc.params,
    hab.crashed.trans hbc.crashed, hab.armed.trans hbc.armed⟩

theorem Resembles.symm {rig other : Rig} (h : rig.Resembles other) : other.Resembles rig :=
  ⟨h.registry.symm, h.memory.symm, h.params.symm, h.crashed.symm, h.armed.symm⟩

theorem Steady.later {rig after : Rig} (h : rig.Steady) (later : rig.Lingers after) :
    after.Steady where
  calm := later.calm h.calm
  prompt := later.prompt h.prompt
  idle := by
    rw [later.registry]
    exact h.idle
  apart := by
    rw [later.registry]
    exact h.apart

theorem Resembles.steady {rig other : Rig} (h : rig.Resembles other) (steady : rig.Steady) :
    other.Steady where
  calm := h.armed.symm.trans steady.calm
  prompt := (congrArg SimRegistry.initDelay h.registry).symm.trans steady.prompt
  idle := (congrArg SimRegistry.busy h.registry).symm.trans steady.idle
  apart := (congrArg SimRegistry.reentrant h.registry).symm.trans steady.apart

/-- A call that is carried out with nothing in between leaves nothing under way. -/
theorem Steady.call {rig : Rig} (h : rig.Steady) (operation : Operation) (limit : Duration) :
    (rig.call operation limit).2.Steady := by
  have hregistry := SimRegistry.run_registry rig.registry rig.clock limit operation
  refine ⟨h.calm, ?_, ?_, ?_⟩
  · exact (congrArg SimRegistry.initDelay hregistry).trans h.prompt
  · exact congrArg SimRegistry.busy hregistry
  · refine (congrArg SimRegistry.reentrant hregistry).trans ?_
    show (rig.registry.reentrant || rig.registry.busy) = false
    rw [h.apart, h.idle]
    rfl

theorem Resembles.activeName {rig other : Rig} (h : rig.Resembles other) :
    rig.memory.activeName = other.memory.activeName := by
  have hactive := congrArg ManagerState.active h.memory
  exact congrArg (Option.map Configuration.name) hactive

theorem Resembles.calls {rig other : Rig} (h : rig.Resembles other) :
    rig.registry.calls = other.registry.calls := by
  rw [← SimRegistry.undated_calls, h.registry, SimRegistry.undated_calls]

/-- What is read from a resource, and whether it is ready, is the same. -/
theorem Resembles.stateOf {rig other : Rig} (h : rig.Resembles other) (steady : rig.Steady)
    (resource : String) : rig.stateOf resource = other.stateOf resource := by
  rw [Rig.stateOf, Rig.stateOf, SimRegistry.stateAt_undated steady.prompt,
    SimRegistry.stateAt_undated (h.steady steady).prompt, h.registry]

end Rig

namespace Procedure

variable {α β γ δ : Type} {R : α → β → Prop} {S : γ → δ → Prop}

/-- A value and a rig are what a procedure comes to on another rig with nothing in between. -/
def Matches (R : α → β → Prop) (q : Procedure β) (other : Rig) (a : α) (after : Rig) : Prop :=
  ∃ b final, q.run other = (some b, final) ∧ R a b ∧ after.Resembles final ∧ after.Steady

/-- However long the first procedure takes, it comes to what the second comes to. -/
def Mirrors (R : α → β → Prop) (p : Procedure α) (q : Procedure β) : Prop :=
  ∀ rig other, rig.Resembles other → rig.Steady → p.Ensures (Matches R q other) rig

theorem mirrors_done {a : α} {b : β} (h : R a b) : (Procedure.done a).Mirrors R (.done b) :=
  fun _ other hsame steady => ensures_done fun _ hafter =>
    ⟨b, other, rfl, h, hafter.resembles.trans hsame, steady.later hafter⟩

theorem Mirrors.bind {p : Procedure α} {q : Procedure β} {f : α → Procedure γ}
    {g : β → Procedure δ} (hp : p.Mirrors R q) (hf : ∀ a b, R a b → (f a).Mirrors S (g b)) :
    (p >>= f).Mirrors S (q >>= g) := by
  intro rig other hsame steady
  refine (hp rig other hsame steady).bind ?_
  rintro a mid ⟨b, between, hq, hab, hmid, hsteady⟩
  refine Ensures.mono (hf a b hab mid between hmid hsteady) ?_
  rintro c after ⟨d, final, hg, hcd, hafter, hend⟩
  exact ⟨d, final, run_bind_some.2 ⟨b, between, hq, hg⟩, hcd, hafter, hend⟩

/-- Actions that are answered at once mirror each other if their answers and effects do. -/
theorem mirrors_of (action action' : Action) {R : action.Answer → action'.Answer → Prop}
    (prompt : action.IsPrompt)
    (h : ∀ rig other : Rig, rig.Resembles other → rig.Steady →
      R (rig.respond action).1 (other.respond action').1 ∧
      (rig.respond action).2.Resembles (other.respond action').2 ∧
      (rig.respond action).2.Steady) :
    (of action).Mirrors R (of action') := by
  intro rig other hsame steady
  refine ensures_of action prompt steady.calm fun begun hbegun after hafter => ?_
  obtain ⟨hvalue, hrig, hsteady⟩ :=
    h begun other (hbegun.resembles.trans hsame) (steady.later hbegun)
  exact ⟨_, _, run_of_calm (hsame.steady steady).calm action', hvalue,
    hafter.resembles.trans hrig, hsteady.later hafter⟩

/-- **A call comes to the same, however long it takes.** -/
theorem mirrors_call (operation : Operation) (limit : Duration) :
    (call operation limit).Mirrors Eq (call operation limit) := by
  intro rig other hsame steady
  refine ensures_call fun begun hbegun ended hended after hafter => ?_
  have hbegun' := hbegun.resembles.trans hsame
  have hcalm := (hsame.steady steady).calm
  -- the registries resemble each other while the call is under way
  let waited := (Crew.enterCall other operation).elapse (other.registry.wait limit)
  have hunder : ended.registry.undated = waited.registry.undated := by
    rw [hended.registry]
    show (begun.registry.enter operation).undated = (other.registry.enter operation).undated
    rw [SimRegistry.undated_enter, SimRegistry.undated_enter, hbegun'.registry]
  have hperform : (ended.registry.perform ended.clock limit operation).undated =
      (waited.registry.perform waited.clock limit operation).undated := by
    rw [SimRegistry.perform_undated, SimRegistry.perform_undated, hunder]
  have hcall : other.call operation limit = Crew.endCall waited operation limit :=
    Crew.call_eq other operation limit
  have hend : (Crew.endCall ended operation limit).2.Resembles (other.call operation limit).2 := by
    rw [hcall]
    exact
      { registry := congrArg (fun p => p.registry.leave) hperform
        memory := by
          show ended.memory.undated = other.memory.undated
          rw [hended.memory]
          exact hbegun'.memory
        params := hended.params.trans hbegun'.params
        crashed := hended.crashed.trans hbegun'.crashed
        armed := hended.armed.trans hbegun'.armed }
  have hanswer : (Crew.endCall ended operation limit).1 = (other.call operation limit).1 := by
    rw [hcall]
    exact congrArg (fun p => p.answer) hperform
  have hsteady := (hsame.steady steady).call operation limit
  exact ⟨_, _, run_of_calm hcalm _, hanswer, hafter.resembles.trans hend,
    (hend.symm.steady hsteady).later hafter⟩

theorem mirrors_readState (resource : String) :
    (readState resource).Mirrors Eq (readState resource) := by
  refine mirrors_of (.readState resource) (.readState resource) trivial
    fun rig other hsame steady => ⟨hsame.stateOf steady resource, ?_, ?_⟩
  · exact rig.lingers_countRead.resembles.trans
      (hsame.trans other.lingers_countRead.resembles.symm)
  · exact steady.later rig.lingers_countRead

theorem mirrors_hasEntry (key : String) : (hasEntry key).Mirrors Eq (hasEntry key) :=
  mirrors_of (.hasEntry key) (.hasEntry key) trivial fun _ _ hsame steady =>
    ⟨congrArg (ParamTree.hasEntry · key) hsame.params, hsame, steady⟩

theorem mirrors_definitions (key : String) : (definitions key).Mirrors Eq (definitions key) :=
  mirrors_of (.definitions key) (.definitions key) trivial fun _ _ hsame steady =>
    ⟨congrArg (ParamTree.get? · key) hsame.params, hsame, steady⟩

/-- What is logged makes no difference. -/
theorem mirrors_log (level level' : Level) (message message' : String) :
    Mirrors (Eq : Unit → Unit → Prop) (of (.log level message)) (of (.log level' message')) :=
  mirrors_of (.log level message) (.log level' message') trivial fun rig other hsame steady =>
    ⟨rfl, (rig.lingers_note _ _).resembles.trans (hsame.trans
      (other.lingers_note _ _).resembles.symm), steady.later (rig.lingers_note _ _)⟩

theorem mirrors_now : now.Mirrors (fun _ _ => True) now :=
  mirrors_of .now .now trivial fun _ _ hsame steady => ⟨trivial, hsame, steady⟩

theorem mirrors_publish (key text : String) :
    (publish key text).Mirrors Eq (publish key text) := by
  refine mirrors_of (.publish key text) (.publish key text) trivial fun rig other hsame steady =>
    ⟨rfl, ?_, ⟨steady.calm, steady.prompt, steady.idle, steady.apart⟩⟩
  have hparams : (rig.params.publish key text).1 = (other.params.publish key text).1 := by
    rw [hsame.params]
  exact ⟨hsame.registry, hsame.memory, hparams, hsame.crashed, hsame.armed⟩

theorem mirrors_save {state state' : ManagerState} (h : state.undated = state'.undated) :
    (save state).Mirrors Eq (save state') :=
  mirrors_of (.save state) (.save state') trivial fun _ _ hsame steady =>
    ⟨rfl, ⟨hsame.registry, h, hsame.params, hsame.crashed, hsame.armed⟩,
      ⟨steady.calm, steady.prompt, steady.idle, steady.apart⟩⟩

/-! ## What is put together -/

theorem Mirrors.attempt {p q : Procedure α} (hp : p.Mirrors Eq q) :
    p.attempt.Mirrors Eq q.attempt := by
  intro rig other hsame steady
  refine Ensures.mono (hp rig other hsame steady).attempt ?_
  rintro _ after ⟨a, rfl, _, final, hq, rfl, hafter, hend⟩
  refine ⟨some a, final, ?_, rfl, hafter, hend⟩
  rw [run_attempt, hq]

theorem compositional_mirrors : Compositional fun {α} (p : Procedure α) => p.Mirrors Eq p where
  done _ := mirrors_done rfl
  bind hp hf := hp.bind fun a _ hab => hab ▸ hf a

/-- **What is put together from inquiries mirrors itself.** -/
theorem Composed.mirrors {p : Procedure α} (h : p.Composed Action.Inquires) : p.Mirrors Eq p := by
  induction h with
  | done a => exact mirrors_done rfl
  | of action inquires =>
    cases action with
    | readState resource => exact mirrors_readState resource
    | hasEntry key => exact mirrors_hasEntry key
    | definitions key => exact mirrors_definitions key
    | log level message => exact mirrors_log level level message message
    | _ => exact absurd inquires id
  | bind _ _ ihp ihf => exact compositional_mirrors.bind ihp ihf
  | attempt _ ih => exact ih.attempt

end Procedure

end ControlRig
