import ControlRig.Proofs.Registry.Controllers

/-!
# A strict start beside a best-effort one

Both walk the same resources and the same declared controllers, and they part at the first
controller that fails: **the strict start gives up at what the best-effort one skips first**, and
where nothing is skipped the two are the same (`startAll_strict_error`, `startAll_strict_of_complete`).
A controller that runs already is exempt from failures in both, so that the walks agree on the
running ones needs no argument.

A registry does not look at the calls that it has recorded (`run_withCalls`). This is why the
strictness that an earlier start has left in the record makes no difference to what comes later.
-/

namespace ControlRig

/-- A call with its strictness left out: every start is recorded as a best-effort one. -/
def Call.lenient : Call → Call
  | .startControllers resources configuration _ => .startControllers resources configuration .bestEffort
  | call => call

namespace SimRegistry

variable {faults : Faults} {configuration : Configuration}

/-! ## One resource -/

section

variable {fails : String → Bool}

theorem startDeclared_strict_failed (declared : List Controller) (running : List String) :
    (startDeclared fails .strict declared running).failed =
      (startDeclared fails .bestEffort declared running).skipped.head? := by
  induction declared generalizing running with
  | nil => rfl
  | cons c rest ih =>
    unfold startDeclared
    split
    · exact ih running
    · split
      · rfl
      · exact ih _

theorem startDeclared_strict_of_complete {declared : List Controller} {running : List String}
    (complete : (startDeclared fails .bestEffort declared running).skipped = []) :
    startDeclared fails .strict declared running =
      startDeclared fails .bestEffort declared running := by
  induction declared generalizing running with
  | nil => rfl
  | cons c rest ih =>
    unfold startDeclared at complete ⊢
    split at complete
    case isTrue hrun =>
      rw [if_pos hrun, if_pos hrun]
      exact ih complete
    case isFalse hrun =>
      rw [if_neg hrun, if_neg hrun]
      split at complete
      case isTrue hf => cases complete
      case isFalse hf =>
        rw [if_neg hf, if_neg hf]
        exact ih complete

end

/-! ## Several resources -/

/-- **A strict start gives up at the first controller that a best-effort start skips.** If there is
none, it fails where the other does. -/
theorem startAll_strict_error (names : List String) (held : SortedMap Held) :
    (startAll faults configuration .strict names held).error =
      match (startAll faults configuration .bestEffort names held).skipped with
      | [] => (startAll faults configuration .bestEffort names held).error
      | (resource, id) :: _ => some (refusal resource id) := by
  induction names generalizing held with
  | nil => rfl
  | cons resource rest ih =>
    unfold startAll
    cases held.find? resource with
    | none => rfl
    | some h =>
      dsimp only
      have hbest : (startOn faults configuration .bestEffort resource h.controllers).failed = none :=
        startDeclared_bestEffort _ _
      have hstrict : (startOn faults configuration .strict resource h.controllers).failed =
          (startOn faults configuration .bestEffort resource h.controllers).skipped.head? :=
        startDeclared_strict_failed _ _
      rw [hbest, hstrict]
      cases hskip : (startOn faults configuration .bestEffort resource h.controllers).skipped with
      | cons id more => rfl
      | nil =>
        -- nothing was skipped on this resource, so both leave it alike and go on
        have hsame : startOn faults configuration .strict resource h.controllers =
            startOn faults configuration .bestEffort resource h.controllers :=
          startDeclared_strict_of_complete hskip
        rw [hsame]
        exact ih _

/-- **Where a best-effort start skips nothing, a strict start is the same.** -/
theorem startAll_strict_of_complete {names : List String} {held : SortedMap Held}
    (complete : (startAll faults configuration .bestEffort names held).skipped = []) :
    startAll faults configuration .strict names held =
      startAll faults configuration .bestEffort names held := by
  induction names generalizing held with
  | nil => rfl
  | cons resource rest ih =>
    unfold startAll at complete ⊢
    cases hh : held.find? resource with
    | none => rfl
    | some h =>
      have hbest : (startOn faults configuration .bestEffort resource h.controllers).failed = none :=
        startDeclared_bestEffort _ _
      simp only [hh, hbest, List.append_eq_nil_iff, List.map_eq_nil_iff] at complete ⊢
      have hsame : startOn faults configuration .strict resource h.controllers =
          startOn faults configuration .bestEffort resource h.controllers :=
        startDeclared_strict_of_complete complete.1
      rw [hsame, hbest]
      dsimp only
      rw [ih complete.2]

/-! ## The record of calls -/

/-- The registry with other calls on record. -/
def withCalls (r : SimRegistry) (calls : List Call) : SimRegistry := { r with calls := calls }

/-- The registry with the strictness of past starts left out. -/
def lenient (r : SimRegistry) : SimRegistry := r.withCalls (r.calls.map Call.lenient)

theorem effect_withCalls (r : SimRegistry) (calls : List Call) (now : Instant)
    (operation : Operation) :
    (r.withCalls calls).effect now operation =
      { r.effect now operation with registry := (r.effect now operation).registry.withCalls calls } := by
  cases operation with
  | listLoaded => by_cases h : r.faults.list = true <;> simp [effect, withCalls, h]
  | load resource =>
    by_cases hf : resource ∈ r.faults.loads
    · simp [effect, withCalls, hf]
    · by_cases hh : r.held.contains resource = true <;> simp [effect, withCalls, hf, hh]
  | unload resources | purge => by_cases h : r.faults.unload = true <;> simp [effect, withCalls, h]
  | startControllers resources configuration strictness =>
    simp only [effect, withCalls]
    cases (startAll r.faults configuration strictness resources r.held).error <;> rfl
  | stopControllers resources =>
    by_cases h : r.faults.stop = true <;> simp [effect, withCalls, h]

/-- A call does not depend on the calls before it. -/
theorem run_withCalls (r : SimRegistry) (calls : List Call) (now : Instant) (limit : Duration)
    (operation : Operation) :
    (r.withCalls calls).run now limit operation =
      { r.run now limit operation with
        registry := (r.run now limit operation).registry.withCalls (calls ++ [operation.call]) } := by
  have henter : (r.withCalls calls).enter operation =
      (r.enter operation).withCalls (calls ++ [operation.call]) := rfl
  have hlatency : ((r.enter operation).withCalls (calls ++ [operation.call])).latency =
      (r.enter operation).latency := rfl
  unfold run perform
  rw [henter, effect_withCalls, hlatency]
  by_cases hlate : limit < (r.enter operation).latency
  · rw [if_pos hlate, if_pos hlate]
    rfl
  · rw [if_neg hlate, if_neg hlate]
    rfl

/-- Registries that differ in the strictness of past starts answer a call alike, and differ in
nothing else after it. -/
theorem run_congr_of_lenient {r s : SimRegistry} (h : r.lenient = s.lenient) (now : Instant)
    (limit : Duration) (operation : Operation) :
    (r.run now limit operation).answer = (s.run now limit operation).answer ∧
      (r.run now limit operation).registry.lenient =
        (s.run now limit operation).registry.lenient := by
  have hcalls : r.calls.map Call.lenient = s.calls.map Call.lenient := congrArg SimRegistry.calls h
  have hs : s = r.withCalls s.calls := by
    have hback := congrArg (·.withCalls s.calls) h
    exact hback.symm
  have hrun := run_withCalls r s.calls now limit operation
  rw [← hs] at hrun
  rw [hrun]
  refine ⟨rfl, ?_⟩
  show (r.run now limit operation).registry.withCalls _ =
    (r.run now limit operation).registry.withCalls _
  congr 1
  rw [run_calls, List.map_append, hcalls]
  exact (List.map_append ..).symm

/-! ## The call -/

/-- A start that is in time has walked all the resources. -/
theorem run_startControllers_intime {r : SimRegistry} {limit : Duration} (now : Instant)
    (intime : ¬ limit < r.latency) (resources : List String) (configuration : Configuration)
    (strictness : Strictness) :
    let s := startAll r.faults configuration strictness resources r.held
    let p := r.run now limit (.startControllers resources configuration strictness)
    p.registry.held = s.held ∧
      p.answer = match s.error with
        | some e => .error e
        | none => .ok (s.skipped.map fun (resource, id) => controllerName resource id) := by
  intro s p
  obtain ⟨hlate, -⟩ | ⟨-, t, hans, hheld⟩ :=
    run_cases r now limit (.startControllers resources configuration strictness)
  · exact absurd hlate intime
  · rw [hans, hheld]
    simp only [effect]
    cases s.error <;> exact ⟨rfl, rfl⟩

/-- **What a strict start answers beside a best-effort one.** Either the two come to the same, and
nothing has been skipped; or the strict one fails at the first of the skipped controllers. -/
theorem run_startControllers_strict (r : SimRegistry) (now : Instant) (limit : Duration)
    (resources : List String) (configuration : Configuration) :
    let best := r.run now limit (.startControllers resources configuration .bestEffort)
    let strict := r.run now limit (.startControllers resources configuration .strict)
    (strict.answer = best.answer ∧ strict.registry.lenient = best.registry.lenient ∧
      ∀ names, best.answer = .ok names → names = []) ∨
    ∃ resource id, strict.answer = .error (refusal resource id) ∧
      ∀ names, best.answer = .ok names → ∃ rest, names = controllerName resource id :: rest := by
  intro best strict
  have hbest : best.registry = _ := run_registry r now limit _
  have hstrict : strict.registry = _ := run_registry r now limit _
  -- the two leave the same marks, so only what is held has to be compared
  have hlenient : strict.registry.held = best.registry.held →
      strict.registry.lenient = best.registry.lenient := by
    intro hheld
    rw [hbest, hstrict, hheld]
    simp only [lenient, withCalls, List.map_append]
    rfl
  by_cases hlate : limit < r.latency
  · obtain ⟨-, hs, hsheld⟩ | ⟨hintime, -⟩ :=
      run_cases r now limit (.startControllers resources configuration .strict)
    · obtain ⟨-, hb, hbheld⟩ | ⟨hintime, -⟩ :=
        run_cases r now limit (.startControllers resources configuration .bestEffort)
      · refine .inl ⟨hs.trans hb.symm, hlenient (hsheld.trans hbheld.symm), fun names hnames => ?_⟩
        cases hb.symm.trans hnames
      · exact absurd hlate hintime
    · exact absurd hlate hintime
  · obtain ⟨hbheld, hb⟩ := run_startControllers_intime now hlate resources configuration .bestEffort
    obtain ⟨hsheld, hs⟩ := run_startControllers_intime now hlate resources configuration .strict
    have herror : (startAll r.faults configuration .strict resources r.held).error = _ :=
      startAll_strict_error resources r.held
    cases hskip : (startAll r.faults configuration .bestEffort resources r.held).skipped with
    | nil =>
      rw [startAll_strict_of_complete hskip] at hs hsheld
      refine .inl ⟨hs.trans hb.symm, hlenient (hsheld.trans hbheld.symm), fun names hnames => ?_⟩
      rw [hnames, hskip] at hb
      split at hb
      · cases hb
      · exact Except.ok.inj hb
    | cons first rest =>
      obtain ⟨resource, id⟩ := first
      rw [hskip] at herror
      rw [herror] at hs
      refine .inr ⟨resource, id, hs, fun names hnames => ?_⟩
      rw [hnames, hskip] at hb
      split at hb
      · cases hb
      · exact ⟨_, Except.ok.inj hb⟩

end SimRegistry

end ControlRig
