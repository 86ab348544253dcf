import ControlRig.Proofs.Registry.Controllers

/-!
# Registries that can come about

`SimRegistry.Reachable` holds of a registry that was fresh once and has been through calls and
changes behind the callers' backs, in any order. Calls come in their three steps, so that they may
overlap. Whoever relies on something about a registry that was found, and not made, relies on an
invariant of `Reachable`; there is one so far: **no controller runs twice on a resource**
(`Reachable.nodup`).
-/

namespace ControlRig

namespace SimRegistry

/-- Something that happens to a simulated registry. -/
inductive Step : SimRegistry → SimRegistry → Prop
  | enter (r : SimRegistry) (operation : Operation) : Step r (r.enter operation)
  | perform (r : SimRegistry) (now : Instant) (limit : Duration) (operation : Operation) :
      Step r (r.perform now limit operation).registry
  | leave (r : SimRegistry) : Step r r.leave
  | failLoad (r : SimRegistry) (resource : String) : Step r (r.failLoad resource)
  | stall (r : SimRegistry) (resource : String) : Step r (r.stall resource)
  | failController (r : SimRegistry) (resource id : String) : Step r (r.failController resource id)
  | failList (r : SimRegistry) (on : Bool) : Step r (r.failList on)
  | failStop (r : SimRegistry) (on : Bool) : Step r (r.failStop on)
  | failUnload (r : SimRegistry) (on : Bool) : Step r (r.failUnload on)
  | forceState (r : SimRegistry) (resource : String) (state : ResourceState) :
      Step r (r.forceState resource state)
  | insertLoaded (r : SimRegistry) (now : Instant) (resource : String) :
      Step r (r.insertLoaded now resource)
  | forget (r : SimRegistry) (resource : String) : Step r (r.forget resource)
  /-- The record of the calls is thrown away. -/
  | clearCalls (r : SimRegistry) : Step r { r with calls := [] }

/-- A registry that was fresh once and has been through steps since. -/
inductive Reachable : SimRegistry → Prop
  | fresh (initDelay latency : Duration) : Reachable (fresh initDelay latency)
  | step {r s : SimRegistry} : Reachable r → Step r s → Reachable s

/-- A whole call is three steps. -/
theorem Reachable.run {r : SimRegistry} (h : r.Reachable) (now : Instant) (limit : Duration)
    (operation : Operation) : (r.run now limit operation).registry.Reachable := by
  have hentered := h.step (.enter r operation)
  have hperformed := hentered.step
    (.perform (r.enter operation) (now.after (r.wait limit)) limit operation)
  exact hperformed.step (.leave _)

/-! ## No controller runs twice -/

/-- On every resource, each controller that runs does so once. -/
def RunsOnce (held : SortedMap Held) : Prop := ∀ resource, (runningIn held resource).Nodup

theorem runsOnce_empty : RunsOnce ∅ := by
  intro resource
  exact List.nodup_nil

theorem RunsOnce.insert {held : SortedMap Held} (h : RunsOnce held) (resource : String) {x : Held}
    (hx : x.controllers.Nodup) : RunsOnce (held.insert resource x) := by
  intro other
  by_cases ho : resource = other
  · subst ho
    rw [runningIn, SortedMap.find?_insert_self]
    exact hx
  · rw [runningIn, SortedMap.find?_insert_of_ne _ ho]
    exact h other

theorem RunsOnce.erase {held : SortedMap Held} (h : RunsOnce held) (resource : String) :
    RunsOnce (held.erase resource) := by
  intro other
  by_cases ho : resource = other
  · subst ho
    rw [runningIn, SortedMap.find?_erase_self]
    exact List.nodup_nil
  · rw [runningIn, SortedMap.find?_erase_of_ne _ ho]
    exact h other

/-- A change that starts nothing. -/
theorem RunsOnce.modify {held : SortedMap Held} (h : RunsOnce held) (resource : String)
    {f : Held → Held} (hf : ∀ x, (f x).controllers = x.controllers ∨ (f x).controllers = []) :
    RunsOnce (held.modify resource f) := by
  intro other
  by_cases ho : resource = other
  · subst ho
    rw [runningIn, SortedMap.find?_modify_self]
    cases hx : held.find? resource with
    | none => exact List.nodup_nil
    | some x =>
      have hold : x.controllers.Nodup := by
        have hrun := h resource
        rwa [runningIn, hx] at hrun
      show (f x).controllers.Nodup
      rcases hf x with hsame | hnone
      · rw [hsame]
        exact hold
      · rw [hnone]
        exact List.nodup_nil
  · rw [runningIn, SortedMap.find?_modify_of_ne _ ho]
    exact h other

/-- Whatever is done for one resource after the other. -/
theorem RunsOnce.foldl {held : SortedMap Held} (h : RunsOnce held)
    {f : SortedMap Held → String → SortedMap Held}
    (hf : ∀ held resource, RunsOnce held → RunsOnce (f held resource)) (resources : List String) :
    RunsOnce (resources.foldl f held) := by
  induction resources generalizing held with
  | nil => exact h
  | cons resource rest ih => exact ih (hf held resource h)

/-- No operation makes a controller run twice. -/
theorem effect_runsOnce {r : SimRegistry} (h : RunsOnce r.held) (now : Instant)
    (operation : Operation) : RunsOnce (r.effect now operation).registry.held := by
  cases operation with
  | listLoaded =>
    simp only [effect]
    split <;> exact h
  | load resource =>
    simp only [effect]
    split
    · exact h
    · split
      · exact h
      · exact h.insert resource List.nodup_nil
  | unload resources =>
    simp only [effect]
    split
    · exact h
    · exact h.foldl (fun _ resource hheld => hheld.erase resource) resources
  | purge =>
    simp only [effect]
    split
    · exact h
    · exact runsOnce_empty
  | startControllers resources configuration strictness =>
    have hstarted : RunsOnce (startAll r.faults configuration strictness resources r.held).held :=
      startAll_nodup resources h
    simp only [effect]
    split <;> exact hstarted
  | stopControllers resources =>
    simp only [effect]
    split
    · exact h
    · exact h.foldl (fun _ resource hheld => hheld.modify resource fun _ => .inr rfl) resources

theorem RunsOnce.run {r : SimRegistry} (h : RunsOnce r.held) (now : Instant) (limit : Duration)
    (operation : Operation) : RunsOnce (r.run now limit operation).registry.held := by
  obtain ⟨-, -, hheld⟩ | ⟨-, t, -, hheld⟩ := run_cases r now limit operation
  · rw [hheld]
    exact h
  · rw [hheld]
    exact effect_runsOnce h t operation

theorem Step.runsOnce {r s : SimRegistry} (h : Step r s) (hr : RunsOnce r.held) :
    RunsOnce s.held := by
  cases h with
  | perform now limit operation =>
    unfold SimRegistry.perform
    split
    · exact hr
    · exact effect_runsOnce hr now operation
  | forceState resource state => exact hr.modify resource fun _ => .inl rfl
  | insertLoaded now resource => exact hr.insert resource List.nodup_nil
  | forget resource => exact hr.erase resource
  | _ => exact hr

/-- In a registry that can come about, no controller runs twice on a resource. -/
theorem Reachable.nodup {r : SimRegistry} (h : r.Reachable) (resource : String) :
    (r.running resource).Nodup := by
  -- the induction needs the invariant for all resources at once
  suffices hheld : RunsOnce r.held from hheld resource
  induction h with
  | fresh initDelay latency => exact runsOnce_empty
  | step _ hstep ih => exact hstep.runsOnce ih

end SimRegistry

/-! ## A registry to try things on -/

/-- Handling goods takes an arm that grips and moves, and a belt that feeds it. -/
def Configuration.handling : Configuration where
  name := "handling"
  state := .idle
  components :=
    (SortedMap.empty.insert "arm" [.on "arm" "grip", .on "arm" "move"]).insert "belt"
      [.on "belt" "feed"]
  wellFormed := Configuration.problem_eq_none_iff.1 (by decide +kernel)

/-- Welding takes an arm that grips and holds a torch, and a gun. -/
def Configuration.welding : Configuration where
  name := "welding"
  state := .idle
  components :=
    (SortedMap.empty.insert "arm" [.on "arm" "grip", .on "arm" "torch"]).insert "gun"
      [.on "gun" "spark"]
  wellFormed := Configuration.problem_eq_none_iff.1 (by decide +kernel)

namespace SimRegistry

/-- A registry on which handling goes on, with a gripper that could not be started again and a torch
that cannot be started at all. -/
def whileHandling : SimRegistry :=
  let loaded := ((fresh .zero .zero).insertLoaded .start "arm").insertLoaded .start "belt"
  let started := (loaded.run .start .zero
    (.startControllers ["arm", "belt"] Configuration.handling .strict)).registry
  (started.failController "arm" "grip").failController "arm" "torch"

theorem whileHandling_reachable : whileHandling.Reachable := by
  have harm := (Reachable.fresh .zero .zero).step (.insertLoaded _ .start "arm")
  have hbelt := harm.step (.insertLoaded _ .start "belt")
  have hstarted := hbelt.run .start .zero
    (.startControllers ["arm", "belt"] Configuration.handling .strict)
  have hgrip := hstarted.step (.failController _ "arm" "grip")
  exact hgrip.step (.failController _ "arm" "torch")

end SimRegistry

end ControlRig
