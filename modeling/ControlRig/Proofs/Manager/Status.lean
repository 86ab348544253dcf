import ControlRig.Proofs.Manager.Run
import ControlRig.Proofs.Settings.Acceptance

/-!
# The published status

What a manager publishes is kept in the parameter tree, which is not its own and may refuse to take
it. So that the text there agrees with the manager's memory is an invariant of two stores, and it
holds under two conditions: **the way to the status key was open when the manager was made, and
nobody else writes there** (`status_of_run`). The first text that is published opens the way for
all later ones, which is why the tree is not asked about again: where the last text is read, the
next can be written (`ParamTree.writable_of_get?`).
-/

namespace ControlRig

/-! ## The invariant -/

/-- A move of somebody else does not write at a key, above it or below it. -/
def Move.Spares (key : String) : Move → Prop
  | .access use => use.Spares key
  | _ => True

instance (key : String) (move : Move) : Decidable (move.Spares key) :=
  match move with
  | .access use => inferInstanceAs (Decidable (use.Spares key))
  | .start .. | .stop _ | .list | .refresh | .checkHealth | .monitor _ | .registry _ | .elapse _
  | .exit _ => isTrue trivial

namespace Manager

open Procedure

variable {m : Manager} {rig after : Rig}

/-- **What is published agrees with what is remembered.** -/
structure Published (m : Manager) (rig : Rig) : Prop where
  calm : rig.armed = ∅
  text : rig.params.text? m.settings.statusKey = some (rig.memory.activeName.getD "none")
  dated : rig.memory.lastTransitionAt.isSome ↔ 0 < rig.memory.transitions

theorem Published.writable (h : m.Published rig) : rig.params.Writable m.settings.statusKey := by
  obtain ⟨value, hget, -⟩ := Option.bind_eq_some_iff.1 h.text
  exact ParamTree.writable_of_get? hget

theorem Published.alike (h : m.Published rig) (alike : rig.Alike after) : m.Published after where
  calm := alike.calm h.calm
  text := by
    rw [alike.params, alike.memory]
    exact h.text
  dated := by
    rw [alike.memory]
    exact h.dated

/-- A manager that takes note of a transition publishes the name that it remembers. -/
theorem Published.noted (h : m.Published rig) {active : Option Configuration}
    (noted : m.Noted rig active after) : m.Published after := by
  obtain ⟨t, hmemory⟩ := noted.memory
  refine ⟨noted.calm, ?_, ?_⟩
  · rw [noted.params, hmemory]
    exact (h.writable.publish _).1
  · rw [hmemory]
    exact iff_of_true rfl (Nat.succ_pos _)

theorem Published.does {deed : Deed} (h : m.Published rig) (does : m.Does rig deed after) :
    m.Published after := by
  cases does with
  | looks halike => exact h.alike halike
  | @renews catalog _ hread halike =>
    have hrenewed : m.Published { rig with memory := { rig.memory with catalog := catalog } } :=
      ⟨h.calm, h.text, h.dated⟩
    exact hrenewed.alike halike
  | refuses halike => exact h.alike halike
  | fails htransits =>
    obtain ⟨⟨hmemory, hparams⟩, hcalm⟩ := htransits.unwritten h.calm
    refine ⟨hcalm, ?_, ?_⟩
    · rw [hparams, hmemory]
      exact h.text
    · rw [hmemory]
      exact h.dated
  | starts htransits => exact h.noted (htransits.noted h.calm)
  | stops htransits => exact h.noted (htransits.noted h.calm)

/-- Every move preserves the agreement, as long as the status key is spared. -/
theorem Published.take (h : m.Published rig) {move : Move}
    (spares : move.Spares m.settings.statusKey) : m.Published (m.take rig move) := by
  cases move with
  | registry changed => exact ⟨h.calm, h.text, h.dated⟩
  | access use =>
    have hspares : use.Spares m.settings.statusKey := spares
    refine ⟨h.calm, ?_, h.dated⟩
    show ((use.perform rig.params).2.1.get? m.settings.statusKey).bind Value.string? = _
    rw [hspares.get?]
    exact h.text
  | elapse d => exact ⟨h.calm, h.text, h.dated⟩
  | exit cue => exact ⟨h.calm, h.text, h.dated⟩
  | _ => exact h.does (m.does_take h.calm _ id)

theorem MadeOn.published {made : Rig} (h : m.MadeOn rig made) (calm : rig.armed = ∅)
    (way : Param.Fields.Open (Param.segments m.settings.statusKey) rig.params.root) :
    m.Published made := by
  obtain ⟨hproblem, ⟨catalog, hmemory⟩, hparams, -, hcalm⟩ := h.fresh calm
  have hwritable : rig.params.Writable m.settings.statusKey :=
    ⟨Param.segments_ne_nil (Settings.statusKey_usable hproblem), way⟩
  refine ⟨hcalm, ?_, ?_⟩
  · rw [hparams, hmemory]
    exact (hwritable.publish _).1
  · rw [hmemory]
    exact iff_of_false Bool.noConfusion (Nat.lt_irrefl 0)

/-! ## The end -/

theorem teardown_composed (limit : Duration) :
    (Transition.teardown limit).Composed Action.Spares := by
  unfold Transition.teardown
  refine .bind (.of _ trivial) fun answer => ?_
  rcases answer with e | names
  · exact .done _
  · cases names with
    | nil => exact .done _
    | cons first rest =>
      refine .bind (.of _ trivial) fun _ => .bind (.of _ trivial) fun stopped => ?_
      -- whether or not the controllers were stopped, the resources are unloaded
      rcases stopped with e | told
      · refine .bind (.of _ trivial) fun _ => .bind (.of _ trivial) fun unloaded => ?_
        cases unloaded <;> exact .done _
      · refine .bind (.of _ trivial) fun unloaded => ?_
        cases unloaded <;> exact .done _

/-- A manager that goes leaves the registry to its teardown, and publishes whatever came of that. -/
theorem run_drop_of_teardown {result : Except ManagerError (List String)} {torn : Rig}
    (calm : rig.armed = ∅)
    (run : (Transition.teardown m.settings.teardownTimeout).run rig = (some result, torn)) :
    ∃ gone, m.drop.run rig = (some (), gone) ∧ gone.registry = torn.registry ∧
      gone.params =
        (torn.params.publish m.settings.statusKey (ManagerState.statusText none)).1 := by
  have htorn : torn.armed = ∅ := by
    have hcalm := calm_run (Transition.teardown m.settings.teardownTimeout) calm
    rwa [run] at hcalm
  have hpublish : ∀ told : Rig, torn.Alike told →
      (publish m.settings.statusKey (ManagerState.statusText none)).run told =
        (some (), told.publish m.settings.statusKey (ManagerState.statusText none)) ∧
      (told.publish m.settings.statusKey (ManagerState.statusText none)).registry = torn.registry ∧
      (told.publish m.settings.statusKey (ManagerState.statusText none)).params =
        (torn.params.publish m.settings.statusKey (ManagerState.statusText none)).1 := by
    intro told halike
    refine ⟨run_of_calm (halike.calm htorn) (.publish _ _), halike.registry, ?_⟩
    rw [← halike.params]
    rfl
  rcases result with e | names
  · obtain ⟨hlast, hleft⟩ := hpublish _ (torn.alike_note .error _)
    exact ⟨_, run_bind_some.2 ⟨.error e, torn, run, run_bind_some.2 ⟨(), _, rfl, hlast⟩⟩, hleft⟩
  · cases names with
    | nil =>
      obtain ⟨hlast, hleft⟩ := hpublish torn (.refl torn)
      exact ⟨_, run_bind_some.2 ⟨.ok [], torn, run, hlast⟩, hleft⟩
    | cons first rest =>
      obtain ⟨hlast, hleft⟩ := hpublish _ (torn.alike_note .info _)
      exact ⟨_, run_bind_some.2 ⟨.ok (first :: rest), torn, run,
        run_bind_some.2 ⟨(), _, rfl, hlast⟩⟩, hleft⟩

/-- Whatever comes of unloading, a manager that goes publishes that nothing is active. -/
theorem run_drop (m : Manager) (calm : rig.armed = ∅) :
    ∃ gone, m.drop.run rig = (some (), gone) ∧
      gone.params = (rig.params.publish m.settings.statusKey (ManagerState.statusText none)).1 := by
  obtain ⟨result, seen, torn, hrun, -, -, hcontinues⟩ :=
    (teardown_composed m.settings.teardownTimeout).carriedOut calm
  obtain ⟨gone, hdrop, -, hparams⟩ := run_drop_of_teardown calm hrun
  rw [hcontinues.params] at hparams
  exact ⟨gone, hdrop, hparams⟩

/-! ## Every run -/

/-- **The status tells what is active, at every point of every run.** It does so from the moment at
which the manager is made, if nothing but tables lies on the way to the status key then, and as long
as nobody else writes at that key, above it or below it. The counter of transitions is the number of
starts, other than of what was active, and of stops that have succeeded, a moment of the last of
them is known exactly if there was one, and the status of a manager that has gone is "none". -/
theorem status_of_run (m : Manager) (rig made : Rig) (moves : List Move) (calm : rig.armed = ∅)
    (madeOn : m.MadeOn rig made)
    (way : Param.Fields.Open (Param.segments m.settings.statusKey) rig.params.root)
    (spared : ∀ move ∈ moves, move.Spares m.settings.statusKey) :
    let after := m.takeAll made moves
    after.params.text? m.settings.statusKey = some (after.memory.activeName.getD "none") ∧
    after.memory.transitions = (m.deeds made moves).countP Deed.IsCommit ∧
    (after.memory.lastTransitionAt.isSome ↔ 0 < after.memory.transitions) ∧
    ∃ gone, m.drop.run after = (some (), gone) ∧
      gone.params.text? m.settings.statusKey = some "none" := by
  intro after
  have hmade := madeOn.published calm way
  have hafter : m.Published after :=
    (throughout_of_forall spared made).preserves (fun _ _ h hspares => h.take hspares) hmade
  obtain ⟨-, ⟨catalog, hfresh⟩, -⟩ := madeOn.fresh calm
  obtain ⟨gone, hdrop, hparams⟩ := m.run_drop hafter.calm
  refine ⟨hafter.text, ?_, hafter.dated, gone, hdrop, ?_⟩
  · have hcount := m.transitions_takeAll hmade.calm moves
    rw [hfresh] at hcount
    exact hcount.trans (Nat.zero_add _)
  · rw [hparams]
    exact (hafter.writable.publish _).1

/-- Handling is started, the registry loses everything, a check stops handling, and welding is
started; meanwhile somebody uses other parameters. -/
theorem status_of_run_welding :
    ∃ after gone, after = Manager.usual.takeAll (Manager.usual.made .workshop)
        [.start "handling" .strict, .access (.insert "shift" (.integer 2)),
          .registry (.fresh .zero .zero), .checkHealth, .start "welding" .strict] ∧
      after.params.text? Manager.usual.settings.statusKey = some "welding" ∧
      after.memory.transitions = 3 ∧
      Manager.usual.drop.run after = (some (), gone) ∧
      gone.params.text? Manager.usual.settings.statusKey = some "none" := by
  obtain ⟨htext, hcount, -, gone, hdrop, hgone⟩ :=
    status_of_run .usual .workshop (Manager.usual.made .workshop)
      [.start "handling" .strict, .access (.insert "shift" (.integer 2)),
        .registry (.fresh .zero .zero), .checkHealth, .start "welding" .strict] rfl
      (madeOn_made (by decide +kernel)) (by decide +kernel) (by decide +kernel)
  refine ⟨_, gone, rfl, htext.trans ?_, hcount.trans ?_, hdrop, hgone⟩
  · decide +kernel
  · decide +kernel

end Manager

end ControlRig
