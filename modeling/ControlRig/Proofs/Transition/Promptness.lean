import ControlRig.Proofs.Rig.Continuation
import ControlRig.Proofs.Transition.Readiness

/-!
# A verification of prompt resources

`ControlRig.Proofs.Transition.Readiness` says when a good outcome is to be believed. This file is
about the other direction, **when the outcome is good** (`run_prompt`): when every resource is ready
by the time its poll is out of time (`Poller.Expects`). A poll of such a resource cannot be settled
the wrong way, because a probe after the deadline finds it ready.

What is left to show is that somebody probes after the deadline. The sweeps are counted, so they
have to last until then: what remains of them, each with its pause, covers what remains of the time
(`run_sweeps`). The clock moves only in the pauses, so a sweep is all at one moment and of one
registry (`Rig.Glanced`).
-/

namespace ControlRig

/-- A resource is ready whenever a poll is out of time. -/
def Poller.Expects (poller : Poller) (r : SimRegistry) (resource : String) : Prop :=
  ∀ t, poller.timeout ≤ t.since poller.started → (r.stateAt t resource).isReady = true

namespace SimRegistry

/-- **What was loaded before a poll began, and has nothing wrong with it, is ready in time** if it
needs no longer to initialize than the poll lasts. -/
theorem expects_fresh {r : SimRegistry} {poller : Poller} {resource : String} {loadedAt : Instant}
    (fresh : r.held.find? resource = some (.fresh loadedAt)) (sound : resource ∉ r.faults.stalls)
    (before : loadedAt ≤ poller.started) (short : r.initDelay ≤ poller.timeout) :
    poller.Expects r resource := by
  intro t hlate
  have hdone : ¬ t.since loadedAt < r.initDelay := by
    have hbefore : loadedAt.nanos ≤ poller.started.nanos := before
    have hshort : r.initDelay.nanos ≤ poller.timeout.nanos := short
    have hlate : poller.timeout.nanos ≤ t.nanos - poller.started.nanos := hlate
    show ¬ t.nanos - loadedAt.nanos < r.initDelay.nanos
    omega
  simp [stateAt, fresh, Held.fresh, sound, hdone, ResourceState.isReady]

end SimRegistry

namespace Verification

open Procedure

variable {poller : Poller} {rig : Rig} {resource : String} {outcomes : SortedMap Bool}

/-! ## One moment -/

theorem run_probe (calm : rig.armed = ∅) :
    (probe poller resource).run rig =
      (some (verdict poller rig.clock (some (rig.stateOf resource))), rig.countRead) := by
  unfold probe
  rw [run_bind, run_attempt, readState, run_of_calm calm, ← rig.glanced_countRead.clock]
  rfl

/-- An expected resource is found ready, or it is not out of time yet. -/
theorem verdict_expected (expected : poller.Expects rig.registry resource) :
    verdict poller rig.clock (some (rig.stateOf resource)) = some true ∨
      (verdict poller rig.clock (some (rig.stateOf resource)) = none ∧
        ¬ poller.timeout ≤ rig.clock.since poller.started) := by
  by_cases hready : (rig.stateOf resource).isReady = true
  · left
    simp [verdict, Poller.check, hready]
  · have htime : ¬ poller.timeout ≤ rig.clock.since poller.started :=
      fun hlate => hready (expected rig.clock hlate)
    right
    simp [verdict, Poller.check, hready, htime]

def AllWell (outcomes : SortedMap Bool) : Prop := ∀ resource, outcomes.find? resource ≠ some false

theorem AllWell.insert (h : AllWell outcomes) (resource : String) :
    AllWell (outcomes.insert resource true) := by
  intro other
  by_cases ho : resource = other
  · subst ho
    rw [SortedMap.find?_insert_self]
    nofun
  · rw [SortedMap.find?_insert_of_ne _ ho]
    exact h other

theorem AllWell.failures_eq_nil (h : AllWell outcomes) : failures outcomes = [] := by
  refine List.map_eq_nil_iff.2 (List.filter_eq_nil_iff.2 fun e he hbad => ?_)
  refine h e.1 (SortedMap.find?_eq_some_iff.2 ?_)
  have hfalse : e.2 = false := by simpa using hbad
  rw [← hfalse]
  exact he

/-- What a stretch of polling at one moment makes of expected resources. Those that remain were
there before; nothing goes wrong; and when the time is out, nobody goes on. -/
structure Settles (poller : Poller) (rig : Rig) (before : List String) (after : Rig)
    (going remaining : List String) (outcomes : SortedMap Bool) : Prop where
  glanced : rig.Glanced after
  known : ∀ resource ∈ going ++ remaining, resource ∈ before
  well : AllWell outcomes
  settled : poller.timeout ≤ rig.clock.since poller.started → going = []

theorem run_takeNext {waiting : List String} (calm : rig.armed = ∅)
    (expected : ∀ resource ∈ waiting, poller.Expects rig.registry resource)
    (well : AllWell outcomes) :
    ∃ next left found after,
      (takeNext poller outcomes waiting).run rig = (some (next, left, found), after) ∧
      Settles poller rig waiting after next.toList left found := by
  induction waiting generalizing rig outcomes with
  | nil => exact ⟨none, [], outcomes, rig, rfl, .refl rig, nofun, well, fun _ => rfl⟩
  | cons resource rest ih =>
    unfold takeNext
    rw [run_bind, run_probe calm]
    rcases verdict_expected (expected resource List.mem_cons_self) with hready | ⟨hpending, htime⟩
    · -- the poll is settled at once, so the worker takes the next
      rw [hready]
      have hglanced := rig.glanced_countRead
      obtain ⟨next, left, found, after, hrun, hsettles⟩ :=
        ih (hglanced.armed.trans calm)
          (fun other ho => by
            rw [hglanced.registry]
            exact expected other (List.mem_cons_of_mem _ ho))
          (well.insert resource)
      refine ⟨next, left, found, after, hrun, hglanced.trans hsettles.glanced,
        fun other ho => List.mem_cons_of_mem _ (hsettles.known other ho), hsettles.well, ?_⟩
      rw [← hglanced.clock]
      exact hsettles.settled
    · rw [hpending]
      exact ⟨some resource, rest, outcomes, rig.countRead, rfl, rig.glanced_countRead,
        fun other ho => ho, well, fun hlate => absurd hlate htime⟩

theorem run_sweep {busy waiting : List String} (calm : rig.armed = ∅)
    (expected : ∀ resource ∈ busy ++ waiting, poller.Expects rig.registry resource)
    (well : AllWell outcomes) :
    ∃ progress after,
      (sweep poller busy waiting outcomes).run rig = (some progress, after) ∧
      Settles poller rig (busy ++ waiting) after progress.busy progress.waiting
        progress.outcomes := by
  induction busy generalizing rig waiting outcomes with
  | nil => exact ⟨⟨[], waiting, outcomes⟩, rig, rfl, .refl rig, fun _ h => h, well, fun _ => rfl⟩
  | cons resource others ih =>
    have hglanced := rig.glanced_countRead
    have hcalm := hglanced.armed.trans calm
    have hexpected : ∀ other ∈ others ++ waiting, poller.Expects rig.countRead.registry other := by
      intro other ho
      rw [hglanced.registry]
      exact expected other (List.mem_cons_of_mem _ ho)
    unfold sweep
    rw [run_bind, run_probe calm]
    rcases verdict_expected (expected resource List.mem_cons_self) with hready | ⟨hpending, htime⟩
    · -- this worker goes on to the queue, and what it leaves there is for the others
      rw [hready]
      obtain ⟨next, left, found, mid, htake, hfirst⟩ := run_takeNext hcalm
        (fun other ho => hexpected other (List.mem_append_right _ ho)) (well.insert resource)
      have hleft : ∀ other ∈ others ++ left, other ∈ others ++ waiting := by
        intro other ho
        rcases List.mem_append.1 ho with ho | ho
        · exact List.mem_append_left _ ho
        · exact List.mem_append_right _ (hfirst.known other (List.mem_append_right _ ho))
      obtain ⟨progress, after, hsweep, hrest⟩ := ih (hfirst.glanced.armed.trans hcalm)
        (fun other ho => by
          rw [hfirst.glanced.registry]
          exact hexpected other (hleft other ho))
        hfirst.well
      refine ⟨{ progress with busy := next.toList ++ progress.busy }, after, ?_,
        hglanced.trans (hfirst.glanced.trans hrest.glanced), fun other ho => ?_, hrest.well,
        fun hlate => ?_⟩
      · dsimp only
        rw [run_bind, htake]
        dsimp only
        rw [run_bind, hsweep]
        rfl
      · rw [List.append_assoc] at ho
        apply List.mem_cons_of_mem
        rcases List.mem_append.1 ho with ho | ho
        · exact List.mem_append_right _ (hfirst.known other (List.mem_append_left _ ho))
        · exact hleft other (hrest.known other ho)
      · rw [← hglanced.clock] at hlate
        rw [hfirst.settled hlate, hrest.settled (by rwa [hfirst.glanced.clock])]
        rfl
    · rw [hpending]
      obtain ⟨progress, after, hsweep, hrest⟩ := ih hcalm hexpected well
      refine ⟨{ progress with busy := resource :: progress.busy }, after, ?_,
        hglanced.trans hrest.glanced, fun other ho => ?_, hrest.well,
        fun hlate => absurd hlate htime⟩
      · dsimp only
        rw [run_bind, hsweep]
        rfl
      · rcases List.mem_cons.1 ho with rfl | ho
        · exact List.mem_cons_self
        · exact List.mem_cons_of_mem _ (hrest.known other ho)

/-! ## Until the time is out -/

/-- What remains of the sweeps covers what remains of the time. -/
def Covers (poller : Poller) (rounds : Nat) (now : Instant) : Prop :=
  poller.started.nanos + poller.timeout.nanos ≤ now.nanos + rounds * poller.pause.nanos

theorem Covers.next {rounds : Nat} {now : Instant} (h : Covers poller (rounds + 1) now) :
    Covers poller rounds (now.after poller.pause) := by
  unfold Covers at *
  simp only [Instant.after]
  rw [Nat.add_mul, Nat.one_mul] at h
  omega

/-- The sweeps last beyond the time-out, the first and the last of them included. -/
theorem covers_iterations (p : Poller) :
    ∃ rounds, p.iterations = rounds + 1 ∧ Covers p rounds p.started := by
  refine ⟨_, rfl, ?_⟩
  have hperiod : max p.period.nanos 1 ≤ p.pause.nanos := by
    simp only [Poller.pause, Poller.leastPause]
    omega
  have hdiv : p.timeout.nanos <
      (p.timeout.nanos / max p.period.nanos 1 + 1) * max p.period.nanos 1 :=
    Nat.lt_mul_of_div_lt (Nat.lt_succ_self _) (by omega)
  have hpause : (p.timeout.nanos / max p.period.nanos 1 + 1) * max p.period.nanos 1 ≤
      (p.timeout.nanos / max p.period.nanos 1 + 1) * p.pause.nanos :=
    Nat.mul_le_mul_left _ hperiod
  exact Nat.add_le_add_left (Nat.le_trans (Nat.le_of_lt hdiv) hpause) _

theorem run_sweeps {rounds : Nat} {progress : Progress} (calm : rig.armed = ∅)
    (expected : ∀ resource ∈ progress.busy ++ progress.waiting,
      poller.Expects rig.registry resource)
    (well : AllWell progress.outcomes) (covers : Covers poller rounds rig.clock) :
    ∃ found after, (sweeps poller (rounds + 1) progress).run rig = (some found, after) ∧
      AllWell found := by
  induction rounds generalizing rig progress with
  | zero =>
    -- this is the last sweep, and by `covers` it comes when the time is out
    obtain ⟨q, after, hsweep, hsettles⟩ := run_sweep calm expected well
    have hlate : poller.timeout ≤ rig.clock.since poller.started := by
      unfold Covers at covers
      show poller.timeout.nanos ≤ rig.clock.nanos - poller.started.nanos
      omega
    refine ⟨q.outcomes, after, ?_, hsettles.well⟩
    unfold sweeps
    rw [run_bind, hsweep]
    dsimp only
    rw [hsettles.settled hlate]
    rfl
  | succ rounds ih =>
    obtain ⟨q, mid, hsweep, hsettles⟩ := run_sweep calm expected well
    unfold sweeps
    rw [run_bind, hsweep]
    dsimp only
    by_cases hbusy : q.busy.isEmpty = true
    · rw [if_pos hbusy]
      exact ⟨q.outcomes, mid, rfl, hsettles.well⟩
    · have hcalm : (mid.elapse poller.pause).armed = ∅ := hsettles.glanced.armed.trans calm
      rw [if_neg hbusy, run_bind, run_sleep]
      apply ih hcalm
      · intro resource hm
        show poller.Expects mid.registry resource
        rw [hsettles.glanced.registry]
        exact expected resource (hsettles.known resource hm)
      · exact hsettles.well
      · show Covers poller rounds (mid.clock.after poller.pause)
        rw [hsettles.glanced.clock]
        exact covers.next

/-! ## The outcome -/

/-- **A verification that expects every resource has a good outcome for each.** -/
theorem run_prompt {options : Options} {resources : NameSet} (calm : rig.armed = ∅)
    (expected : ∀ resource ∈ resources,
      (Poller.start rig.clock options.rateHz options.timeout).Expects rig.registry resource) :
    ∃ outcomes after, (run options resources).run rig = (some outcomes, after) ∧
      rig.Continues after ∧ after.registry = rig.registry ∧ failures outcomes = [] := by
  obtain ⟨outcomes, seen, after, hrun, hgo, hreplays, hcontinues⟩ :=
    ((run_passive options resources).mono fun action => Action.Watches.spares).carriedOut calm
  refine ⟨outcomes, after, hrun, hcontinues,
    hreplays.eq_of_no_calls fun o ho => (run_reports hgo o ho).call?, ?_⟩
  -- what is reported about failures comes after the outcomes and cannot change them
  unfold run at hrun
  rw [run_bind, run_now] at hrun
  dsimp only at hrun
  obtain ⟨found, mid, hsweeps, hlast⟩ := run_bind_some.1 hrun
  obtain ⟨_, _, -, hdone⟩ := run_bind_some.1 hlast
  have hsame : found = outcomes := by
    cases hdone
    rfl
  have hstart : ∀ resource ∈ (Progress.start options resources.names).busy ++
      (Progress.start options resources.names).waiting,
      (Poller.start rig.clock options.rateHz options.timeout).Expects rig.registry resource := by
    intro resource hm
    have hall : (Progress.start options resources.names).busy ++
        (Progress.start options resources.names).waiting = resources.names :=
      List.take_append_drop _ _
    rw [hall] at hm
    exact expected resource hm
  have hnone : AllWell (Progress.start options resources.names).outcomes := fun resource => nofun
  obtain ⟨rounds, hrounds, hcovers⟩ :=
    covers_iterations (Poller.start rig.clock options.rateHz options.timeout)
  obtain ⟨found', after', hsweeps', hwell⟩ := run_sweeps calm hstart hnone hcovers
  rw [← hrounds, hsweeps] at hsweeps'
  cases hsweeps'
  rw [← hsame]
  exact hwell.failures_eq_nil

end Verification

end ControlRig
