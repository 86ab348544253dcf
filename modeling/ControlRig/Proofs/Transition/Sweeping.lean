import ControlRig.Proofs.Transition.Polling
import ControlRig.Proofs.Transition.Promptness

/-!
# Sweeps are one order of events

The verification that a transition carries out lets its workers take turns. Whatever the rig,
crashes included, **that is a verification with its events in one of the orders that are possible**
(`polling_of_run`): every probe of a sweep is an event of the worker in that place. So what is known
of every order is known of the transition.

Only one thing might not fit. Sweeps are counted, and polls that so many do not settle are given up,
for which there is no event. But by the last sweep the time is out (`Covers`), and then none of them
leaves anything to be given up.
-/

namespace ControlRig.Verification

open Procedure

/-! ## Several events -/

namespace Polling

/-- Some events lead from one state to another. -/
def Reaches (p q : Polling) : Prop := ∃ events, p.run? events = some q

theorem Reaches.refl (p : Polling) : p.Reaches p := ⟨[], rfl⟩

theorem Reaches.head {p q u : Polling} {event : Event} (h : Steps p event q) (hu : q.Reaches u) :
    p.Reaches u := by
  obtain ⟨events, hrun⟩ := hu
  refine ⟨event :: events, ?_⟩
  rw [run?, step?_of_steps h]
  exact hrun

theorem Reaches.trans {p q u : Polling} (hq : p.Reaches q) (hu : q.Reaches u) : p.Reaches u := by
  obtain ⟨events, hrun⟩ := hq
  induction events generalizing p with
  | nil =>
    cases hrun
    exact hu
  | cons event rest ih =>
    obtain ⟨next, hstep, hrest⟩ := Option.bind_eq_some_iff.1 hrun
    exact .head (steps_of_step? hstep) (ih hrest)

/-- A verification that has come so far, its polls being those of one poller. -/
structure Stands (poller : Poller) (now : Instant) (workers : List (Option String))
    (waiting : List String) (outcomes : SortedMap Bool) (p : Polling) : Prop where
  spawned : p.spawned = true
  workers : p.workers = workers.map (Option.map (Poll.mk · poller))
  waiting : p.waiting = waiting.map (Poll.mk · poller)
  outcomes : p.outcomes = outcomes
  now : p.now ≤ now

variable {poller : Poller} {now : Instant} {before after : List (Option String)}
variable {resource : String} {waiting : List String} {outcomes : SortedMap Bool} {p : Polling}

namespace Stands

theorem split {worker : Option String}
    (h : Stands poller now (before ++ worker :: after) waiting outcomes p) :
    p.workers = before.map (Option.map (Poll.mk · poller)) ++
      worker.map (Poll.mk · poller) :: after.map (Option.map (Poll.mk · poller)) := by
  rw [h.workers, List.map_append, List.map_cons]

theorem take (h : Stands poller now (before ++ none :: after) (resource :: waiting) outcomes p) :
    ∃ q, p.Reaches q ∧
      Stands poller now (before ++ some resource :: after) waiting outcomes q := by
  refine ⟨_, .head (.take h.split h.waiting) (.refl _), h.spawned, ?_, rfl, h.outcomes, h.now⟩
  rw [List.map_append, List.map_cons]
  rfl

theorem leave (h : Stands poller now (before ++ none :: after) [] outcomes p) :
    ∃ q, p.Reaches q ∧ Stands poller now (before ++ after) [] outcomes q := by
  refine ⟨_, .head (.leave h.split h.waiting) (.refl _), h.spawned, ?_, h.waiting, h.outcomes,
    h.now⟩
  rw [List.map_append]

theorem goOn (h : Stands poller now (before ++ some resource :: after) waiting outcomes p)
    {reading : Option ResourceState} (hverdict : verdict poller now reading = none) :
    ∃ q, p.Reaches q ∧
      Stands poller now (before ++ some resource :: after) waiting outcomes q :=
  ⟨_, .head (.goOn h.split h.now hverdict) (.refl _), h.spawned, h.workers, h.waiting, h.outcomes,
    Nat.le_refl now.nanos⟩

theorem settle (h : Stands poller now (before ++ some resource :: after) waiting outcomes p)
    {reading : Option ResourceState} {outcome : Bool}
    (hverdict : verdict poller now reading = some outcome) :
    ∃ q, p.Reaches q ∧
      Stands poller now (before ++ none :: after) waiting (outcomes.insert resource outcome) q := by
  refine ⟨_, .head (.settle h.split h.now hverdict) (.refl _), h.spawned, ?_, h.waiting, ?_,
    Nat.le_refl now.nanos⟩
  · rw [List.map_append, List.map_cons]
    rfl
  · rw [← h.outcomes]

/-- Time may pass. -/
theorem later (h : Stands poller now before waiting outcomes p) {then' : Instant}
    (hle : now ≤ then') : Stands poller then' before waiting outcomes p :=
  ⟨h.spawned, h.workers, h.waiting, h.outcomes, Nat.le_trans h.now hle⟩

end Stands

end Polling

/-! ## Sweeps -/

open Polling

variable {poller : Poller} {rig after : Rig} {resource : String} {outcomes : SortedMap Bool}

theorem clock_readState (rig : Rig) (resource : String) :
    ((readState resource).run rig).2.clock = rig.clock := by
  rw [readState, run_of]
  rcases rig.answer_cases (.readState resource) with ⟨-, heq⟩ | ⟨-, heq⟩
  · rw [heq]
    rfl
  · rw [heq]
    exact rig.glanced_countRead.clock

/-- A probe takes no time, and whatever it reads is judged at the moment at which it reads. -/
theorem verdict_of_probe {result : Option Bool}
    (h : (probe poller resource).run rig = (some result, after)) :
    after.clock = rig.clock ∧ ∃ reading, verdict poller rig.clock reading = result := by
  obtain ⟨reading, mid, hread, hrest⟩ := run_bind_some.1 h
  have hmid : mid.clock = rig.clock := by
    rw [run_attempt] at hread
    cases hread
    exact clock_readState rig resource
  cases reading with
  | none =>
    obtain ⟨_, noted, hwarn, hnow⟩ := run_bind_some.1 hrest
    cases hwarn
    cases hnow
    exact ⟨hmid, none, hmid ▸ rfl⟩
  | some state =>
    cases hrest
    exact ⟨hmid, some state, hmid ▸ rfl⟩

/-- A worker that goes through the queue. -/
theorem reaches_takeNext {before others : List (Option String)} {waiting left : List String}
    {found : SortedMap Bool} {next : Option String} {p : Polling}
    (h : (takeNext poller outcomes waiting).run rig = (some (next, left, found), after))
    (stands : Stands poller rig.clock (before ++ none :: others) waiting outcomes p) :
    (∃ q, p.Reaches q ∧
      Stands poller rig.clock (before ++ next.toList.map some ++ others) left found q) ∧
    after.clock = rig.clock ∧ (poller.started.after poller.timeout ≤ rig.clock → next = none) := by
  induction waiting generalizing rig outcomes p with
  | nil =>
    cases h
    obtain ⟨q, hreaches, hq⟩ := stands.leave
    exact ⟨⟨q, hreaches, by simpa using hq⟩, rfl, fun _ => rfl⟩
  | cons resource rest ih =>
    obtain ⟨result, mid, hprobe, hrest⟩ := run_bind_some.1 h
    obtain ⟨hclock, reading, hverdict⟩ := verdict_of_probe hprobe
    obtain ⟨taken, htaken, htakenStands⟩ := stands.take
    cases result with
    | none =>
      cases hrest
      obtain ⟨q, hreaches, hq⟩ := htakenStands.goOn hverdict
      exact ⟨⟨q, htaken.trans hreaches, by simpa using hq⟩, hclock,
        fun hlate => absurd hverdict (verdict_ne_none hlate reading)⟩
    | some outcome =>
      obtain ⟨q, hreaches, hq⟩ := htakenStands.settle hverdict
      rw [← hclock] at hq
      obtain ⟨⟨u, hu, hstands⟩, hafter, hnone⟩ := ih hrest hq
      rw [hclock] at hstands hafter hnone
      exact ⟨⟨u, (htaken.trans hreaches).trans hu, hstands⟩, hafter, hnone⟩

/-- The workers of a sweep, one after the other. -/
theorem reaches_sweep (before : List (Option String)) {busy waiting : List String}
    {progress : Progress} {p : Polling}
    (h : (sweep poller busy waiting outcomes).run rig = (some progress, after))
    (stands : Stands poller rig.clock (before ++ busy.map some) waiting outcomes p) :
    (∃ q, p.Reaches q ∧ Stands poller rig.clock (before ++ progress.busy.map some)
      progress.waiting progress.outcomes q) ∧
    after.clock = rig.clock ∧
    (poller.started.after poller.timeout ≤ rig.clock → progress.busy = []) := by
  induction busy generalizing rig waiting outcomes before progress p with
  | nil =>
    cases h
    exact ⟨⟨p, .refl p, stands⟩, rfl, fun _ => rfl⟩
  | cons resource others ih =>
    obtain ⟨result, mid, hprobe, hrest⟩ := run_bind_some.1 h
    obtain ⟨hclock, reading, hverdict⟩ := verdict_of_probe hprobe
    cases result with
    | none =>
      obtain ⟨u, last, hsweep, hdone⟩ := run_bind_some.1 hrest
      cases hdone
      obtain ⟨q, hreaches, hq⟩ := stands.goOn hverdict
      have hstands : Stands poller mid.clock ((before ++ [some resource]) ++ others.map some)
          waiting outcomes q := by
        rw [hclock]
        simpa using hq
      obtain ⟨⟨w, hw, hw'⟩, hafter, -⟩ := ih _ hsweep hstands
      rw [hclock] at hw' hafter
      exact ⟨⟨w, hreaches.trans hw, by simpa using hw'⟩, hafter,
        fun hlate => absurd hverdict (verdict_ne_none hlate reading)⟩
    | some outcome =>
      obtain ⟨⟨next, left, found⟩, between, htake, hlast⟩ := run_bind_some.1 hrest
      obtain ⟨u, last, hsweep, hdone⟩ := run_bind_some.1 hlast
      cases hdone
      obtain ⟨q, hreaches, hq⟩ := stands.settle hverdict
      rw [← hclock] at hq
      obtain ⟨⟨v, hv, hv'⟩, hbetween, hnone⟩ := reaches_takeNext htake hq
      rw [← hbetween] at hv'
      obtain ⟨⟨w, hw, hw'⟩, hafter, hempty⟩ := ih _ hsweep hv'
      rw [hbetween, hclock] at hw' hafter hempty
      rw [hclock] at hnone
      refine ⟨⟨w, (hreaches.trans hv).trans hw, by simpa using hw'⟩, hafter, fun hlate => ?_⟩
      rw [hnone hlate, hempty hlate]
      rfl

/-- A sweep that leaves nobody busy is the last. -/
theorem reaches_over {busy waiting : List String} {progress : Progress} {p : Polling}
    (h : (sweep poller busy waiting outcomes).run rig = (some progress, after))
    (stands : Stands poller rig.clock (busy.map some) waiting outcomes p)
    (manned : busy = [] → waiting = []) (idle : progress.busy = []) :
    ∃ q, p.Reaches q ∧ q.isOver = true ∧ q.outcomes = progress.outcomes := by
  obtain ⟨⟨q, hreaches, hq⟩, -, -⟩ := reaches_sweep [] h stands
  have hwaiting : progress.waiting = [] := by
    rcases (goes_sweep (goes_of_run (congrArg Prod.fst h))).2 idle with hnone | ⟨hbusy, hsame⟩
    · exact hnone
    · rw [hsame, manned hbusy]
  refine ⟨q, hreaches, ?_, hq.outcomes⟩
  simp [isOver, hq.spawned, hq.workers, hq.waiting, idle, hwaiting]

/-- Sweeps that last until the time is out leave nothing to be given up. -/
theorem reaches_sweeps {rounds : Nat} {progress : Progress} {found : SortedMap Bool} {p : Polling}
    (h : (sweeps poller (rounds + 1) progress).run rig = (some found, after))
    (stands : Stands poller rig.clock (progress.busy.map some) progress.waiting progress.outcomes p)
    (manned : progress.busy = [] → progress.waiting = [])
    (covers : Covers poller rounds rig.clock) :
    ∃ q, p.Reaches q ∧ q.isOver = true ∧ q.outcomes = found := by
  induction rounds generalizing rig progress p with
  | zero =>
    obtain ⟨u, mid, hsweep, hrest⟩ := run_bind_some.1 h
    have hlate : poller.started.after poller.timeout ≤ rig.clock := by
      show poller.started.nanos + poller.timeout.nanos ≤ rig.clock.nanos
      unfold Covers at covers
      omega
    have hbusy : u.busy = [] := (reaches_sweep [] hsweep stands).2.2 hlate
    rw [if_pos (List.isEmpty_iff.2 hbusy)] at hrest
    cases hrest
    exact reaches_over hsweep stands manned hbusy
  | succ rounds ih =>
    obtain ⟨u, mid, hsweep, hrest⟩ := run_bind_some.1 h
    by_cases hbusy : u.busy = []
    · rw [if_pos (List.isEmpty_iff.2 hbusy)] at hrest
      cases hrest
      exact reaches_over hsweep stands manned hbusy
    · rw [if_neg fun he => hbusy (List.isEmpty_iff.1 he)] at hrest
      obtain ⟨_, slept, hsleep, hlast⟩ := run_bind_some.1 hrest
      cases hsleep
      obtain ⟨⟨q, hreaches, hq⟩, hclock, -⟩ := reaches_sweep [] hsweep stands
      have hlater : rig.clock ≤ (mid.elapse poller.pause).clock := by
        rw [← hclock]
        exact Nat.le_add_right _ _
      have hcovers : Covers poller rounds (mid.elapse poller.pause).clock := by
        show Covers poller rounds (mid.clock.after poller.pause)
        rw [hclock]
        exact covers.next
      obtain ⟨w, hw, hover⟩ := ih hlast (hq.later hlater) (fun he => absurd he hbusy) hcovers
      exact ⟨w, hreaches.trans hw, hover⟩

/-! ## The beginning -/

/-- All polls that are left have been queued at one moment. -/
def filled (p : Polling) : Polling :=
  { p with
    unqueued := []
    polls := p.polls ++ p.unqueued.map (p.pollOf · p.now)
    waiting := p.waiting ++ p.unqueued.map (p.pollOf · p.now) }

theorem reaches_filled (p : Polling) : p.Reaches (filled p) := by
  obtain ⟨options, unqueued, polls, waiting, spawned, workers, outcomes, probes, now⟩ := p
  induction unqueued generalizing polls waiting with
  | nil => simpa [filled] using Reaches.refl _
  | cons resource rest ih =>
    have hnow : now ≤ now := Nat.le_refl now.nanos
    refine .head (.queue rfl hnow) ?_
    have hrest := ih (polls ++ [⟨resource, .start now options.rateHz options.timeout⟩])
      (waiting ++ [⟨resource, .start now options.rateHz options.timeout⟩])
    simpa [filled, queue, pollOf, List.append_assoc] using hrest

/-- The workers take the first polls, one after the other. -/
theorem reaches_manned {before : List (Option String)} {first waiting : List String} {p : Polling}
    {now : Instant}
    (stands : Stands poller now (before ++ List.replicate first.length none) (first ++ waiting)
      outcomes p) :
    ∃ q, p.Reaches q ∧ Stands poller now (before ++ first.map some) waiting outcomes q := by
  induction first generalizing before p with
  | nil => exact ⟨p, .refl p, stands⟩
  | cons resource rest ih =>
    have hfirst : Stands poller now (before ++ none :: List.replicate rest.length none)
        (resource :: (rest ++ waiting)) outcomes p := stands
    obtain ⟨q, hreaches, hq⟩ := hfirst.take
    have hstands : Stands poller now
        ((before ++ [some resource]) ++ List.replicate rest.length none) (rest ++ waiting)
        outcomes q := by simpa using hq
    obtain ⟨u, hu, hu'⟩ := ih hstands
    exact ⟨u, hreaches.trans hu, by simpa using hu'⟩

theorem reaches_start (options : Options) (resources : NameSet) (now : Instant) :
    ∃ q, (Polling.start options resources now).Reaches q ∧
      Stands (.start now options.rateHz options.timeout) now
        ((Progress.start options resources.names).busy.map some)
        (Progress.start options resources.names).waiting ∅ q := by
  let poller := Poller.start now options.rateHz options.timeout
  let first := resources.names.take (max 1 options.maxWorkers)
  let queued := filled (.start options resources now)
  have hceiling : first.length ≤ queued.ceiling := by
    simp [first, queued, filled, ceiling, Polling.start]
    omega
  have hspawn : Steps queued (.spawn first.length)
      { queued with spawned := true, workers := List.replicate first.length none } :=
    .spawn rfl rfl hceiling
  have hstands : Stands poller now ([] ++ List.replicate first.length none)
      (first ++ resources.names.drop (max 1 options.maxWorkers)) ∅
      { queued with spawned := true, workers := List.replicate first.length none } := by
    rw [List.take_append_drop]
    refine ⟨rfl, ?_, rfl, rfl, Nat.le_refl now.nanos⟩
    simp
  obtain ⟨u, hreaches, hu⟩ := reaches_manned hstands
  exact ⟨u, (reaches_filled _).trans (.head hspawn hreaches), hu⟩

/-- **The verification of a transition has its events in one of the possible orders.** -/
theorem polling_of_run {options : Options} {resources : NameSet} {found : SortedMap Bool}
    (h : (run options resources).run rig = (some found, after)) :
    ∃ events p, (Polling.start options resources rig.clock).run? events = some p ∧
      p.isOver = true ∧ p.outcomes = found := by
  obtain ⟨_, _, hnow, hrest⟩ := run_bind_some.1 h
  cases hnow
  obtain ⟨outcomes, mid, hsweeps, hlast⟩ := run_bind_some.1 hrest
  obtain ⟨_, _, -, hdone⟩ := run_bind_some.1 hlast
  cases hdone
  obtain ⟨rounds, hrounds, hcovers⟩ :=
    covers_iterations (Poller.start rig.clock options.rateHz options.timeout)
  rw [hrounds] at hsweeps
  obtain ⟨q, ⟨first, hfirst⟩, hq⟩ := reaches_start options resources rig.clock
  obtain ⟨u, hu, hover, houtcomes⟩ := reaches_sweeps hsweeps hq
    (Progress.start_manned options resources.names) hcovers
  obtain ⟨events, hrun⟩ := Reaches.trans ⟨first, hfirst⟩ hu
  exact ⟨events, u, hrun, hover, houtcomes⟩

end ControlRig.Verification
