import ControlRig.Procedure.Basic
import ControlRig.Timing.Poller

/-!
# Waiting for loaded resources

After loading, every resource has to become ready before its deadline. The resources are polled side
by side by a bounded number of workers. All polls are queued at once, and their deadlines count from
then on; a worker that is done with one takes the next from the queue. A poll that has waited in the
queue beyond its deadline still probes once.

The workers take turns here: each sweep lets every worker probe (`sweep`), and the pauses between
probes are common to all. A probe that crashes counts as "not ready" for good.
-/

namespace ControlRig.Verification

/-- How resources are verified. -/
structure Options where
  timeout : Duration
  rateHz : Nat
  maxWorkers : Nat
  deriving DecidableEq, Repr

/-- What a verification knows between two sweeps: the polls that workers are busy with, the polls
that wait, and the outcomes so far. -/
structure Progress where
  busy : List String
  waiting : List String
  outcomes : SortedMap Bool

/-- The state of affairs when the polls of resources have been queued: the first of them, one for
each worker, are taken at once. -/
def Progress.start (options : Options) (resources : List String) : Progress :=
  let workers := max 1 options.maxWorkers
  ⟨resources.take workers, resources.drop workers, ∅⟩

/-- Whether a probe settles a poll, and how: what it read, or that it crashed, and the moment at
which it was over. -/
def verdict (poller : Poller) (moment : Instant) : Option ResourceState → Option Bool
  | none => some false
  | some state =>
    match poller.check moment state.isReady with
    | .ready => some true
    | .timedOut => some false
    | .pending => none

/-- Probe one resource, and say whether that settles its poll. -/
def probe (poller : Poller) (resource : String) : Procedure (Option Bool) := do
  let reading ← Procedure.attempt (Procedure.readState resource)
  if reading.isNone then
    Procedure.warn "task panicked; recording failure"
  return verdict poller (← Procedure.now) reading

/-- A worker that is done takes polls from the queue until one of them is not settled at once. -/
def takeNext (poller : Poller) (outcomes : SortedMap Bool) :
    List String → Procedure (Option String × List String × SortedMap Bool)
  | [] => return (none, [], outcomes)
  | resource :: waiting => do
    match ← probe poller resource with
    | none => return (some resource, waiting, outcomes)
    | some outcome => takeNext poller (outcomes.insert resource outcome) waiting

/-- Let every worker probe once, and take further polls when its own is settled. -/
def sweep (poller : Poller) :
    List String → List String → SortedMap Bool → Procedure Progress
  | [], waiting, outcomes => return ⟨[], waiting, outcomes⟩
  | resource :: others, waiting, outcomes => do
    match ← probe poller resource with
    | none =>
      let progress ← sweep poller others waiting outcomes
      return { progress with busy := resource :: progress.busy }
    | some outcome =>
      let (next, waiting, outcomes) ← takeNext poller (outcomes.insert resource outcome) waiting
      let progress ← sweep poller others waiting outcomes
      return { progress with busy := next.toList ++ progress.busy }

/-- Sweep until every poll is settled. Polls that so many sweeps do not settle have failed. -/
def sweeps (poller : Poller) : Nat → Progress → Procedure (SortedMap Bool)
  | 0, progress =>
    return (progress.busy ++ progress.waiting).foldl (·.insert · false) progress.outcomes
  | rounds + 1, progress => do
    let progress ← sweep poller progress.busy progress.waiting progress.outcomes
    if progress.busy.isEmpty then return progress.outcomes
    else
      Procedure.sleep poller.pause
      sweeps poller rounds progress

/-- Say which resources did not become ready. -/
def reportFailures (options : Options) (outcomes : SortedMap Bool) : List String → Procedure Unit
  | [] => return ()
  | resource :: rest => do
    if outcomes.find? resource ≠ some true then
      let state ← Procedure.readState resource
      Procedure.complain ("'" ++ resource ++ "' did not initialize within " ++ options.timeout.text
        ++ " (state: " ++ state.text ++ ")")
    reportFailures options outcomes rest

/-- Whether each of the resources becomes ready in time. -/
def run (options : Options) (resources : NameSet) : Procedure (SortedMap Bool) := do
  let poller := Poller.start (← Procedure.now) options.rateHz options.timeout
  let outcomes ← sweeps poller poller.iterations (.start options resources.names)
  reportFailures options outcomes resources.names
  return outcomes

/-- The resources that did not become ready, in the order of their names. -/
def failures (outcomes : SortedMap Bool) : List String :=
  (outcomes.entries.filter fun e => !e.2).map (·.1)

end ControlRig.Verification
