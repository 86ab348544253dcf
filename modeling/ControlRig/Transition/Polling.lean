import ControlRig.Transition.Verification

/-!
# Verification in any order

The workers that poll loaded resources need not take turns. First the polls are queued one by one,
each with a deadline that counts from its own moment; then workers are spawned, as many as there may
be and can be had. Each of them goes on whenever it likes (`Polling.step?`): it takes the oldest
poll from the queue, probes its resource as often as the poll asks for it, and notes the outcome.
What nobody is left to take, the owner of the workers takes in the end.

What a probe reads, and when, is up to the events; the clock never goes back. Every poll and every
probe is kept (`polls`, `probes`), so that outcomes can be compared with what was read.
-/

namespace ControlRig.Verification

/-- A poll of a resource. -/
structure Poll where
  resource : String
  poller : Poller
  deriving DecidableEq, Repr

/-- A probe that was made: its resource, its moment, and what it read; none if it crashed. -/
structure Probe where
  resource : String
  moment : Instant
  reading : Option ResourceState
  deriving DecidableEq, Repr

/-- A verification underway. -/
structure Polling where
  options : Options
  /-- The resources whose polls are yet to be queued, in this order. -/
  unqueued : List String
  /-- Every poll that has been queued so far, oldest first. -/
  polls : List Poll
  /-- The polls in the queue, oldest first. -/
  waiting : List Poll
  /-- Whether workers have been spawned. -/
  spawned : Bool
  /-- The workers that are alive, each with its poll, if it has taken one. -/
  workers : List (Option Poll)
  outcomes : SortedMap Bool
  /-- Every probe so far, oldest first. -/
  probes : List Probe
  now : Instant

namespace Polling

/-- Resources are about to be polled. -/
def start (options : Options) (resources : NameSet) (now : Instant) : Polling where
  options := options
  unqueued := resources.names
  polls := []
  waiting := []
  spawned := false
  workers := []
  outcomes := ∅
  probes := []
  now := now

/-- The poll of a resource that is queued at a moment. -/
def pollOf (p : Polling) (resource : String) (moment : Instant) : Poll :=
  ⟨resource, .start moment p.options.rateHz p.options.timeout⟩

/-- The next poll is queued. -/
def queue (p : Polling) (resource : String) (rest : List String) (moment : Instant) : Polling :=
  let poll := p.pollOf resource moment
  { p with
    unqueued := rest
    polls := p.polls ++ [poll]
    waiting := p.waiting ++ [poll]
    now := moment }

/-- How many workers there may be: one for each poll, but no more than the ceiling, which is at
least one. -/
def ceiling (p : Polling) : Nat := min p.polls.length (max 1 p.options.maxWorkers)

/-- A resource has been probed. -/
def probed (p : Polling) (resource : String) (moment : Instant) (reading : Option ResourceState) :
    Polling :=
  { p with probes := p.probes ++ [⟨resource, moment, reading⟩], now := moment }

/-- Something that happens during a verification. -/
inductive Event where
  /-- The poll of the next resource is queued. -/
  | queue (moment : Instant)
  /-- So many workers are spawned. -/
  | spawn (count : Nat)
  /-- A worker that polls nothing takes a poll, or leaves if there is none. -/
  | take (worker : Nat)
  /-- A worker probes its resource. -/
  | probe (worker : Nat) (moment : Instant) (reading : Option ResourceState)
  /-- With no worker left, the owner goes on with what is in the queue. -/
  | takeOver
  deriving DecidableEq, Repr

/-- The verification after an event, if the event can happen. -/
def step? (p : Polling) : Event → Option Polling
  | .queue moment =>
    match p.unqueued with
    | resource :: rest => if p.now ≤ moment then some (p.queue resource rest moment) else none
    | [] => none
  | .spawn count =>
    if !p.spawned && p.unqueued.isEmpty && count ≤ p.ceiling then
      some { p with spawned := true, workers := List.replicate count none }
    else none
  | .take worker =>
    match p.workers[worker]?, p.waiting with
    | some none, poll :: rest =>
      some { p with waiting := rest, workers := p.workers.set worker (some poll) }
    | some none, [] => some { p with workers := p.workers.eraseIdx worker }
    | _, _ => none
  | .probe worker moment reading =>
    match p.workers[worker]? with
    | some (some poll) =>
      if p.now ≤ moment then
        let p := p.probed poll.resource moment reading
        match verdict poll.poller moment reading with
        | none => some p
        | some outcome =>
          some { p with
            workers := p.workers.set worker none
            outcomes := p.outcomes.insert poll.resource outcome }
      else none
    | _ => none
  | .takeOver =>
    if p.spawned && p.workers.isEmpty && !p.waiting.isEmpty then some { p with workers := [none] }
    else none

/-- The verification after several events, if all of them can happen. -/
def run? (p : Polling) : List Event → Option Polling
  | [] => some p
  | event :: rest => (p.step? event).bind (·.run? rest)

/-- Whether the verification is over: no worker is left, and nothing is left to do. -/
def isOver (p : Polling) : Bool := p.spawned && p.workers.isEmpty && p.waiting.isEmpty

end Polling

end ControlRig.Verification
