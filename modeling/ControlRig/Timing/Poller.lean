import ControlRig.Duration

/-!
# Polling with a deadline

A condition is probed again and again, with a fixed pause in between, until it holds or the deadline
has passed. The deadline is looked at after each probe that fails, so even a poll without any time
probes once, and a condition that is found to hold late still counts.
-/

namespace ControlRig

/-- What a probe says about a poll. -/
inductive PollStatus where
  | ready
  | pending
  | timedOut
  deriving DecidableEq, Repr

/-- A poll that began at a given moment. -/
structure Poller where
  started : Instant
  timeout : Duration
  period : Duration
  deriving DecidableEq, Repr

namespace Poller

/-- The poll of a rate that begins now. -/
def start (now : Instant) (rateHz : Nat) (timeout : Duration) : Poller :=
  ⟨now, timeout, .ofRate rateHz⟩

/-- The shortest pause. A probe takes a little time itself, which shows where there is next to no
period to wait for. -/
def leastPause : Duration := ⟨1000⟩

/-- How long a poll pauses after a probe that does not decide it. -/
def pause (p : Poller) : Duration := ⟨max p.period.nanos leastPause.nanos⟩

/-- What a probe that ended now says. -/
def check (p : Poller) (now : Instant) (ready : Bool) : PollStatus :=
  if ready then .ready
  else if p.timeout ≤ now.since p.started then .timedOut
  else .pending

/-- Poll from the given iteration on, each with its probe and the moment at which it ends: the
outcome and the number of probes. Nothing if so many iterations do not decide. -/
def waitFrom (p : Poller) (probe : Nat → Bool) (moment : Nat → Instant) (i : Nat) :
    Nat → Option (PollStatus × Nat)
  | 0 => none
  | fuel + 1 =>
    match p.check (moment i) (probe i) with
    | .pending => waitFrom p probe moment (i + 1) fuel
    | status => some (status, i + 1)

/-- Poll until the outcome is known. -/
def wait (p : Poller) (probe : Nat → Bool) (moment : Nat → Instant) (iterations : Nat) :
    Option (PollStatus × Nat) :=
  p.waitFrom probe moment 0 iterations

/-- A number of iterations that decides every poll whose pauses are kept to the period: one for each
period within the time-out, one for the rest and one for the deadline itself. -/
def iterations (p : Poller) : Nat := p.timeout.nanos / max p.period.nanos 1 + 2

/-- The moments of the iterations when nothing but the pauses takes time. -/
def idealMoment (p : Poller) (i : Nat) : Instant := p.started.after ⟨i * p.period.nanos⟩

end Poller

end ControlRig
