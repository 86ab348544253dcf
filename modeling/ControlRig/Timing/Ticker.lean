import ControlRig.Duration

/-!
# Pacing a loop

A ticker lets a loop pass at a fixed rate. A pass that is early waits for its turn; one that is late
goes on at once, and the schedule starts afresh from there instead of catching up.
-/

namespace ControlRig

/-- The schedule of a loop: its period and the next turn. -/
structure Ticker where
  period : Duration
  next : Instant
  deriving DecidableEq, Repr

namespace Ticker

/-- The schedule of a loop that begins now. -/
def start (now : Instant) (rateHz : Nat) : Ticker :=
  let period := Duration.ofRate rateHz
  ⟨period, now.after period⟩

/-- A pass that is over now: how long to wait, and the schedule after that. -/
def tick (t : Ticker) (now : Instant) : Duration × Ticker :=
  if now < t.next then (t.next.since now, { t with next := t.next.after t.period })
  else (.zero, { t with next := now.after t.period })

end Ticker

end ControlRig
