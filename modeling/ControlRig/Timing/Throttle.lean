import ControlRig.Duration

/-!
# At most once in a while

A throttle lets an action through unless it let one through less than a period ago.
-/

namespace ControlRig

/-- The period of an action, and when it was let through last. -/
structure Throttle where
  period : Duration
  last : Option Instant
  deriving DecidableEq, Repr

namespace Throttle

/-- A throttle that has not let anything through. -/
def start (period : Duration) : Throttle := ⟨period, none⟩

/-- Whether the action is let through now, and the throttle after that. -/
def ready (t : Throttle) (now : Instant) : Bool × Throttle :=
  match t.last with
  | some last =>
    if now.since last < t.period then (false, t) else (true, { t with last := some now })
  | none => (true, { t with last := some now })

/-- The answers to calls at the given moments. -/
def run (t : Throttle) : List Instant → List Bool
  | [] => []
  | now :: rest => (t.ready now).1 :: run (t.ready now).2 rest

end Throttle

end ControlRig
