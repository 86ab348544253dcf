import ControlRig.Double.Basic

/-!
# Lengths of time

Time-outs, delays and periods are whole numbers of nanoseconds. Shown to a reader, a duration uses
the largest unit of which it holds a whole one and an exact decimal fraction: `1.5s`, `150ms`,
`1.001µs`, `0ns`.
-/

namespace ControlRig

/-- A length of time in nanoseconds. -/
structure Duration where
  nanos : Nat
  deriving DecidableEq, Repr, Inhabited

namespace Duration

instance : LE Duration := ⟨fun a b => a.nanos ≤ b.nanos⟩
instance : LT Duration := ⟨fun a b => a.nanos < b.nanos⟩
instance (a b : Duration) : Decidable (a ≤ b) := inferInstanceAs (Decidable (a.nanos ≤ b.nanos))
instance (a b : Duration) : Decidable (a < b) := inferInstanceAs (Decidable (a.nanos < b.nanos))

/-- No time at all. -/
def zero : Duration := ⟨0⟩

/-- A duration of whole seconds. -/
def ofSeconds (n : Nat) : Duration := ⟨n * 1000000000⟩

/-- A duration of whole milliseconds. -/
def ofMillis (n : Nat) : Duration := ⟨n * 1000000⟩

/-- A duration of whole seconds and nanoseconds. The seconds, with those among the nanoseconds, have
to fit into 64 bits. -/
def ofParts? (seconds nanos : Nat) : Option Duration :=
  if seconds + nanos / 1000000000 < 0x10000000000000000 then some ⟨seconds * 1000000000 + nanos⟩
  else none

/-- The shorter of two durations. -/
def min (a b : Duration) : Duration := if a ≤ b then a else b

/-- The time between two actions that happen `hz` times a second; a rate of zero counts as one.

This is the double nearest to the reciprocal of the rate, to the nearest nanosecond, and a half goes
to the even neighbour both times. With `2^k` the largest power of two up to the rate, the doubles
from half of its reciprocal up to the whole are the multiples of `1 / 2^(53 + k)`. -/
def ofRate (hz : Nat) : Duration :=
  let rate := max hz 1
  let perSecond := Nat.pow 2 (53 + Nat.log2 rate)
  ⟨Double.roundDiv (Double.roundDiv perSecond rate * 1000000000) perSecond⟩

/-- A fraction of `width` digits without the zeros at its end, after its point; empty for zero. -/
def fractionText (value width : Nat) : List Char :=
  if value = 0 then []
  else
    let digits := Nat.toDigits 10 value
    let padded := List.replicate (width - digits.length) '0' ++ digits
    '.' :: (padded.reverse.dropWhile (· = '0')).reverse

/-- A duration as a multiple of one unit: whole part, fraction and the name of the unit. -/
def textIn (nanos perUnit width : Nat) (unit : String) : String :=
  String.ofList (Nat.toDigits 10 (nanos / perUnit) ++ fractionText (nanos % perUnit) width) ++ unit

/-- The text of a duration, in the largest unit that it fills. -/
def text (d : Duration) : String :=
  if 1000000000 ≤ d.nanos then textIn d.nanos 1000000000 9 "s"
  else if 1000000 ≤ d.nanos then textIn d.nanos 1000000 6 "ms"
  else if 1000 ≤ d.nanos then textIn d.nanos 1000 3 "µs"
  else textIn d.nanos 1 0 "ns"

/-- One duration after another. -/
def add (a b : Duration) : Duration := ⟨a.nanos + b.nanos⟩

instance : Add Duration := ⟨add⟩

-- the last of these periods ends in half a nanosecond
example :
    ofRate 0 = ofSeconds 1 ∧ ofRate 200 = ofMillis 5 ∧ ofRate 3 = ⟨333333333⟩ ∧
    ofRate 1024 = ⟨976562⟩ := by
  decide

example : (Duration.ofSeconds 10).text = "10s" := by decide
example : (Duration.ofMillis 1500).text = "1.5s" := by decide
example : (Duration.mk 1001).text = "1.001µs" := by decide
example : Duration.zero.text = "0ns" := by decide

end Duration

/-- A moment of a clock that only goes forward, in nanoseconds since the clock was started. -/
structure Instant where
  nanos : Nat
  deriving DecidableEq, Repr, Inhabited

namespace Instant

instance : LE Instant := ⟨fun a b => a.nanos ≤ b.nanos⟩
instance : LT Instant := ⟨fun a b => a.nanos < b.nanos⟩
instance (a b : Instant) : Decidable (a ≤ b) := inferInstanceAs (Decidable (a.nanos ≤ b.nanos))
instance (a b : Instant) : Decidable (a < b) := inferInstanceAs (Decidable (a.nanos < b.nanos))

/-- The moment when the clock was started. -/
def start : Instant := ⟨0⟩

/-- The moment some time later. -/
def after (t : Instant) (d : Duration) : Instant := ⟨t.nanos + d.nanos⟩

/-- The time that has passed since an earlier moment; none if it is yet to come. -/
def since (t earlier : Instant) : Duration := ⟨t.nanos - earlier.nanos⟩

@[simp] theorem since_after (t : Instant) (d : Duration) : (t.after d).since t = d := by
  simp [since, after]

end Instant

end ControlRig
