import ControlRig.Double.Basic

/-!
# The shortest decimal of a double

A double is shown by the fewest decimal digits that no other double is nearer to, and of those by
the ones nearest to it (a tie goes up). The reals that round to a finite double form an interval,
with its ends when the mantissa is even; for one digit, two, and so on up to seventeen the two
neighbours of the number on that decimal grid are tried against the interval.

The digits are written out in full, with at least one place after the point (`text`), or with an
exponent where that would take many zeros (`scientificText`).
-/

namespace ControlRig.Double

/-- The interval of what rounds to a finite non-zero double, over `4 · 2^1074`: lower end, the
number itself, upper end. Below a power of two the neighbours are half as far apart. -/
def interval (x : Double) : Nat × Nat × Nat :=
  let gap := Nat.pow 2 x.shift
  let value := 4 * x.mantissa * gap
  let lower := if x.mantissa = fractionSize && 0 < x.shift then value - gap else value - 2 * gap
  (lower, value, value + 2 * gap)

/-- Whether `n / d` lies between two numbers over the same denominator. -/
def between (lower upper : Nat) (closed : Bool) (n : Nat) : Bool :=
  if closed then lower ≤ n && n ≤ upper else lower < n && n < upper

/-- The best decimal `c · 10^k` with `c` on the grid of the given step that still reads back, over
the denominator of `interval`. With a negative `k` everything is scaled up by ten to the `-k`. -/
def onGrid (lower value upper : Nat) (closed : Bool) (k : Int) : Option Nat :=
  let up := Nat.pow 10 (-k).toNat
  let step := 4 * scale * Nat.pow 10 k.toNat
  let below := value * up / step
  let fits (c : Nat) := between (lower * up) (upper * up) closed (c * step)
  if fits below then
    if fits (below + 1) && value * up - below * step ≥ (below + 1) * step - value * up then
      some (below + 1)
    else some below
  else if fits (below + 1) then some (below + 1)
  else none

/-- The first grid, from coarse to fine, with a decimal that reads back. -/
def firstGrid (lower value upper : Nat) (closed : Bool) (top : Int) : Nat → Nat × Int
  | 0 => ((onGrid lower value upper closed (top - 17)).getD 0, top - 17)
  | n + 1 =>
    let k := top - (17 - (n + 1 : Nat))
    match onGrid lower value upper closed k with
    | some c => (c, k)
    | none => firstGrid lower value upper closed top n

/-- The exponent of the largest power of ten not above the number. -/
def decimalExponent (value : Nat) : Int :=
  let denominator := 4 * scale
  if denominator ≤ value then ((Nat.toDigits 10 (value / denominator)).length : Int) - 1
  else -((Nat.toDigits 10 (denominator / value)).length : Int)

/-- The shortest digits of a finite non-zero double, and the power of ten of the last of them. -/
def shortest (x : Double) : Nat × Int :=
  let (lower, value, upper) := x.interval
  firstGrid lower value upper (x.mantissa % 2 = 0) (decimalExponent value + 1) 18

/-- Digits with a decimal point at the place that a power of ten gives to the last of them; at least
one digit on each side. -/
def positional (digits : List Char) (exponent : Int) : List Char :=
  match exponent with
  | .ofNat e => digits ++ List.replicate e '0' ++ ['.', '0']
  | .negSucc e =>
    let places := e + 1
    let padded := List.replicate (places + 1 - digits.length) '0' ++ digits
    padded.take (padded.length - places) ++ '.' :: padded.drop (padded.length - places)

/-- Drop the zeros that end a number, into its power of ten. -/
def dropZeros (digits : Nat) (exponent : Int) : Nat → Nat × Int
  | 0 => (digits, exponent)
  | n + 1 =>
    if digits % 10 = 0 && 0 < digits then dropZeros (digits / 10) (exponent + 1) n
    else (digits, exponent)

/-- The text of a double. -/
def text (x : Double) : String :=
  let sign := if x.isNegative then "-" else ""
  if x.isNaN then "NaN"
  else if x.isInfinite then sign ++ "inf"
  else if x.magnitude = 0 then sign ++ "0.0"
  else
    let (digits, exponent) := x.shortest
    let (digits, exponent) := dropZeros digits exponent 20
    sign ++ String.ofList (positional (Nat.toDigits 10 digits) exponent)

/-- Digits with a decimal point where it stands close to them, else with one digit before the point
and a signed power of ten: `12.5`, `1e+16`, `1.5e-7`. The digits do not end in a zero. -/
def scientific (digits : List Char) (exponent : Int) : List Char :=
  let point := (digits.length : Int) + exponent
  if -5 < point && point ≤ 16 then positional digits exponent
  else
    let power := point - 1
    let powerText := match power with
      | .ofNat p => 'e' :: '+' :: Nat.toDigits 10 p
      | .negSucc p => 'e' :: '-' :: Nat.toDigits 10 (p + 1)
    match digits with
    | first :: second :: rest => first :: '.' :: second :: rest ++ powerText
    | few => few ++ powerText

/-- The text of a double with an exponent where the point would stand far from the digits. -/
def scientificText (x : Double) : String :=
  if x.isNaN || x.isInfinite || x.magnitude = 0 then x.text
  else
    let (digits, exponent) := x.shortest
    let (digits, exponent) := dropZeros digits exponent 20
    (if x.isNegative then "-" else "")
      ++ String.ofList (scientific (Nat.toDigits 10 digits) exponent)

example :
    (ofDecimal false 5 (-1)).text = "0.5" ∧
    (ofDecimal false 3 0).text = "3.0" ∧
    (ofDecimal true 1 (-1)).text = "-0.1" ∧
    (ofDecimal false 1 16).scientificText = "1e+16" ∧
    (ofDecimal false 15 (-1)).scientificText = "1.5" ∧
    (ofDecimal true 15 (-8)).scientificText = "-1.5e-7" := by
  decide +kernel

end ControlRig.Double
