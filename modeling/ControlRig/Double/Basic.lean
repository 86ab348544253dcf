/-!
# Binary floating point

Parameter files and requests may hold floating-point numbers. None is ever computed with, but one
has to be read from decimal text, kept exactly, and shown. A `Double` is the 64 bits of a binary
floating-point number: sign, eleven bits of exponent, fifty-two of fraction. Everything here is
integer arithmetic on that layout, so that what a text is read as is a matter of exact inequalities
and not of a machine's arithmetic.

`ofRatio` is the one place where a double is rounded: the nearest one to a quotient of naturals, a
half going to the even neighbour.
-/

namespace ControlRig

/-- A binary64 number, as its bits. -/
structure Double where
  bits : UInt64
  deriving DecidableEq, Repr

namespace Double

/-- The number of fraction bits, and one above the largest mantissa. -/
def fractionSize : Nat := 0x10000000000000

/-- The bits of positive infinity: every exponent bit set, the fraction zero. -/
def infinityBits : Nat := 0x7FF * fractionSize

/-- The bit of the sign. -/
def signBit : Nat := 0x8000000000000000

/-- A number of the given sign whose other bits are given. -/
def ofMagnitude (negative : Bool) (magnitude : Nat) : Double :=
  ⟨UInt64.ofNat (magnitude + if negative then signBit else 0)⟩

/-- The bits below the sign. -/
def magnitude (x : Double) : Nat := x.bits.toNat % signBit

/-- Whether the sign bit is set. -/
def isNegative (x : Double) : Bool := signBit ≤ x.bits.toNat

/-- Whether the bits are one of the many spellings of "not a number". -/
def isNaN (x : Double) : Bool := infinityBits < x.magnitude

/-- Whether the number is one of the infinities. -/
def isInfinite (x : Double) : Bool := x.magnitude = infinityBits

/-- Positive or negative zero. -/
def zero (negative : Bool) : Double := ofMagnitude negative 0

/-- Positive or negative infinity. -/
def infinity (negative : Bool) : Double := ofMagnitude negative infinityBits

/-- The usual spelling of "not a number": the quiet bit alone. -/
def nan (negative : Bool) : Double := ofMagnitude negative (infinityBits + fractionSize / 2)

/-- The same number with the other sign. -/
def neg (x : Double) : Double := ofMagnitude (!x.isNegative) x.magnitude

/-- The mantissa of a finite number: the fraction, with the leading one that the bits leave out. -/
def mantissa (x : Double) : Nat :=
  let exponentField := x.magnitude / fractionSize
  if exponentField = 0 then x.magnitude else fractionSize + x.magnitude % fractionSize

/-- How far the binary point lies right of the lowest place of any double: a finite number is its
mantissa times two to this power, over two to the 1074th. -/
def shift (x : Double) : Nat := x.magnitude / fractionSize - 1

/-- One over the smallest positive number: two to the 1074th. -/
def scale : Nat := Nat.pow 2 1074

/-- A quotient rounded to the nearest integer, a half to the even one. -/
def roundDiv (num den : Nat) : Nat :=
  let q := num / den
  let twice := 2 * (num % den)
  if den < twice || (den = twice && q % 2 = 1) then q + 1 else q

/-- The double nearest to a quotient of naturals; infinity when that lies beyond the largest.

With `k` chosen so that `num / den` is some `x · 2^k / 2^1074` with `x` below `2^53`, and at least
`2^52` unless `k` is zero, the bits are `k · 2^52 + x`: rounding `x` up to `2^53` carries into the
exponent and stays right. -/
def ofRatio (negative : Bool) (num den : Nat) : Double :=
  let scaled := num * scale
  let whole := scaled / den
  let k := if whole < 2 * fractionSize then 0 else Nat.log2 whole - 52
  let rounded := k * fractionSize + roundDiv scaled (den * Nat.pow 2 k)
  if infinityBits ≤ rounded then infinity negative else ofMagnitude negative rounded

/-- A finite number as a quotient of naturals, without its sign. -/
def ratio (x : Double) : Nat × Nat := (x.mantissa * Nat.pow 2 x.shift, scale)

/-- The double nearest to a decimal `digits · 10^exponent`.

An exponent so large or small that the result is infinite or zero whatever the digits is not
expanded. -/
def ofDecimal (negative : Bool) (digits : Nat) (exponent : Int) : Double :=
  let width := (Nat.toDigits 10 digits).length
  if digits = 0 then zero negative
  else if 310 < (width : Int) + exponent then infinity negative
  else if (width : Int) + exponent < -330 then zero negative
  else match exponent with
    | .ofNat e => ofRatio negative (digits * Nat.pow 10 e) 1
    | .negSucc e => ofRatio negative digits (Nat.pow 10 (e + 1))

/-- The product of two finite numbers, rounded. -/
def mul (x y : Double) : Double :=
  let (a, b) := x.ratio
  let (c, d) := y.ratio
  ofRatio (x.isNegative != y.isNegative) (a * c) (b * d)

/-- The quotient of two finite numbers, rounded; the divisor is not zero. -/
def div (x y : Double) : Double :=
  let (a, b) := x.ratio
  let (c, d) := y.ratio
  ofRatio (x.isNegative != y.isNegative) (a * d) (b * c)

-- one and a tenth, the zero with a sign, and both ends of the range
example :
    ofDecimal false 1 0 = ⟨0x3FF0000000000000⟩ ∧
    ofDecimal false 1 (-1) = ⟨0x3FB999999999999A⟩ ∧
    ofDecimal true 0 0 = ⟨0x8000000000000000⟩ ∧
    ofDecimal false 17976931348623157 292 = ⟨0x7FEFFFFFFFFFFFFF⟩ ∧
    (ofDecimal false 1 309).isInfinite = true ∧
    ofDecimal false 5 (-324) = ⟨1⟩ := by
  decide +kernel

end Double

end ControlRig
