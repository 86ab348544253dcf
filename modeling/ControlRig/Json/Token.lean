import ControlRig.Json.Basic

/-!
# The words of a JSON text

A JSON text is read in two steps. The first, here, cuts it into words: punctuation, strings with
their escapes resolved, numbers and the three literals. It walks the characters once from left to
right with a small state (`Scan`), so that reading a text in two pieces is the same as reading it
in one; each step looks at one character and only that.

A number or literal ends where a character comes that cannot belong to it. Nothing but blanks,
punctuation and quotes may touch the end of a number or literal in valid JSON, so the longest run
of its characters is the right one.
-/

namespace ControlRig.Json

/-- A word of a JSON text. -/
inductive Token where
  | openArray
  | closeArray
  | openObject
  | closeObject
  | colon
  | comma
  | scalar (value : Json)
  deriving Inhabited

/-- What the scanner is in the middle of. -/
inductive Scan where
  /-- Between words. -/
  | between
  /-- Inside a string; the characters so far, last first. -/
  | text (seen : List Char)
  /-- Inside a string, after a backslash. -/
  | escape (seen : List Char)
  /-- Inside a string, in the four digits of a character number: how many are still to come, the
  number so far, and the high surrogate that came just before, if one did. -/
  | unicode (seen : List Char) (left : Nat) (number : Nat) (high : Option Nat)
  /-- Inside a string, after a high surrogate: a backslash has to come. -/
  | lowBackslash (seen : List Char) (high : Nat)
  /-- Inside a string, after a high surrogate and a backslash: the letter `u` has to come. -/
  | lowLetter (seen : List Char) (high : Nat)
  /-- Inside a number or literal; its characters so far, last first. -/
  | word (seen : List Char)

/-- The value of a hexadecimal digit. -/
def hexValue? (c : Char) : Option Nat :=
  if '0' ≤ c && c ≤ '9' then some (c.toNat - 48)
  else if 'a' ≤ c && c ≤ 'f' then some (c.toNat - 87)
  else if 'A' ≤ c && c ≤ 'F' then some (c.toNat - 55)
  else none

/-! ## Numbers -/

/-- The largest natural that an unsigned word of 64 bits holds. -/
def maxWord : Nat := 0xffffffffffffffff

/-- Read digits into a number for as long as it fits a word; also how many digits were left out. -/
def takeDigits (number : Nat) : List Char → Nat × Nat
  | [] => (number, 0)
  | c :: rest =>
    let next := number * 10 + (c.toNat - 48)
    if next ≤ maxWord then takeDigits next rest else (number, (c :: rest).length)

/-- Divide by a power of ten, at most `10^308` at a time. -/
def divideByTens (x : Double) (e : Nat) : Double :=
  if e ≤ 308 then x.div (Double.ofDecimal false 1 e)
  else if x.magnitude = 0 then x
  else divideByTens (x.div (Double.ofDecimal false 1 308)) (e - 308)
termination_by e

/-- The double for `digits · 10^exponent`: the digits and the power of ten are rounded first, then
their product or quotient. A number too large for a double is refused. -/
def scaled? (digits : Nat) (exponent : Int) : Option Double :=
  let base := Double.ofRatio false digits 1
  match exponent with
  | .ofNat e =>
    if e ≤ 308 then
      let x := base.mul (Double.ofDecimal false 1 e)
      if x.isInfinite then none else some x
    else if digits = 0 then some base
    else none
  | .negSucc e => some (divideByTens base (e + 1))

/-- A double with the sign of a number's text. -/
def signed (negative : Bool) (x : Double) : Json := .float (if negative then x.neg else x)

/-- The value of a floating-point text from its parts. Digits beyond a word are dropped, those
before the point counting into the exponent. -/
def floatValue? (negative : Bool) (whole fraction : List Char) (exponent : Int) : Option Json :=
  let (digits, left) := takeDigits 0 whole
  let (digits', left') := takeDigits digits fraction
  let places := fraction.length - left'
  (scaled? digits' ((left : Int) - places + exponent)).map (signed negative)

/-- The value of an integer text. What no 64-bit word holds, and a zero with a minus sign, is
floating point. -/
def integerValue? (negative : Bool) (whole : List Char) : Option Json :=
  let (number, left) := takeDigits 0 whole
  if left = 0 && !negative then some (.integer number)
  else if left = 0 && 0 < number && number ≤ 0x8000000000000000 then some (.integer (-number))
  else (scaled? number left).map (signed negative)

/-- The number that some digits spell; none without digits, or with anything else among them. -/
def digitsValue? (ds : List Char) : Option Nat :=
  if ds.all Char.isDigit && !ds.isEmpty then some (Nat.ofDigitChars 10 ds 0) else none

/-- The exponent part of a number: a sign or none, and digits. -/
def exponent? : List Char → Option Int
  | '-' :: ds => (digitsValue? ds).map fun n => -(n : Int)
  | '+' :: ds => (digitsValue? ds).map Int.ofNat
  | ds => (digitsValue? ds).map Int.ofNat

/-- The largest exponent that a number may spell out. -/
def maxExponent : Nat := 0x7fffffff

/-- The value of a number without its sign. -/
def unsignedValue? (negative : Bool) (cs : List Char) : Option Json :=
  let whole := cs.takeWhile Char.isDigit
  let rest := cs.dropWhile Char.isDigit
  if whole.isEmpty || (whole.length > 1 && whole.head? = some '0') then none
  else match rest with
    | [] => integerValue? negative whole
    | c :: rest =>
      let fraction := if c = '.' then rest.takeWhile Char.isDigit else []
      let tail := if c = '.' then rest.dropWhile Char.isDigit else c :: rest
      if c = '.' && fraction.isEmpty then none
      else match tail with
        | [] => floatValue? negative whole fraction 0
        | e :: digits =>
          if e = 'e' || e = 'E' then
            match exponent? digits with
            | none => none
            | some exponent =>
              let allZero := (takeDigits (takeDigits 0 whole).1 fraction).1 = 0
              if exponent.natAbs ≤ maxExponent then floatValue? negative whole fraction exponent
              else if 0 < exponent && !allZero then none
              else some (.float (.zero negative))
          else none

/-- The value of a number or literal. -/
def wordValue? (word : List Char) : Option Json :=
  match word with
  | ['n', 'u', 'l', 'l'] => some .null
  | ['t', 'r', 'u', 'e'] => some (.bool true)
  | ['f', 'a', 'l', 's', 'e'] => some (.bool false)
  | '-' :: rest => unsignedValue? true rest
  | cs => unsignedValue? false cs

/-! ## The scanner -/

/-- Whether a character may belong to a number or literal. -/
def isWordChar (c : Char) : Bool :=
  c.isAlphanum || c = '-' || c = '+' || c = '.'

/-- Whether a character may stand between words. -/
def isSpace (c : Char) : Bool := c = ' ' || c = '\n' || c = '\t' || c = '\r'

/-- The state between words after one character: the words it completes and the new state. -/
def scanBetween (c : Char) : Option (List Token × Scan) :=
  if isSpace c then some ([], .between)
  else if c = '"' then some ([], .text [])
  else if c = '[' then some ([.openArray], .between)
  else if c = ']' then some ([.closeArray], .between)
  else if c = '\x7b' then some ([.openObject], .between)
  else if c = '\x7d' then some ([.closeObject], .between)
  else if c = ':' then some ([.colon], .between)
  else if c = ',' then some ([.comma], .between)
  else if isWordChar c then some ([], .word [c])
  else none

/-- The character that a letter after a backslash stands for. -/
def unescape? (c : Char) : Option Char :=
  if c = '"' || c = '\\' || c = '/' then some c
  else if c = 'b' then some '\x08'
  else if c = 'f' then some '\x0c'
  else if c = 'n' then some '\n'
  else if c = 'r' then some '\r'
  else if c = 't' then some '\t'
  else none

/-- The state after the last digit of a character number. Surrogates count in pairs only. -/
def scanCharacter (seen : List Char) (number : Nat) : Option Nat → Option Scan
  | none =>
    if 0xD800 ≤ number && number ≤ 0xDBFF then some (.lowBackslash seen number)
    else if 0xDC00 ≤ number && number ≤ 0xDFFF then none
    else some (.text (Char.ofNat number :: seen))
  | some high =>
    if 0xDC00 ≤ number && number ≤ 0xDFFF then
      some (.text (Char.ofNat (0x10000 + (high - 0xD800) * 0x400 + (number - 0xDC00)) :: seen))
    else none

/-- One character further: the words it completes and the new state, or nothing if no JSON text
goes on like that. -/
def scanStep (state : Scan) (c : Char) : Option (List Token × Scan) :=
  match state with
  | .between => scanBetween c
  | .text seen =>
    if c = '"' then some ([.scalar (.string (String.ofList seen.reverse))], .between)
    else if c = '\\' then some ([], .escape seen)
    else if c.toNat < 0x20 then none
    else some ([], .text (c :: seen))
  | .escape seen =>
    if c = 'u' then some ([], .unicode seen 4 0 none)
    else (unescape? c).map fun d => ([], .text (d :: seen))
  | .unicode seen left number high =>
    match hexValue? c with
    | none => none
    | some d =>
      let number := number * 16 + d
      if left ≤ 1 then (scanCharacter seen number high).map fun next => ([], next)
      else some ([], .unicode seen (left - 1) number high)
  | .lowBackslash seen high => if c = '\\' then some ([], .lowLetter seen high) else none
  | .lowLetter seen high => if c = 'u' then some ([], .unicode seen 4 0 (some high)) else none
  | .word seen =>
    if isWordChar c then some ([], .word (c :: seen))
    else match wordValue? seen.reverse, scanBetween c with
      | some value, some (tokens, next) => some (.scalar value :: tokens, next)
      | _, _ => none

/-- The words that the end of the text completes. -/
def scanEnd : Scan → Option (List Token)
  | .between => some []
  | .word seen => (wordValue? seen.reverse).map fun value => [.scalar value]
  | _ => none

/-- Scan a text from a state on, adding to the words already found, last first. -/
def scanFrom (state : Scan) (found : List Token) : List Char → Option (List Token)
  | [] => (scanEnd state).map fun tokens => found.reverse ++ tokens
  | c :: rest =>
    match scanStep state c with
    | none => none
    | some (tokens, next) => scanFrom next (tokens.reverse ++ found) rest

/-- The words of a text. -/
def scan (text : List Char) : Option (List Token) := scanFrom .between [] text

end ControlRig.Json
