import ControlRig.Duration
import ControlRig.Text.Blank
import ControlRig.Text.Decimal

/-!
# Moments of universal time

The last transition is reported with its date and time. A `Timestamp` is a count of seconds since
the beginning of 1970, universal time, with a fraction; its text is the usual one of dates on the
wire, `2024-05-01T08:30:00.250Z`. Reading is more lenient than writing: offsets are converted,
blanks may stand between the parts, and the parts may be short. A leap second is the second before
it with a fraction above one.

Days are counted from the first of March of the year 0, so that the leap day is the last of its
year; four hundred years always have the same number of days.
-/

namespace ControlRig

/-- A moment of universal time. -/
structure Timestamp where
  /-- Seconds since 1970-01-01T00:00:00Z. -/
  seconds : Int
  /-- Nanoseconds beyond that; a whole second more stands for a leap second. -/
  nanos : Nat
  deriving DecidableEq, Repr

namespace Timestamp

/-! ## The calendar -/

/-- The number of days from 1970-01-01 to a day of the calendar. -/
def daysOfDate (year : Int) (month day : Nat) : Int :=
  let y := if month ≤ 2 then year - 1 else year
  let era := y.fdiv 400
  let yearOfEra := y - era * 400
  let monthFromMarch : Int := if 2 < month then month - 3 else month + 9
  let dayOfYear := (153 * monthFromMarch + 2).fdiv 5 + day - 1
  era * 146097 + yearOfEra * 365 + yearOfEra.fdiv 4 - yearOfEra.fdiv 100 + dayOfYear - 719468

/-- The day of the calendar so many days after 1970-01-01. -/
def dateOfDays (days : Int) : Int × Nat × Nat :=
  let z := days + 719468
  let era := z.fdiv 146097
  let dayOfEra := (z - era * 146097).toNat
  let yearOfEra := (dayOfEra - dayOfEra / 1460 + dayOfEra / 36524 - dayOfEra / 146096) / 365
  let dayOfYear := dayOfEra - (365 * yearOfEra + yearOfEra / 4 - yearOfEra / 100)
  let monthFromMarch := (5 * dayOfYear + 2) / 153
  let day := dayOfYear - (153 * monthFromMarch + 2) / 5 + 1
  let month := if monthFromMarch < 10 then monthFromMarch + 3 else monthFromMarch - 9
  let year : Int := era * 400 + yearOfEra
  (if month ≤ 2 then year + 1 else year, month, day)

/-- Whether a year has a 29th of February. -/
def isLeapYear (year : Int) : Bool :=
  year % 4 = 0 && (year % 100 ≠ 0 || year % 400 = 0)

/-- The number of days of a month. -/
def daysInMonth (year : Int) (month : Nat) : Nat :=
  if month = 2 then (if isLeapYear year then 29 else 28)
  else if month = 4 || month = 6 || month = 9 || month = 11 then 30
  else 31

/-! ## Writing -/

/-- A number with zeros before it, up to a width. -/
def padded (width n : Nat) : String :=
  let digits := Nat.toDigits 10 n
  String.ofList (List.replicate (width - digits.length) '0' ++ digits)

/-- A year: four digits, or a sign and at least four where that is not enough. -/
def yearText (year : Int) : String :=
  if 0 ≤ year && year ≤ 9999 then padded 4 year.toNat
  else (if year < 0 then "-" else "+") ++ padded 4 year.natAbs

/-- A fraction of a second in three, six or nine places, as few as show it; nothing for none. -/
def fractionText (nanos : Nat) : String :=
  if nanos = 0 then ""
  else if nanos % 1000000 = 0 then "." ++ padded 3 (nanos / 1000000)
  else if nanos % 1000 = 0 then "." ++ padded 6 (nanos / 1000)
  else "." ++ padded 9 nanos

/-- The text without the offset. -/
def localText (t : Timestamp) : String :=
  let days := t.seconds.fdiv 86400
  let secondOfDay := (t.seconds - days * 86400).toNat
  let (year, month, day) := dateOfDays days
  let second := secondOfDay % 60 + t.nanos / 1000000000
  yearText year ++ "-" ++ padded 2 month ++ "-" ++ padded 2 day ++ "T"
    ++ padded 2 (secondOfDay / 3600) ++ ":" ++ padded 2 (secondOfDay / 60 % 60) ++ ":"
    ++ padded 2 second ++ fractionText (t.nanos % 1000000000)

/-- The text on the wire. -/
def text (t : Timestamp) : String := t.localText ++ "Z"

/-- The text with a numeric offset, for readers. -/
def offsetText (t : Timestamp) : String := t.localText ++ "+00:00"

/-- The moment of a clock that was started at the beginning of 1970. -/
def ofInstant (t : Instant) : Timestamp :=
  ⟨t.nanos / 1000000000, t.nanos % 1000000000⟩

/-! ## Reading -/

/-- Why a text is no timestamp. -/
inductive ReadError where
  | outOfRange
  | invalid
  | tooShort
  | tooLong
  /-- Universal time at that moment lies in a year that cannot be told. -/
  | impossible
  deriving DecidableEq, Repr

/-- The wording of a reading error. -/
def ReadError.message : ReadError → String
  | .outOfRange => "input is out of range"
  | .invalid => "input contains invalid characters"
  | .tooShort => "premature end of input"
  | .tooLong => "trailing input"
  | .impossible => "no possible date and time matching input"

/-- A reader of the start of a text. -/
abbrev Reader (α : Type) := List Char → Except ReadError (α × List Char)

/-- Drop blanks. -/
def dropBlanks (cs : List Char) : List Char := cs.dropWhile Text.isBlank

/-- At least one digit and at most so many, as a number. -/
def readNumber (most : Nat) : Reader Nat := fun cs =>
  let digits := (cs.take most).takeWhile Char.isDigit
  if cs.isEmpty then .error .tooShort
  else if digits.isEmpty then .error .invalid
  else .ok (Nat.ofDigitChars 10 digits 0, cs.drop digits.length)

/-- A number after blanks, within a range. -/
def readWithin (low high : Nat) : Reader Nat := fun cs => do
  let (n, rest) ← readNumber 2 (dropBlanks cs)
  if low ≤ n && n ≤ high then return (n, rest) else throw .outOfRange

/-- A given character after blanks. -/
def readMark (c : Char) : Reader Unit := fun cs =>
  match dropBlanks cs with
  | [] => .error .tooShort
  | d :: rest => if d = c then .ok ((), rest) else .error .invalid

/-- A year, if it is a number of 32 bits with a sign. -/
def yearWithin (year : Int) (rest : List Char) : Except ReadError (Int × List Char) :=
  if -0x80000000 ≤ year && year ≤ 0x7fffffff then .ok (year, rest) else .error .outOfRange

/-- A year: up to four digits, or any number of them after a sign. -/
def readYear : Reader Int := fun cs =>
  match dropBlanks cs with
  | '-' :: rest => do
    let (n, rest) ← readNumber rest.length rest
    yearWithin (-(n : Int)) rest
  | '+' :: rest => do
    let (n, rest) ← readNumber rest.length rest
    yearWithin n rest
  | start => do
    let (n, rest) ← readNumber 4 start
    return ((n : Int), rest)

/-- The fraction of a second, if there is one; digits after the ninth are dropped. -/
def readFraction : Reader Nat := fun cs =>
  match cs with
  | '.' :: rest =>
    let digits := rest.takeWhile Char.isDigit
    if rest.isEmpty then .error .tooShort
    else if digits.isEmpty then .error .invalid
    else
      let nine := (digits ++ List.replicate 9 '0').take 9
      .ok (Nat.ofDigitChars 10 nine 0, rest.dropWhile Char.isDigit)
  | _ => .ok (0, cs)

/-- Exactly two digits. Of a text with fewer than two bytes more is awaited. -/
def readTwoDigits : Reader (Nat × Nat)
  | c :: d :: rest =>
    if c.isDigit && d.isDigit then .ok ((c.toNat - '0'.toNat, d.toNat - '0'.toNat), rest)
    else .error .invalid
  | [c] => .error (if c.utf8Size = 1 then .tooShort else .invalid)
  | [] => .error .tooShort

/-- The hours and minutes of an offset, in seconds. Colons and blanks may stand between them. -/
def readOffsetAmount : Reader Nat := fun cs => do
  let ((h, h'), cs) ← readTwoDigits cs
  let ((m, m'), cs) ← readTwoDigits (cs.dropWhile fun c => c = ':' || Text.isBlank c)
  if m ≤ 5 then return ((h * 10 + h') * 3600 + (m * 10 + m') * 60, cs)
  else throw .outOfRange

/-- An offset in seconds: `Z`, `UTC`, or a sign, hours and minutes. -/
def readOffset : Reader Int := fun cs =>
  match cs with
  | 'Z' :: rest => .ok (0, rest)
  | 'z' :: rest => .ok (0, rest)
  | [] => .error .tooShort
  | sign :: rest =>
    if (cs.take 3).map Char.toLower = ['u', 't', 'c'] then .ok (0, cs.drop 3)
    else if sign = '+' then (readOffsetAmount rest).map fun (n, rest) => ((n : Int), rest)
    else if sign = '-' || sign = '\u2212' then
      (readOffsetAmount rest).map fun (n, rest) => (-(n : Int), rest)
    else .error .invalid

/-- The years that can be told apart. -/
def minYear : Int := -262143
/-- The last of them. -/
def maxYear : Int := 262142

/-- The mark between date and time, dropped. -/
def readSeparator : Reader Unit
  | 'T' :: rest => .ok ((), rest)
  | 't' :: rest => .ok ((), rest)
  | ' ' :: rest => .ok ((), rest)
  | [] => .error .tooShort
  | _ => .error .invalid

/-- The length of a day in seconds. -/
def dayLength : Int := 86400

/-- The timestamp of a local moment, so many seconds ahead of universal time. The date has to be one
of the calendar, the offset less than a day, and universal time in a year that can be told. -/
def ofLocal (year : Int) (month day : Nat) (secondOfDay : Int) (nanos : Nat) (offset : Int) :
    Except ReadError Timestamp :=
  let seconds := daysOfDate year month day * dayLength + secondOfDay - offset
  if year < minYear || maxYear < year || daysInMonth year month < day then .error .outOfRange
  else if offset ≤ -dayLength || dayLength ≤ offset then .error .outOfRange
  else if seconds < daysOfDate minYear 1 1 * dayLength then .error .impossible
  else if daysOfDate (maxYear + 1) 1 1 * dayLength ≤ seconds then .error .impossible
  else .ok ⟨seconds, nanos⟩

/-- The timestamp that a text spells. -/
def read (text : String) : Except ReadError Timestamp := do
  let (year, cs) ← readYear text.toList
  let ((), cs) ← readMark '-' cs
  let (month, cs) ← readWithin 1 12 cs
  let ((), cs) ← readMark '-' cs
  let (day, cs) ← readWithin 1 31 cs
  let ((), cs) ← readSeparator cs
  let (hour, cs) ← readWithin 0 23 cs
  let ((), cs) ← readMark ':' cs
  let (minute, cs) ← readWithin 0 59 cs
  let ((), cs) ← readMark ':' cs
  let (second, cs) ← readWithin 0 60 cs
  let (nanos, cs) ← readFraction cs
  let (offset, cs) ← readOffset (dropBlanks cs)
  if !(dropBlanks cs).isEmpty then throw .tooLong
  let leap := if second = 60 then 1 else 0
  ofLocal year month day (hour * 3600 + minute * 60 + (second - leap) : Nat)
    (nanos + leap * 1000000000) offset

example : (Timestamp.mk 0 0).text = "1970-01-01T00:00:00Z" := by cbv
example : (Timestamp.mk 1709164800 250000000).text = "2024-02-29T00:00:00.250Z" := by cbv
example : (Timestamp.mk (-1) 0).text = "1969-12-31T23:59:59Z" := by cbv

end Timestamp

end ControlRig
