/-!
# Dates and times

A parameter file may hold a date, a time of day, both, or both with an offset from universal time.
None is computed with: a value is read digit by digit, checked against the calendar, and shown in
one normal form (a `T` between date and time, a capital `Z`, a fraction of a second of at most nine
digits without zeros at its end).
-/

namespace ControlRig

/-- A day of the calendar. -/
structure CalendarDate where
  year : Nat
  month : Nat
  day : Nat
  deriving DecidableEq, Repr

/-- A time of day; a second may be a leap second. -/
structure ClockTime where
  hour : Nat
  minute : Nat
  second : Nat
  nanos : Nat
  deriving DecidableEq, Repr

/-- The distance of a local time from universal time. -/
inductive Offset where
  | universal
  | minutes (n : Int)
  deriving DecidableEq, Repr

/-- A date, a time, or both; an offset belongs to both only. -/
inductive DateTime where
  | date (d : CalendarDate)
  | time (t : ClockTime)
  | localTime (d : CalendarDate) (t : ClockTime)
  | instant (d : CalendarDate) (t : ClockTime) (o : Offset)
  deriving DecidableEq, Repr

namespace DateTime

/-! ## Reading -/

/-- Exactly `n` digits at the start of a text, as a number, and what follows them. -/
def digits? : Nat → List Char → Option (Nat × List Char)
  | n, cs =>
    let ds := cs.take n
    if ds.length = n && ds.all Char.isDigit then some (Nat.ofDigitChars 10 ds 0, cs.drop n)
    else none

/-- A given character at the start of a text, dropped. -/
def expect? (c : Char) : List Char → Option (List Char)
  | d :: rest => if d = c then some rest else none
  | [] => none

/-- Whether a year has a 29th of February. -/
def isLeap (year : Nat) : Bool :=
  year % 4 = 0 && (year % 100 ≠ 0 || year % 400 = 0)

/-- The number of days of a month. -/
def daysIn (year month : Nat) : Nat :=
  if month = 2 then (if isLeap year then 29 else 28)
  else if month = 4 || month = 6 || month = 9 || month = 11 then 30
  else 31

/-- A date `YYYY-MM-DD` of the calendar at the start of a text. -/
def readDate? (cs : List Char) : Option (CalendarDate × List Char) := do
  let (year, cs) ← digits? 4 cs
  let cs ← expect? '-' cs
  let (month, cs) ← digits? 2 cs
  let cs ← expect? '-' cs
  let (day, cs) ← digits? 2 cs
  if 1 ≤ month && month ≤ 12 && 1 ≤ day && day ≤ daysIn year month then
    some (⟨year, month, day⟩, cs)
  else none

/-- A fraction of a second in nanoseconds; digits after the ninth are dropped. -/
def fractionNanos (ds : List Char) : Nat :=
  Nat.ofDigitChars 10 ((ds ++ List.replicate 9 '0').take 9) 0

/-- A time `hh:mm:ss`, perhaps with a fraction, at the start of a text, up to the given hour. -/
def readTime? (lastHour : Nat) (cs : List Char) : Option (ClockTime × List Char) := do
  let (hour, cs) ← digits? 2 cs
  let cs ← expect? ':' cs
  let (minute, cs) ← digits? 2 cs
  let cs ← expect? ':' cs
  let (second, cs) ← digits? 2 cs
  if hour ≤ lastHour && minute ≤ 59 && second ≤ 60 then
    match cs with
    | '.' :: rest =>
      let ds := rest.takeWhile Char.isDigit
      if ds.isEmpty then none
      else some (⟨hour, minute, second, fractionNanos ds⟩, rest.dropWhile Char.isDigit)
    | _ => some (⟨hour, minute, second, 0⟩, cs)
  else none

/-- An offset `Z` or `±hh:mm` at the start of a text, if there is one. -/
def readOffset? (cs : List Char) : Option (Option Offset × List Char) :=
  match cs with
  | 'Z' :: rest => some (some .universal, rest)
  | 'z' :: rest => some (some .universal, rest)
  | c :: rest =>
    if c = '+' || c = '-' then do
      let (hour, rest) ← digits? 2 rest
      let rest ← expect? ':' rest
      let (minute, rest) ← digits? 2 rest
      if hour ≤ 23 && minute ≤ 59 then
        let n : Int := hour * 60 + minute
        some (some (.minutes (if c = '-' then -n else n)), rest)
      else none
    else some (none, cs)
  | [] => some (none, [])

/-- What follows a date: a time after `T`, `t` or a blank, or nothing. After a letter, and after a
blank that a time follows, the time and its offset have to be right. -/
def readAfterDate? (d : CalendarDate) (cs : List Char) : Option (DateTime × List Char) :=
  match cs with
  | c :: rest =>
    if c = 'T' || c = 't' || c = ' ' then
      match readTime? 23 rest with
      | some (t, rest) =>
        match readOffset? rest with
        | some (some o, rest) => some (.instant d t o, rest)
        | some (none, rest) => some (.localTime d t, rest)
        | none => none
      | none => some (.date d, cs)
    else some (.date d, cs)
  | [] => some (.date d, [])

/-- A date or time at the start of a text. -/
def read? (cs : List Char) : Option (DateTime × List Char) :=
  match readDate? cs with
  | some (d, rest) => readAfterDate? d rest
  | none => (readTime? 23 cs).map fun (t, rest) => (.time t, rest)

/-! ## Reading from a string

A date or time may also come as a string, where a document cannot write one. A string is read more
leniently than a document: it may say 24 o'clock, and the hours and minutes of an offset are counted
together, up to a whole day. -/

/-- An offset `±hh:mm` that is a whole text. -/
def spelledOffset? (cs : List Char) : Option Offset := do
  let (sign, cs) ← match cs with
    | '+' :: rest => some ((1 : Int), rest)
    | '-' :: rest => some (-1, rest)
    | _ => none
  let (hours, cs) ← digits? 2 cs
  let cs ← expect? ':' cs
  let (minutes, cs) ← digits? 2 cs
  if cs.isEmpty && hours * 60 + minutes ≤ 24 * 60 then
    some (.minutes (sign * (hours * 60 + minutes : Nat)))
  else none

/-- A time with or without an offset that is a whole text, on a date. -/
def spelledOn? (d : CalendarDate) (cs : List Char) : Option DateTime :=
  match readTime? 24 cs with
  | none => none
  | some (t, []) => some (.localTime d t)
  | some (t, ['Z']) => some (.instant d t .universal)
  | some (t, ['z']) => some (.instant d t .universal)
  | some (t, rest) => (spelledOffset? rest).map (.instant d t)

/-- A text that begins with a date, or is one. -/
def spelledDate? (cs : List Char) : Option DateTime :=
  match readDate? cs with
  | none => none
  | some (d, []) => some (.date d)
  | some (d, c :: rest) => if c = 'T' || c = 't' || c = ' ' then spelledOn? d rest else none

/-- The date or time that a whole string spells. -/
def ofText? (s : String) : Option DateTime :=
  match s.toList with
  | a :: b :: ':' :: rest =>
    match readTime? 24 (a :: b :: ':' :: rest) with
    | some (t, []) => some (.time t)
    | _ => none
  | cs => spelledDate? cs

/-! ## Writing -/

/-- A number with zeros before it, up to a width. -/
def padded (width n : Nat) : List Char :=
  let ds := Nat.toDigits 10 n
  List.replicate (width - ds.length) '0' ++ ds

/-- The text of a date. -/
def dateText (d : CalendarDate) : List Char :=
  padded 4 d.year ++ '-' :: padded 2 d.month ++ '-' :: padded 2 d.day

/-- The text of a time. -/
def timeText (t : ClockTime) : List Char :=
  padded 2 t.hour ++ ':' :: padded 2 t.minute ++ ':' :: padded 2 t.second ++
    if t.nanos = 0 then []
    else '.' :: ((padded 9 t.nanos).reverse.dropWhile (· = '0')).reverse

/-- The text of an offset. -/
def offsetText : Offset → List Char
  | .universal => ['Z']
  | .minutes n =>
    (if n < 0 then '-' else '+') :: padded 2 (n.natAbs / 60) ++ ':' :: padded 2 (n.natAbs % 60)

/-- The normal form of a date or time. -/
def text : DateTime → String
  | .date d => String.ofList (dateText d)
  | .time t => String.ofList (timeText t)
  | .localTime d t => String.ofList (dateText d ++ 'T' :: timeText t)
  | .instant d t o => String.ofList (dateText d ++ 'T' :: timeText t ++ offsetText o)

end DateTime

end ControlRig
