import ControlRig.Toml.Node

/-!
# Scalars and strings of a document

Each reader takes the characters from some place on and gives a value with the characters after it,
or refuses. Numbers may hold single underscores between digits; no integer but zero starts with a
zero; an integer fits 64 bits with its sign; a floating-point number that would round to positive
infinity is refused.
-/

namespace ControlRig.Toml

/-- A reader: the value at the start of a text, and what follows it. -/
abbrev Reader (α : Type) := List Char → Option (α × List Char)

/-- Apply a reader as long as it succeeds, at most so often. -/
def manyUpTo {α : Type} (read : Reader α) : Nat → List Char → List α × List Char
  | 0, cs => ([], cs)
  | n + 1, cs =>
    match read cs with
    | none => ([], cs)
    | some (a, rest) =>
      let (more, rest) := manyUpTo read n rest
      (a :: more, rest)

/-- Apply a reader as long as it succeeds. It uses at least one character each time, so the number
of characters bounds how often. -/
def many {α : Type} (read : Reader α) (cs : List Char) : List α × List Char :=
  manyUpTo read cs.length cs

/-- A given text at the start, dropped. -/
def dropText? : List Char → List Char → Option (List Char)
  | [], cs => some cs
  | c :: text, d :: rest => if c = d then dropText? text rest else none
  | _ :: _, [] => none

/-! ## Numbers -/

/-- Digits with single underscores between them, from the longest run of digits and underscores. -/
def digitRun? (isDigit : Char → Bool) (cs : List Char) : Option (List Char × List Char) :=
  let run := cs.takeWhile (fun c => isDigit c || c = '_')
  let rest := cs.dropWhile (fun c => isDigit c || c = '_')
  let lonely := (run.zip (run.drop 1)).any (fun (a, b) => a = '_' && b = '_')
  if run.isEmpty || run.head? = some '_' || run.getLast? = some '_' || lonely then none
  else some (run.filter (· ≠ '_'), rest)

/-- The value of a hexadecimal digit; other characters count as zero. -/
def hexDigitValue (c : Char) : Nat :=
  if c.isDigit then c.toNat - 48
  else if 'a' ≤ c && c ≤ 'f' then c.toNat - 87
  else if 'A' ≤ c && c ≤ 'F' then c.toNat - 55
  else 0

/-- Whether a character is a hexadecimal digit. -/
def isHexDigit (c : Char) : Bool :=
  c.isDigit || ('a' ≤ c && c ≤ 'f') || ('A' ≤ c && c ≤ 'F')

/-- The number that digits spell in a base. -/
def numberIn (base : Nat) (ds : List Char) : Nat :=
  ds.foldl (fun n c => n * base + hexDigitValue c) 0

/-- An integer of 64 bits with its sign. -/
def boundedInteger? (n : Int) : Option Node :=
  if -0x8000000000000000 ≤ n && n ≤ 0x7fffffffffffffff then some (.integer n) else none

/-- An unsigned integer in another base, after its two-character mark. -/
def basedInteger? (base : Nat) (isDigit : Char → Bool) : Reader Node := fun cs => do
  let (ds, rest) ← digitRun? isDigit cs
  let n ← boundedInteger? (numberIn base ds)
  some (n, rest)

/-- A finite floating-point number from its parts; positive infinity is refused. -/
def decimalFloat? (negative : Bool) (whole fraction : List Char) (exponent : Int) : Option Node :=
  let x := Double.ofDecimal negative (Nat.ofDigitChars 10 (whole ++ fraction) 0)
    (exponent - fraction.length)
  if x.isInfinite && !negative then none else some (.float x)

/-- The exponent part after its letter. -/
def readExponent? : Reader Int
  | '-' :: cs =>
    (digitRun? Char.isDigit cs).map fun (ds, rest) => (-(Nat.ofDigitChars 10 ds 0), rest)
  | '+' :: cs => (digitRun? Char.isDigit cs).map fun (ds, rest) => (Nat.ofDigitChars 10 ds 0, rest)
  | cs => (digitRun? Char.isDigit cs).map fun (ds, rest) => (Nat.ofDigitChars 10 ds 0, rest)

/-- What may follow the whole digits of a decimal number: a fraction, an exponent, both, or nothing
of it, when the number is an integer. -/
def readAfterWhole? (negative : Bool) (whole : List Char) : Reader Node
  | '.' :: cs =>
    match digitRun? Char.isDigit cs with
    | none => none
    | some (fraction, cs) =>
      match cs with
      | e :: rest =>
        if e = 'e' || e = 'E' then do
          let (exponent, rest) ← readExponent? rest
          let x ← decimalFloat? negative whole fraction exponent
          some (x, rest)
        else (decimalFloat? negative whole fraction 0).map fun x => (x, cs)
      | [] => (decimalFloat? negative whole fraction 0).map fun x => (x, [])
  | e :: rest =>
    if e = 'e' || e = 'E' then do
      let (exponent, rest) ← readExponent? rest
      let x ← decimalFloat? negative whole [] exponent
      some (x, rest)
    else
      let n : Int := Nat.ofDigitChars 10 whole 0
      (boundedInteger? (if negative then -n else n)).map fun v => (v, e :: rest)
  | [] =>
    let n : Int := Nat.ofDigitChars 10 whole 0
    (boundedInteger? (if negative then -n else n)).map fun v => (v, [])

/-- A decimal number, `inf` or `nan`, after its sign. -/
def readUnsigned? (negative : Bool) (cs : List Char) : Option (Node × List Char) :=
  match dropText? "inf".toList cs, dropText? "nan".toList cs with
  | some rest, _ => some (.float (.infinity negative), rest)
  | _, some rest => some (.float (.nan negative), rest)
  | none, none => do
    let (whole, rest) ← digitRun? Char.isDigit cs
    if 1 < whole.length && whole.head? = some '0' then none
    else readAfterWhole? negative whole rest

/-- A number, date or time. -/
def readNumber? : Reader Node
  | '+' :: cs => readUnsigned? false cs
  | '-' :: cs => readUnsigned? true cs
  | '0' :: 'x' :: cs => basedInteger? 16 isHexDigit cs
  | '0' :: 'o' :: cs => basedInteger? 8 (fun c => '0' ≤ c && c ≤ '7') cs
  | '0' :: 'b' :: cs => basedInteger? 2 (fun c => c = '0' || c = '1') cs
  | cs =>
    match DateTime.read? cs with
    | some (d, rest) => some (.datetime d, rest)
    | none => readUnsigned? false cs

/-! ## Strings -/

/-- Whether a character may stand in a comment, and, quotes and backslashes apart, in a string: a
tab, and everything that is no control of the ASCII range. -/
def isPlain (c : Char) : Bool :=
  c = '\t' || (0x20 ≤ c.toNat && c.toNat ≠ 0x7F)

/-- A character given by the number that hexadecimal digits spell. -/
def readCharacter? (width : Nat) (cs : List Char) : Option (Char × List Char) :=
  let ds := cs.take width
  let n := numberIn 16 ds
  if ds.length = width && ds.all isHexDigit && (n < 0xD800 || (0xDFFF < n && n < 0x110000)) then
    some (Char.ofNat n, cs.drop width)
  else none

/-- What a backslash introduces, after it. -/
def readEscape? : Reader Char
  | 'b' :: cs => some ('\x08', cs)
  | 't' :: cs => some ('\t', cs)
  | 'n' :: cs => some ('\n', cs)
  | 'f' :: cs => some ('\x0c', cs)
  | 'r' :: cs => some ('\r', cs)
  | '"' :: cs => some ('"', cs)
  | '\\' :: cs => some ('\\', cs)
  | 'u' :: cs => readCharacter? 4 cs
  | 'U' :: cs => readCharacter? 8 cs
  | _ => none

/-- One character of a string between double quotes. -/
def readQuotedChar? : Reader Char
  | '\\' :: cs => readEscape? cs
  | c :: cs => if c ≠ '"' && isPlain c then some (c, cs) else none
  | [] => none

/-- One character of a string between single quotes. -/
def readLiteralChar? : Reader Char
  | c :: cs => if c ≠ '\'' && isPlain c then some (c, cs) else none
  | [] => none

/-- The rest of a string on one line, up to its closing quote. -/
def readLine? (quote : Char) (readChar : Reader Char) (cs : List Char) :
    Option (String × List Char) :=
  match many readChar cs with
  | (chars, c :: rest) => if c = quote then some (String.ofList chars, rest) else none
  | (_, []) => none

/-- A line break, dropped. -/
def dropNewline? : List Char → Option (List Char)
  | '\n' :: cs => some cs
  | '\r' :: '\n' :: cs => some cs
  | _ => none

/-- Whether a character is a blank of the format: a space or a tab. -/
def isInlineBlank (c : Char) : Bool := c = ' ' || c = '\t'

/-- Drop spaces and tabs. -/
def dropBlanks (cs : List Char) : List Char := cs.dropWhile isInlineBlank

/-- A line break in a string of several lines; it counts as one character. -/
def readBreak? (cs : List Char) : Option (List Char × List Char) :=
  (dropNewline? cs).map fun rest => (['\n'], rest)

/-- One or two quotes that do not close a string of several lines. -/
def readInnerQuotes? (quote : Char) (cs : List Char) : Option (List Char × List Char) :=
  let run := cs.takeWhile (· = quote)
  if 1 ≤ run.length && run.length ≤ 2 then some (run, cs.drop run.length) else none

/-- After a backslash at the end of a line: that break, and every blank and break behind it. -/
def dropContinuation? (cs : List Char) : Option (List Char) :=
  (dropNewline? (dropBlanks cs)).map fun rest =>
    (many (fun cs => match cs with
      | c :: rest => if isInlineBlank c then some ((), rest) else (dropNewline? cs).map ((), ·)
      | [] => none) rest).2

/-- A piece of a string between triple double quotes. -/
def readTextPiece? (cs : List Char) : Option (List Char × List Char) :=
  match cs with
  | '\\' :: rest =>
    match dropContinuation? rest with
    | some rest => some ([], rest)
    | none => (readEscape? rest).map fun (c, rest) => ([c], rest)
  | '"' :: _ => readInnerQuotes? '"' cs
  | c :: rest => if isPlain c then some ([c], rest) else readBreak? cs
  | [] => none

/-- A piece of a string between triple single quotes. -/
def readRawPiece? (cs : List Char) : Option (List Char × List Char) :=
  match cs with
  | '\'' :: _ => readInnerQuotes? '\'' cs
  | c :: rest => if isPlain c then some ([c], rest) else readBreak? cs
  | [] => none

/-- The rest of a string of several lines, after its three opening quotes. A break right behind
those is dropped; of a closing run of up to five quotes the last three close. -/
def readLines? (quote : Char) (readPiece : Reader (List Char)) (cs : List Char) :
    Option (String × List Char) :=
  let (pieces, rest) := many readPiece ((dropNewline? cs).getD cs)
  let run := min (rest.takeWhile (· = quote)).length 5
  if 3 ≤ run then
    some (String.ofList (pieces.flatten ++ List.replicate (run - 3) quote), rest.drop run)
  else none

/-- A string in any of its four forms. -/
def readString? : Reader String
  | '"' :: '"' :: '"' :: cs => readLines? '"' readTextPiece? cs
  | '\'' :: '\'' :: '\'' :: cs => readLines? '\'' readRawPiece? cs
  | '"' :: cs => readLine? '"' readQuotedChar? cs
  | '\'' :: cs => readLine? '\'' readLiteralChar? cs
  | _ => none

end ControlRig.Toml
