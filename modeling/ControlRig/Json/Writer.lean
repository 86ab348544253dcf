import ControlRig.Json.Basic
import ControlRig.Double.Shortest

/-!
# Writing JSON

A value has one compact text (no blank anywhere) and one indented text (a field or item a line, two
blanks a level, a blank after each colon; an empty container stays on its line). In both, a string
escapes the quote, the backslash and the controls below the space and nothing else: the slash, the
delete character and everything beyond ASCII stand for themselves.
-/

namespace ControlRig.Json

/-- One character of a string, escaped if it must be. -/
def escapeChar (c : Char) : List Char :=
  if c = '"' then ['\\', '"']
  else if c = '\\' then ['\\', '\\']
  else if c = '\x08' then ['\\', 'b']
  else if c = '\t' then ['\\', 't']
  else if c = '\n' then ['\\', 'n']
  else if c = '\x0c' then ['\\', 'f']
  else if c = '\r' then ['\\', 'r']
  else if c.toNat < 0x20 then
    ['\\', 'u', '0', '0', Nat.digitChar (c.toNat / 16), Nat.digitChar (c.toNat % 16)]
  else [c]

/-- A string between quotes. -/
def stringText (s : String) : List Char :=
  '"' :: s.toList.flatMap escapeChar ++ ['"']

/-- An integer in decimal. -/
def integerText : Int → List Char
  | .ofNat n => Nat.toDigits 10 n
  | .negSucc n => '-' :: Nat.toDigits 10 (n + 1)

/-- The text of a value that has no parts. -/
def leafText : Json → List Char
  | .null => "null".toList
  | .bool true => "true".toList
  | .bool false => "false".toList
  | .integer n => integerText n
  | .float x => x.text.toList
  | .string s => stringText s
  | .array _ | .object _ => []

mutual

/-- The compact text of a value. -/
def compactText : Json → List Char
  | .array items => '[' :: compactItems items ++ [']']
  | .object fields => '\x7b' :: compactFields fields ++ ['\x7d']
  | leaf => leafText leaf

/-- Items with commas between them. -/
def compactItems : List Json → List Char
  | [] => []
  | [item] => compactText item
  | item :: rest => compactText item ++ ',' :: compactItems rest

/-- Fields with commas between them. -/
def compactFields : List (String × Json) → List Char
  | [] => []
  | [(name, value)] => stringText name ++ ':' :: compactText value
  | (name, value) :: rest =>
    stringText name ++ ':' :: compactText value ++ ',' :: compactFields rest

end

/-- A line break and the indentation of a level. -/
def newLine (level : Nat) : List Char := '\n' :: List.replicate (2 * level) ' '

mutual

/-- The indented text of a value that stands on the given level. -/
def prettyText (level : Nat) : Json → List Char
  | .array [] => ['[', ']']
  | .array (item :: rest) =>
    '[' :: newLine (level + 1) ++ prettyText (level + 1) item ++ prettyItems (level + 1) rest
      ++ newLine level ++ [']']
  | .object [] => ['\x7b', '\x7d']
  | .object ((name, value) :: rest) =>
    '\x7b' :: newLine (level + 1) ++ stringText name ++ ':' :: ' ' :: prettyText (level + 1) value
      ++ prettyFields (level + 1) rest ++ newLine level ++ ['\x7d']
  | leaf => leafText leaf

/-- The items after the first, each after a comma on a line of its own. -/
def prettyItems (level : Nat) : List Json → List Char
  | [] => []
  | item :: rest => ',' :: newLine level ++ prettyText level item ++ prettyItems level rest

/-- The fields after the first, each after a comma on a line of its own. -/
def prettyFields (level : Nat) : List (String × Json) → List Char
  | [] => []
  | (name, value) :: rest =>
    ',' :: newLine level ++ stringText name ++ ':' :: ' ' :: prettyText level value
      ++ prettyFields level rest

end

/-- The compact text of a value. -/
def compact (v : Json) : String := String.ofList v.compactText

/-- The indented text of a value. -/
def pretty (v : Json) : String := String.ofList (v.prettyText 0)

end ControlRig.Json
