import ControlRig.NameSet
import ControlRig.Text.Hidden

/-!
# Quoted text

Messages that name a piece of foreign text put it between double quotes, so that its ends can be
seen. Inside, a quote and a backslash are written after a backslash, the usual control characters
by their letter, and every other hidden character by its number in hexadecimal between braces. The
single quote stands for itself.
-/

namespace ControlRig.Text

/-- A number in hexadecimal, in lower case and without leading zeros. -/
def hexText (n : Nat) : List Char := Nat.toDigits 16 n

/-- The quoted form of one character. -/
def quoteChar (c : Char) : List Char :=
  if c = '"' then ['\\', '"']
  else if c = '\\' then ['\\', '\\']
  else if c = '\x00' then ['\\', '0']
  else if c = '\t' then ['\\', 't']
  else if c = '\n' then ['\\', 'n']
  else if c = '\r' then ['\\', 'r']
  else if isHidden c then ['\\', 'u', '\x7b'] ++ hexText c.toNat ++ ['\x7d']
  else [c]

/-- A text between double quotes. -/
def quoted (s : String) : String :=
  String.ofList ('"' :: s.toList.flatMap quoteChar ++ ['"'])

/-- A set of names between braces, each quoted. -/
def quotedSet (s : NameSet) : String :=
  "\x7b" ++ ", ".intercalate (s.names.map quoted) ++ "\x7d"

end ControlRig.Text
