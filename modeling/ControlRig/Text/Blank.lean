/-!
# White space

Names are trimmed, and a name of nothing but white space counts as empty. White space is here the
Unicode property White_Space: twenty-five characters, among them the no-break space and the line
separator, but neither the zero-width space nor the byte-order mark.
-/

namespace ControlRig.Text

/-- The characters with the property White_Space. -/
def isBlank (c : Char) : Bool :=
  let n := c.toNat
  (0x09 ≤ n && n ≤ 0x0D) || n = 0x20 || n = 0x85 || n = 0xA0 || n = 0x1680 ||
    (0x2000 ≤ n && n ≤ 0x200A) || n = 0x2028 || n = 0x2029 || n = 0x202F || n = 0x205F || n = 0x3000

/-- Drop the characters at the end that pass a test. -/
def dropEndWhile (p : Char → Bool) (cs : List Char) : List Char :=
  (cs.reverse.dropWhile p).reverse

/-- Drop the characters at both ends that pass a test. -/
def dropEndsWhile (p : Char → Bool) (cs : List Char) : List Char :=
  dropEndWhile p (cs.dropWhile p)

/-- A text without the white space at its ends. -/
def trim (s : String) : String :=
  String.ofList (dropEndsWhile isBlank s.toList)

/-- Whether a text is empty or all white space. -/
def isAllBlank (s : String) : Bool := s.toList.all isBlank

end ControlRig.Text
