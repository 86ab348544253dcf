import ControlRig.Toml.Scalar

/-!
# Reading a document

A document is a list of lines of three kinds: a header in single brackets, a header in double
brackets, a key with its value; blank lines and comments apart. `readLines` finds them, `build`
makes the tree: each header moves the place where the keys that follow it are put.

Arrays and tables between braces nest at most seventy-nine deep, and a key has fewer than eighty
names; a document beyond that is refused.
-/

namespace ControlRig.Toml

/-! ## Keys -/

/-- Whether a character may stand in a key without quotes. -/
def isKeyChar (c : Char) : Bool :=
  ('a' ≤ c && c ≤ 'z') || ('A' ≤ c && c ≤ 'Z') || c.isDigit || c = '_' || c = '-'

/-- One name of a key. -/
def readName? : Reader String
  | '"' :: cs => readLine? '"' readQuotedChar? cs
  | '\'' :: cs => readLine? '\'' readLiteralChar? cs
  | cs =>
    let run := cs.takeWhile isKeyChar
    if run.isEmpty then none else some (String.ofList run, cs.dropWhile isKeyChar)

/-- One name of a key with the blanks around it. -/
def readPaddedName? (cs : List Char) : Option (String × List Char) :=
  (readName? (dropBlanks cs)).map fun (name, rest) => (name, dropBlanks rest)

/-- A dot and the name after it. -/
def readDottedName? : Reader String
  | '.' :: cs => readPaddedName? cs
  | _ => none

/-- The number of names and levels from which on a document is refused. -/
def limit : Nat := 80

/-- A key: names with dots between them. -/
def readKey? (cs : List Char) : Option (List String × List Char) :=
  match readPaddedName? cs with
  | none => none
  | some (name, rest) =>
    let (more, rest) := many readDottedName? rest
    if more.length + 1 < limit then some (name :: more, rest) else none

/-! ## Values -/

/-- Drop a comment up to the end of its line. -/
def dropComment (cs : List Char) : List Char :=
  match cs with
  | '#' :: rest => rest.dropWhile isPlain
  | _ => cs

/-- Drop blanks, comments and line breaks, as between the items of an array. A comment has to end
with its line. -/
def dropFiller (cs : List Char) : List Char :=
  (many (fun cs => match cs with
    | '#' :: rest => (dropNewline? (rest.dropWhile isPlain)).map ((), ·)
    | c :: rest => if isInlineBlank c then some ((), rest) else (dropNewline? cs).map ((), ·)
    | [] => none) cs).2

/-- The items of an array, after its opening bracket or a comma; at most so many. -/
def readItems? (item : Reader Node) : Nat → List Char → Option (List Node × List Char)
  | 0, _ => none
  | n + 1, cs =>
    match dropFiller cs with
    | ']' :: rest => some ([], rest)
    | start =>
      match item start with
      | none => none
      | some (first, rest) =>
        match dropFiller rest with
        | ']' :: rest => some ([first], rest)
        | ',' :: rest => (readItems? item n rest).map fun (more, rest) => (first :: more, rest)
        | _ => none

/-- An array, after its opening bracket. Each item takes a character, which bounds their number. -/
def readArray? (item : Reader Node) (cs : List Char) : Option (Node × List Char) :=
  (readItems? item (cs.length + 1) cs).map fun (items, rest) => (.array items, rest)

/-- A key, the equals sign and a value. -/
def readField? (value : Reader Node) (cs : List Char) :
    Option ((List String × Node) × List Char) :=
  match readKey? cs with
  | some (key, '=' :: rest) =>
    (value (dropBlanks rest)).map fun (node, rest) => ((key, node), rest)
  | _ => none

/-- The fields between braces: at least one, and at most so many. -/
def readFields? (value : Reader Node) :
    Nat → List Char → Option (List (List String × Node) × List Char)
  | 0, _ => none
  | n + 1, cs =>
    match readField? value cs with
    | none => none
    | some (field, rest) =>
      match dropBlanks rest with
      | '\x7d' :: rest => some ([field], rest)
      | ',' :: rest => (readFields? value n rest).map fun (more, rest) => (field :: more, rest)
      | _ => none

/-- A table between braces, after the opening one. Each field takes a character, which bounds their
number. -/
def readInline? (value : Reader Node) (cs : List Char) : Option (Node × List Char) :=
  match dropBlanks cs with
  | '\x7d' :: rest => some (.inlineTable .stated [], rest)
  | start => do
    let (fields, rest) ← readFields? value start.length start
    let table ← inlineOf? fields
    some (table, rest)

/-- A value without parts. -/
def readScalar? (cs : List Char) : Option (Node × List Char) :=
  match cs with
  | '"' :: _ => (readString? cs).map fun (s, rest) => (.string s, rest)
  | '\'' :: _ => (readString? cs).map fun (s, rest) => (.string s, rest)
  | 't' :: _ => (dropText? "true".toList cs).map fun rest => (.boolean true, rest)
  | 'f' :: _ => (dropText? "false".toList cs).map fun rest => (.boolean false, rest)
  | _ => readNumber? cs

/-- A value with at most so many levels of arrays and braces. -/
def readValue? : Nat → Reader Node
  | 0, cs => readScalar? cs
  | levels + 1, cs =>
    match cs with
    | '[' :: rest => readArray? (readValue? levels) rest
    | '\x7b' :: rest => readInline? (readValue? levels) rest
    | _ => readScalar? cs

/-! ## Lines -/

/-- A line of a document that says something. -/
inductive Line where
  | header (key : List String)
  | itemHeader (key : List String)
  | field (key : List String) (node : Node)

/-- What may follow on a line: blanks, a comment, and the line break or the end. -/
def endOfLine? (cs : List Char) : Option (List Char) :=
  match dropComment (dropBlanks cs) with
  | [] => some []
  | rest => dropNewline? rest

/-- The rest of a line that starts with a bracket. -/
def readHeader? : Reader Line
  | '[' :: cs =>
    match readKey? cs with
    | some (key, ']' :: ']' :: rest) => (endOfLine? rest).map (.itemHeader key, ·)
    | _ => none
  | cs =>
    match readKey? cs with
    | some (key, ']' :: rest) => (endOfLine? rest).map (.header key, ·)
    | _ => none

/-- One line, or nothing where a line is blank or holds only a comment. -/
def readLineOf? (cs : List Char) : Option (Option Line × List Char) :=
  match cs with
  | '[' :: rest => (readHeader? rest).map fun (line, rest) => (some line, rest)
  | c :: _ =>
    if c = '#' || c = '\n' || c = '\r' then (endOfLine? cs).map (none, ·)
    else do
      let ((key, node), rest) ← readField? (readValue? (limit - 1)) cs
      let rest ← endOfLine? rest
      some (some (.field key node), rest)
  | [] => none

/-- The lines of a text, all of which has to be used. -/
def readAll? (text : List Char) : Option (List Line) :=
  match many (fun cs => readLineOf? (dropBlanks cs)) text with
  | (lines, rest) => if (dropBlanks rest).isEmpty then some (lines.filterMap id) else none

/-! ## The tree -/

/-- A tree that is being built, and the header under which the next keys go. -/
structure Draft where
  root : Place
  header : List String

/-- Add a line. -/
def Draft.add (draft : Draft) : Line → Option Draft
  | .header key => (openTable stateTable key draft.root).map fun root => ⟨root, key⟩
  | .itemHeader key => (openTable addTable key draft.root).map fun root => ⟨root, key⟩
  | .field key node =>
    (descend .implied (assign key node) draft.header draft.root).map fun root =>
      ⟨root, draft.header⟩

/-- The fields of a document made of lines. -/
def build? (lines : List Line) : Option Fields :=
  (lines.foldlM Draft.add ⟨⟨.stated, []⟩, []⟩).map fun draft => draft.root.fields

/-- A byte-order mark at the start, dropped. -/
def dropMark : List Char → List Char
  | '\uFEFF' :: cs => cs
  | cs => cs

/-- The fields of a document; nothing if the text is none. -/
def parse? (text : String) : Option Fields :=
  match readAll? (dropMark text.toList) with
  | some lines => build? lines
  | none => none

end ControlRig.Toml
