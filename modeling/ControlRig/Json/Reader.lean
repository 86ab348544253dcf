import ControlRig.Json.Token

/-!
# Reading JSON

The second step of reading: the words of a text are put together by a machine with a stack. The
stack holds the containers that are still open, innermost first; beside it stands what may come
next. Each word is one step, so that the whole is a fold over the words.

A text nests at most 127 deep. That is a limit of the format as it is read here, not of memory: one
container more and the text is refused.
-/

namespace ControlRig.Json

/-- A container that is still open, with its parts so far, last first. -/
inductive Frame where
  | array (items : List Json)
  /-- The name is that of the field whose value is being read. -/
  | object (fields : List (String × Json)) (name : String)

/-- What may come next. -/
inductive Expect where
  /-- A value. -/
  | value
  /-- A value, or the end of an array that has no item yet. -/
  | valueOrClose
  /-- A comma or the end of the innermost container. -/
  | separator
  /-- A field's name. -/
  | name
  /-- A field's name, or the end of an object that has no field yet. -/
  | nameOrClose
  /-- The colon after a field's name. -/
  | colon
  /-- Nothing more: the value is complete. -/
  | nothing (result : Json)

/-- The machine between two words. -/
structure Reading where
  stack : List Frame
  expect : Expect

/-- The deepest nesting of containers. -/
def maxDepth : Nat := 127

/-- A complete value takes its place in the innermost container. -/
def Reading.deliver (value : Json) : List Frame → Reading
  | [] => ⟨[], .nothing value⟩
  | .array items :: below => ⟨.array (value :: items) :: below, .separator⟩
  | .object fields name :: below => ⟨.object ((name, value) :: fields) name :: below, .separator⟩

/-- Open a container, if the nesting allows. -/
def Reading.enter (frame : Frame) (expect : Expect) (stack : List Frame) : Option Reading :=
  if stack.length < maxDepth then some ⟨frame :: stack, expect⟩ else none

/-- Close the innermost container. -/
def Reading.leave : List Frame → Option Reading
  | .array items :: below => some (deliver (.array items.reverse) below)
  | .object fields _ :: below => some (deliver (.object fields.reverse) below)
  | [] => none

/-- Begin a value with a word. -/
def Reading.begin (stack : List Frame) : Token → Option Reading
  | .scalar value => some (deliver value stack)
  | .openArray => enter (.array []) .valueOrClose stack
  | .openObject => enter (.object [] "") .nameOrClose stack
  | _ => none

/-- Set the name of the next field. -/
def Reading.setName (name : String) : List Frame → Option Reading
  | .object fields _ :: below => some ⟨.object fields name :: below, .colon⟩
  | _ => none

/-- One word further. -/
def Reading.step (r : Reading) (token : Token) : Option Reading :=
  match r.expect, token with
  | .value, token => begin r.stack token
  | .valueOrClose, .closeArray => leave r.stack
  | .valueOrClose, token => begin r.stack token
  | .separator, .comma =>
    match r.stack with
    | .array _ :: _ => some { r with expect := .value }
    | .object _ _ :: _ => some { r with expect := .name }
    | [] => none
  | .separator, .closeArray =>
    match r.stack with
    | .array _ :: _ => leave r.stack
    | _ => none
  | .separator, .closeObject =>
    match r.stack with
    | .object _ _ :: _ => leave r.stack
    | _ => none
  | .name, .scalar (.string name) => setName name r.stack
  | .nameOrClose, .scalar (.string name) => setName name r.stack
  | .nameOrClose, .closeObject => leave r.stack
  | .colon, .colon => some { r with expect := .value }
  | _, _ => none

/-- Run the machine over words. -/
def Reading.run (r : Reading) : List Token → Option Reading
  | [] => some r
  | token :: rest =>
    match r.step token with
    | some next => next.run rest
    | none => none

/-- The value of a list of words, all of which it uses. -/
def ofTokens? (tokens : List Token) : Option Json :=
  match Reading.run ⟨[], .value⟩ tokens with
  | some ⟨[], .nothing value⟩ => some value
  | _ => none

/-- The value of a text; nothing if it is no JSON. -/
def parse? (text : String) : Option Json :=
  match scan text.toList with
  | some tokens => ofTokens? tokens
  | none => none

end ControlRig.Json
