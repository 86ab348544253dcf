/-!
# The words of a command line

Options come before or between the other words, each as `--name`, as `--name value` or
`--name=value` if it takes a value, or as one of several letters after a single dash. After `--`
every word stands for itself. A value is the next word whatever it is, unless it begins with a dash.

The words are read from left to right and the first thing that is wrong ends the reading, as does an
option that asks to be answered at once, such as a question for the version.
-/

namespace ControlRig.CommandLine

/-- What an option does. -/
inductive OptionKind where
  /-- It is there or not. -/
  | flag
  /-- It takes a value, which has to be one of those accepted. -/
  | value (accepts : String → Bool)
  /-- It is answered at once, and nothing else is done. -/
  | question

/-- An option: its name after two dashes, and its letter after one dash if it has one. Only options
without a value have letters. -/
structure OptionSpec where
  name : String
  letter : Option Char
  kind : OptionKind

/-- Why words are not acted upon. -/
inductive Stop where
  /-- The words are not understood. -/
  | usage
  /-- One of the words asks for something to be told. -/
  | question (name : String)
  deriving DecidableEq, Repr

/-- The options that have been read, with their values; a flag has an empty one. -/
abbrev Given := List (String × String)

/-- The value of an option. -/
def Given.value? (given : Given) (name : String) : Option String :=
  (given.find? (·.1 = name)).map (·.2)

/-- Whether an option is given. -/
def Given.has (given : Given) (name : String) : Bool := (given.value? name).isSome

/-- What a word is, by its beginning. -/
inductive Word where
  /-- A name after two dashes, and a value after an equals sign. -/
  | long (name : String) (value : Option String)
  | letters (letters : List Char)
  /-- The two dashes after which every word stands for itself. -/
  | dashes
  | plain
  deriving DecidableEq, Repr

/-- The name before the first equals sign, and the value after it. -/
def splitValue (cs : List Char) : Word :=
  let name := String.ofList (cs.takeWhile (· ≠ '='))
  match cs.dropWhile (· ≠ '=') with
  | [] => .long name none
  | _ :: value => .long name (some (String.ofList value))

/-- What a word is. A single dash stands for itself. -/
def Word.of (word : String) : Word :=
  match word.toList with
  | ['-', '-'] => .dashes
  | '-' :: '-' :: cs => splitValue cs
  | '-' :: c :: cs => .letters (c :: cs)
  | _ => .plain

/-- Take note of an option, unless it has been given before or its value is not accepted. -/
def take (given : Given) (spec : OptionSpec) (value : Option String) : Except Stop Given :=
  match spec.kind, value with
  | .flag, none => if given.has spec.name then .error .usage else .ok ((spec.name, "") :: given)
  | .question, none => .error (.question spec.name)
  | .value accepts, some text =>
    if given.has spec.name || !accepts text then .error .usage
    else .ok ((spec.name, text) :: given)
  | _, _ => .error .usage

/-- Take note of options by their letters. -/
def takeLetters (specs : List OptionSpec) (given : Given) : List Char → Except Stop Given
  | [] => .ok given
  | c :: cs =>
    match specs.find? (·.letter = some c) with
    | none => .error .usage
    | some spec => do takeLetters specs (← take given spec none) cs

/-- The value that is the next word, if that can be a value. -/
def nextValue? : List String → Option (String × List String)
  | [] => none
  | word :: rest => if Word.of word = .plain then some (word, rest) else none

theorem nextValue?_length {words rest : List String} {value : String}
    (h : nextValue? words = some (value, rest)) : rest.length < words.length := by
  cases words with
  | nil => simp [nextValue?] at h
  | cons word more =>
    simp only [nextValue?] at h
    split at h <;> simp at h
    simp [h.2]

/-- Whether an option takes a value. -/
def OptionKind.takesValue : OptionKind → Bool
  | .value _ => true
  | _ => false

/-- Read options until the words that stand for themselves begin: those, and whether two dashes came
before them. -/
def options (specs : List OptionSpec) (given : Given) (words : List String) :
    Except Stop (Given × Bool × List String) :=
  match words with
  | [] => .ok (given, false, [])
  | word :: rest =>
    match Word.of word with
    | .plain => .ok (given, false, word :: rest)
    | .dashes => .ok (given, true, rest)
    | .letters letters =>
      match takeLetters specs given letters with
      | .error e => .error e
      | .ok given => options specs given rest
    | .long name value =>
      match specs.find? (·.name = name) with
      | none => .error .usage
      | some spec =>
        if spec.kind.takesValue && value.isNone then
          match _found : nextValue? rest with
          | none => .error .usage
          | some (value, rest') =>
            match take given spec (some value) with
            | .error e => .error e
            | .ok given => options specs given rest'
        else
          match take given spec value with
          | .error e => .error e
          | .ok given => options specs given rest
termination_by words.length
decreasing_by
  · simp
  · have := nextValue?_length _found; simp; omega
  · simp

/-- Read options and at most so many words between them. -/
def wordsBetween (specs : List OptionSpec) (given : Given) (words : List String) :
    Nat → Except Stop (Given × List String)
  | 0 => do
    match ← options specs given words with
    | (given, _, []) => .ok (given, [])
    | _ => .error .usage
  | most + 1 => do
    match ← options specs given words with
    | (given, false, word :: rest) =>
      let (given, more) ← wordsBetween specs given rest most
      .ok (given, word :: more)
    | (given, _, rest) => if rest.length ≤ most + 1 then .ok (given, rest) else .error .usage

/-! ## Numbers -/

/-- A number below a bound, in decimal digits; a plus sign may come first. -/
def numberBelow? (bound : Nat) (text : String) : Option Nat :=
  let digits := match text.toList with
    | '+' :: cs => cs
    | cs => cs
  if digits.isEmpty || !digits.all Char.isDigit then none
  else
    let n := digits.foldl (fun n c => n * 10 + (c.toNat - '0'.toNat)) 0
    if n < bound then some n else none

end ControlRig.CommandLine
