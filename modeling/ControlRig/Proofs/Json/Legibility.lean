import ControlRig.Json.Reader
import ControlRig.Json.Writer
import Mathlib.Data.List.TakeWhile
import Mathlib.Tactic.IntervalCases

/-!
# What is written is read

A value is legible if nothing in it is a floating-point number, its integers fit a word, and it does
not nest too deep (`Json.Legible`). **The compact text of a legible value reads as that value**
(`Json.parse?_compact`). The requests and replies of the daemon are all legible; that is for
`ControlRig.Proofs.Service.Wire` to say.

Reading has two layers, and so has the proof. The scanner takes the text apart into words: since it
ends a number or a literal only at the next character, what a text spells depends on what follows
(`Json.Spells`, `Json.Ends`). The machine with the stack puts the words together again, and does so
from any stack that has room (`Json.run_tokens`). Each layer is one recursion on the value, items
and fields being cases of their own.
-/

namespace ControlRig.Json

/-! ## Legible values -/

mutual

/-- A value that can be read back where so many more containers can be opened. -/
def Legible (room : Nat) : Json → Prop
  | .null => True
  | .bool _ => True
  | .string _ => True
  | .integer n => -0x8000000000000000 ≤ n ∧ n ≤ maxWord
  | .float _ => False
  | .array items => 0 < room ∧ LegibleItems (room - 1) items
  | .object fields => 0 < room ∧ LegibleFields (room - 1) fields

/-- Items that can be read back. -/
def LegibleItems (room : Nat) : List Json → Prop
  | [] => True
  | item :: rest => Legible room item ∧ LegibleItems room rest

/-- Fields that can be read back. -/
def LegibleFields (room : Nat) : List (String × Json) → Prop
  | [] => True
  | (_, value) :: rest => Legible room value ∧ LegibleFields room rest

end

theorem legibleItems_map {α : Type} {room : Nat} {f : α → Json} (h : ∀ a, Legible room (f a))
    (values : List α) : LegibleItems room (values.map f) := by
  induction values with
  | nil => simp [LegibleItems]
  | cons a rest ih => exact ⟨h a, ih⟩

/-! ## The digits of a number -/

theorem le_ofDigitChars (init : Nat) (ds : List Char) : init ≤ Nat.ofDigitChars 10 ds init := by
  rw [Nat.ofDigitChars_eq_ofDigitChars_zero]
  have hpos : 0 < 10 ^ ds.length := Nat.pow_pos (by decide)
  have hle := Nat.le_mul_of_pos_left init hpos
  omega

/-- Digits of a number that fits a word are all taken. -/
theorem takeDigits_eq {ds : List Char} {number : Nat}
    (h : Nat.ofDigitChars 10 ds number ≤ maxWord) :
    takeDigits number ds = (Nat.ofDigitChars 10 ds number, 0) := by
  induction ds generalizing number with
  | nil => simp [takeDigits]
  | cons c rest ih =>
    rw [Nat.ofDigitChars_cons, Nat.mul_comm] at h ⊢
    have hfits : number * 10 + (c.toNat - 48) ≤ maxWord := Nat.le_trans (le_ofDigitChars _ _) h
    rw [takeDigits, if_pos hfits]
    exact ih h

theorem head?_toDigits {n : Nat} (h : 0 < n) : (Nat.toDigits 10 n).head? ≠ some '0' := by
  induction n using Nat.strong_induction_on with
  | _ n ih =>
    by_cases hsmall : n < 10
    · rw [Nat.toDigits_of_lt_base hsmall]
      interval_cases n <;> decide
    · -- a longer number begins as its quotient does
      have hquotient : 0 < n / 10 := by omega
      rw [Nat.toDigits_of_base_le (by decide) (by omega), List.head?_append]
      obtain ⟨c, hc⟩ := Option.isSome_iff_exists.1
        (List.isSome_head?.2 (Nat.toDigits_ne_nil (n := n / 10) (b := 10)))
      rw [hc, Option.some_or, ← hc]
      exact ih (n / 10) (by omega) hquotient

theorem toDigits_isDigit {n : Nat} {c : Char} (h : c ∈ Nat.toDigits 10 n) : c.isDigit = true :=
  Nat.isDigit_of_mem_toDigits (by decide) (by decide) h

/-- The digits of a number are read as an integer. -/
theorem unsignedValue?_toDigits (negative : Bool) (n : Nat) :
    unsignedValue? negative (Nat.toDigits 10 n) = integerValue? negative (Nat.toDigits 10 n) := by
  have hall : ∀ c ∈ Nat.toDigits 10 n, Char.isDigit c = true := fun _ hc => toDigits_isDigit hc
  have hempty : (Nat.toDigits 10 n).isEmpty = false := by
    rw [List.isEmpty_eq_false_iff]
    exact Nat.toDigits_ne_nil
  have hleading : ¬ ((Nat.toDigits 10 n).length > 1 ∧ (Nat.toDigits 10 n).head? = some '0') := by
    rintro ⟨hlong, hzero⟩
    have hn : n = 0 := by
      by_contra hne
      exact head?_toDigits (Nat.pos_of_ne_zero hne) hzero
    subst hn
    simp at hlong
  unfold unsignedValue?
  rw [List.takeWhile_eq_self_iff.2 hall, List.dropWhile_eq_nil_iff.2 hall]
  simp [hempty, hleading]

theorem integerValue?_toDigits {n : Nat} (h : n ≤ maxWord) :
    integerValue? false (Nat.toDigits 10 n) = some (.integer n) := by
  have htaken : takeDigits 0 (Nat.toDigits 10 n) = (n, 0) := by
    rw [takeDigits_eq] <;> simp [h]
  simp [integerValue?, htaken]

theorem integerValue?_negative {n : Nat} (hpos : 0 < n) (h : n ≤ 0x8000000000000000) :
    integerValue? true (Nat.toDigits 10 n) = some (.integer (-n)) := by
  have hword : n ≤ maxWord := Nat.le_trans h (by decide)
  have htaken : takeDigits 0 (Nat.toDigits 10 n) = (n, 0) := by
    rw [takeDigits_eq] <;> simp [hword]
  simp [integerValue?, htaken, hpos, h]

theorem isWordChar_of_isDigit {c : Char} (h : c.isDigit = true) : isWordChar c = true := by
  simp [isWordChar, Char.isAlphanum, h]

/-- What begins with a digit is no literal and has no sign. -/
theorem wordValue?_toDigits (n : Nat) :
    wordValue? (Nat.toDigits 10 n) = unsignedValue? false (Nat.toDigits 10 n) := by
  have hall : ∀ c ∈ Nat.toDigits 10 n, Char.isDigit c = true := fun _ hc => toDigits_isDigit hc
  generalize Nat.toDigits 10 n = ds at hall ⊢
  unfold wordValue?
  split
  · exact absurd (hall 'n' (by simp)) (by decide)
  · exact absurd (hall 't' (by simp)) (by decide)
  · exact absurd (hall 'f' (by simp)) (by decide)
  · exact absurd (hall '-' (by simp)) (by decide)
  · rfl

/-- The text of an integer reads as the integer. -/
theorem wordValue?_integerText {n : Int} (hlow : -0x8000000000000000 ≤ n) (hhigh : n ≤ maxWord) :
    wordValue? (integerText n) = some (.integer n) := by
  cases n with
  | ofNat n =>
    rw [integerText, wordValue?_toDigits, unsignedValue?_toDigits]
    exact integerValue?_toDigits (Int.ofNat_le.1 hhigh)
  | negSucc n =>
    rw [integerText]
    show unsignedValue? true (Nat.toDigits 10 (n + 1)) = _
    rw [unsignedValue?_toDigits, integerValue?_negative (Nat.succ_pos n) (by omega)]
    rfl

theorem isWordChar_integerText (n : Int) : ∀ c ∈ integerText n, isWordChar c = true := by
  cases n with
  | ofNat n =>
    intro c hc
    exact isWordChar_of_isDigit (toDigits_isDigit hc)
  | negSucc n =>
    intro c hc
    rcases List.mem_cons.1 hc with rfl | hc
    · rfl
    · exact isWordChar_of_isDigit (toDigits_isDigit hc)

/-! ## Words -/

/-- The scanner goes from one state to another over a text, and finds words on the way. -/
def Reads (state : Scan) (text : List Char) (words : List Token) (next : Scan) : Prop :=
  ∀ found rest, scanFrom state found (text ++ rest) = scanFrom next (words.reverse ++ found) rest

/-- What may follow a number or a literal. -/
def Ends (rest : List Char) : Prop := ∀ c ∈ rest.head?, isWordChar c = false

/-- A text spells words, if it does not go on as the last of them. -/
def Spells (text : List Char) (words : List Token) : Prop :=
  ∀ found rest, Ends rest →
    scanFrom .between found (text ++ rest) = scanFrom .between (words.reverse ++ found) rest

/-- A character that completes nothing. -/
theorem reads_quiet {state mid next : Scan} {c : Char} {text : List Char} {words : List Token}
    (hstep : scanStep state c = some ([], mid)) (h : Reads mid text words next) :
    Reads state (c :: text) words next := by
  intro found rest
  rw [List.cons_append, scanFrom, hstep]
  exact h found rest

/-- A character that completes a word. -/
theorem reads_complete {state mid next : Scan} {c : Char} {word : Token} {text : List Char}
    {words : List Token} (hstep : scanStep state c = some ([word], mid))
    (h : Reads mid text words next) : Reads state (c :: text) (word :: words) next := by
  intro found rest
  rw [List.cons_append, scanFrom, hstep]
  show scanFrom mid (word :: found) (text ++ rest) = _
  rw [h]
  simp

theorem reads_nil (state : Scan) : Reads state [] [] state := fun _ _ => rfl

theorem Reads.append {state mid next : Scan} {text more : List Char} {words others : List Token}
    (h : Reads state text words mid) (hmore : Reads mid more others next) :
    Reads state (text ++ more) (words ++ others) next := by
  intro found rest
  rw [List.append_assoc, h, hmore, List.reverse_append, List.append_assoc]

theorem Ends.append {rest : List Char} (h : Ends rest) {text : List Char} (htext : Ends text) :
    Ends (text ++ rest) := by
  cases text with
  | nil => exact h
  | cons c text => exact htext

theorem Spells.append {text more : List Char} {words others : List Token} (h : Spells text words)
    (hmore : Spells more others) (hends : Ends more) : Spells (text ++ more) (words ++ others) := by
  intro found rest hrest
  rw [List.append_assoc, h found _ (hrest.append hends), hmore _ rest hrest, List.reverse_append,
    List.append_assoc]

theorem spells_nil : Spells [] [] := fun _ _ _ => rfl

/-- A text that is read up to a point between words, and then another. -/
theorem Reads.spells {text more : List Char} {words others : List Token}
    (h : Reads .between text words .between) (hmore : Spells more others) :
    Spells (text ++ more) (words ++ others) := by
  intro found rest hrest
  rw [List.append_assoc, h, hmore _ rest hrest, List.reverse_append, List.append_assoc]

theorem spells_punctuation {c : Char} {word : Token} {text : List Char} {words : List Token}
    (hc : scanBetween c = some ([word], .between)) (h : Spells text words) :
    Spells (c :: text) (word :: words) := by
  have hread : Reads .between [c] [word] .between := reads_complete hc (reads_nil .between)
  exact hread.spells h

/-- Characters of a word are taken into it. -/
theorem reads_word (text seen : List Char) (h : ∀ c ∈ text, isWordChar c = true) :
    Reads (.word seen) text [] (.word (text.reverse ++ seen)) := by
  induction text generalizing seen with
  | nil => exact reads_nil _
  | cons c text ih =>
    have hstep : scanStep (.word seen) c = some ([], .word (c :: seen)) := by
      simp [scanStep, h c List.mem_cons_self]
    rw [List.reverse_cons, List.append_assoc]
    exact reads_quiet hstep (ih (c :: seen) fun d hd => h d (List.mem_cons_of_mem _ hd))

/-- A word is over where another character comes. -/
theorem scanFrom_word {seen rest : List Char} {value : Json} (found : List Token)
    (hvalue : wordValue? seen.reverse = some value) (hrest : Ends rest) :
    scanFrom (.word seen) found rest = scanFrom .between (.scalar value :: found) rest := by
  -- at the end of the text there is no other character, but the end itself
  cases rest with
  | nil => simp [scanFrom, scanEnd, hvalue]
  | cons c rest =>
    have hc : isWordChar c = false := hrest c rfl
    rw [scanFrom, scanFrom]
    simp only [scanStep, hc, hvalue, Bool.false_eq_true, if_false]
    cases scanBetween c with
    | none => rfl
    | some step =>
      obtain ⟨words, next⟩ := step
      simp

/-- No character of a word has a meaning of its own. -/
theorem scanBetween_word {c : Char} (h : isWordChar c = true) :
    scanBetween c = some ([], .word [c]) := by
  unfold scanBetween
  have hne : ∀ d, isWordChar d = false → c ≠ d := by
    rintro d hd rfl
    rw [h] at hd
    cases hd
  have hspace : isSpace c = false := by
    simp [isSpace, hne ' ' rfl, hne '\n' rfl, hne '\t' rfl, hne '\r' rfl]
  simp [h, hspace, hne '"' rfl, hne '[' rfl, hne ']' rfl, hne '\x7b' rfl, hne '\x7d' rfl,
    hne ':' rfl, hne ',' rfl]

/-- A number or a literal is a word. -/
theorem spells_word {text : List Char} {value : Json} (hne : text ≠ [])
    (hchars : ∀ c ∈ text, isWordChar c = true) (hvalue : wordValue? text = some value) :
    Spells text [.scalar value] := by
  intro found rest hrest
  obtain ⟨c, text, rfl⟩ := List.exists_cons_of_ne_nil hne
  have hread : Reads .between (c :: text) [] (.word (text.reverse ++ [c])) :=
    reads_quiet (scanBetween_word (hchars c List.mem_cons_self))
      (reads_word text [c] fun d hd => hchars d (List.mem_cons_of_mem _ hd))
  rw [hread found rest]
  exact scanFrom_word _ (by simpa using hvalue) hrest

/-! ## Strings -/

theorem hexValue?_digitChar {d : Nat} (h : d < 16) : hexValue? (Nat.digitChar d) = some d := by
  interval_cases d <;> rfl

/-- A control character is read from its number. -/
theorem reads_control {c : Char} (hc : c.toNat < 0x20) (seen : List Char) :
    Reads (.text seen)
      ['\\', 'u', '0', '0', Nat.digitChar (c.toNat / 16), Nat.digitChar (c.toNat % 16)] []
      (.text (c :: seen)) := by
  have hhigh := hexValue?_digitChar (d := c.toNat / 16) (by omega)
  have hlow := hexValue?_digitChar (d := c.toNat % 16) (by omega)
  have hnumber : c.toNat / 16 * 16 + c.toNat % 16 = c.toNat := by omega
  have hlast : scanStep (.unicode seen 1 (c.toNat / 16) none) (Nat.digitChar (c.toNat % 16)) =
      some ([], .text (c :: seen)) := by
    simp only [scanStep, hlow, hnumber]
    -- the number is that of a character, and of no half of one
    have hsurrogate : ¬ 0xD800 ≤ c.toNat := by omega
    have htrail : ¬ 0xDC00 ≤ c.toNat := by omega
    simp [scanCharacter, hsurrogate, htrail, Char.ofNat_toNat]
  have hfirst : scanStep (.unicode seen 2 0 none) (Nat.digitChar (c.toNat / 16)) =
      some ([], .unicode seen 1 (c.toNat / 16) none) := by
    simp [scanStep, hhigh]
  have hzeros : Reads (.unicode seen 4 0 none) ['0', '0'] [] (.unicode seen 2 0 none) :=
    reads_quiet rfl (reads_quiet rfl (reads_nil _))
  exact reads_quiet rfl (reads_quiet rfl (hzeros.append
    (reads_quiet hfirst (reads_quiet hlast (reads_nil _)))))

/-- A character of a string is read back. -/
theorem reads_escapeChar (c : Char) (seen : List Char) :
    Reads (.text seen) (escapeChar c) [] (.text (c :: seen)) := by
  -- two steps for a character that has a letter of its own
  have hletter (letter d : Char) (hne : letter ≠ 'u') (h : unescape? letter = some d) :
      Reads (.text seen) ['\\', letter] [] (.text (d :: seen)) := by
    have hstep : scanStep (.escape seen) letter = some ([], .text (d :: seen)) := by
      simp [scanStep, hne, h]
    exact reads_quiet rfl (reads_quiet hstep (reads_nil _))
  unfold escapeChar
  split
  · subst c
    exact hletter '"' '"' (by decide) rfl
  split
  · subst c
    exact hletter '\\' '\\' (by decide) rfl
  split
  · subst c
    exact hletter 'b' '\x08' (by decide) rfl
  split
  · subst c
    exact hletter 't' '\t' (by decide) rfl
  split
  · subst c
    exact hletter 'n' '\n' (by decide) rfl
  split
  · subst c
    exact hletter 'f' '\x0c' (by decide) rfl
  split
  · subst c
    exact hletter 'r' '\r' (by decide) rfl
  split
  · exact reads_control (by assumption) seen
  · rename_i hquote hslash _ _ _ _ _ hcontrol
    have hstep : scanStep (.text seen) c = some ([], .text (c :: seen)) := by
      simp [scanStep, hquote, hslash, hcontrol]
    exact reads_quiet hstep (reads_nil _)

theorem reads_escaped (cs seen : List Char) :
    Reads (.text seen) (cs.flatMap escapeChar) [] (.text (cs.reverse ++ seen)) := by
  induction cs generalizing seen with
  | nil => exact reads_nil _
  | cons c cs ih =>
    rw [List.flatMap_cons, List.reverse_cons, List.append_assoc]
    exact (reads_escapeChar c seen).append (ih (c :: seen))

/-- **Every string is read back from its quoted text.** -/
theorem reads_stringText (s : String) :
    Reads .between (stringText s) [.scalar (.string s)] .between := by
  have hclose : scanStep (.text (s.toList.reverse ++ [])) '"' =
      some ([.scalar (.string s)], .between) := by
    simp [scanStep]
  have hopen : scanStep .between '"' = some ([], .text []) := rfl
  exact reads_quiet hopen ((reads_escaped s.toList []).append (reads_complete hclose (reads_nil _)))

/-! ## The words of a value -/

mutual

/-- The words of a value. -/
def tokens : Json → List Token
  | .array items => .openArray :: itemTokens items ++ [.closeArray]
  | .object fields => .openObject :: fieldTokens fields ++ [.closeObject]
  | leaf => [.scalar leaf]

/-- The words of items, with commas between them. -/
def itemTokens : List Json → List Token
  | [] => []
  | [item] => tokens item
  | item :: rest => tokens item ++ .comma :: itemTokens rest

/-- The words of fields, with commas between them. -/
def fieldTokens : List (String × Json) → List Token
  | [] => []
  | [(name, value)] => .scalar (.string name) :: .colon :: tokens value
  | (name, value) :: rest =>
    .scalar (.string name) :: .colon :: tokens value ++ .comma :: fieldTokens rest

end

mutual

/-- The compact text of a legible value spells its words. -/
theorem spells_compactText {room : Nat} : (v : Json) → Legible room v →
    Spells (compactText v) (tokens v)
  | .null, _ => spells_word (by decide) (List.all_eq_true.1 (by decide)) rfl
  | .bool true, _ => spells_word (by decide) (List.all_eq_true.1 (by decide)) rfl
  | .bool false, _ => spells_word (by decide) (List.all_eq_true.1 (by decide)) rfl
  | .integer n, h => by
    refine spells_word ?_ (isWordChar_integerText n) (wordValue?_integerText h.1 h.2)
    cases n with
    | ofNat n => exact Nat.toDigits_ne_nil
    | negSucc n => exact List.cons_ne_nil _ _
  | .string s, _ => by
    have h := (reads_stringText s).spells spells_nil
    rw [List.append_nil] at h
    exact h
  | .array items, h => by
    have hclose : Spells [']'] [.closeArray] := spells_punctuation rfl spells_nil
    have hitems := (spells_compactItems items h.2).append hclose (by simp [Ends, isWordChar])
    exact spells_punctuation rfl hitems
  | .object fields, h => by
    have hclose : Spells ['\x7d'] [.closeObject] := spells_punctuation rfl spells_nil
    have hfields := (spells_compactFields fields h.2).append hclose (by simp [Ends, isWordChar])
    exact spells_punctuation rfl hfields

theorem spells_compactItems {room : Nat} : (items : List Json) → LegibleItems room items →
    Spells (compactItems items) (itemTokens items)
  | [], _ => spells_nil
  | [item], h => spells_compactText item h.1
  | item :: next :: rest, h =>
    (spells_compactText item h.1).append
      (spells_punctuation rfl (spells_compactItems (next :: rest) h.2))
      (by simp [Ends, isWordChar])

theorem spells_compactFields {room : Nat} : (fields : List (String × Json)) →
    LegibleFields room fields → Spells (compactFields fields) (fieldTokens fields)
  | [], _ => spells_nil
  | [(name, value)], h =>
    (reads_stringText name).spells (spells_punctuation rfl (spells_compactText value h.1))
  | (name, value) :: next :: rest, h => by
    have hrest : Spells (',' :: compactFields (next :: rest)) (.comma :: fieldTokens (next :: rest)) :=
      spells_punctuation rfl (spells_compactFields (next :: rest) h.2)
    have hvalue := (spells_compactText value h.1).append hrest (by simp [Ends, isWordChar])
    have hnamed := (reads_stringText name).spells (spells_punctuation (c := ':') rfl hvalue)
    simpa [compactFields, fieldTokens] using hnamed

end

/-- The words of a legible value are what the scanner finds in its text. -/
theorem scan_compactText {room : Nat} {v : Json} (h : Legible room v) :
    scan (compactText v) = some (tokens v) := by
  have hspelt := spells_compactText v h [] [] nofun
  rw [List.append_nil] at hspelt
  rw [scan, hspelt]
  simp [scanFrom, scanEnd]

/-! ## The words put together -/

/-- Where a value may come. -/
def AwaitsValue (e : Expect) : Prop := e = .value ∨ e = .valueOrClose

/-- Where a field may come. -/
def AwaitsField (e : Expect) : Prop := e = .name ∨ e = .nameOrClose

theorem run_cons {r next : Reading} {word : Token} (hstep : r.step word = some next)
    (rest : List Token) : r.run (word :: rest) = next.run rest := by
  rw [Reading.run, hstep]

theorem step_value {e : Expect} (he : AwaitsValue e) (stack : List Frame) (word : Token)
    (h : word ≠ .closeArray) : Reading.step ⟨stack, e⟩ word = Reading.begin stack word := by
  rcases he with rfl | rfl
  · rfl
  · cases word with
    | closeArray => exact absurd rfl h
    | _ => rfl

theorem step_name {e : Expect} (he : AwaitsField e) (fields : List (String × Json))
    (last name : String) (below : List Frame) :
    Reading.step ⟨.object fields last :: below, e⟩ (.scalar (.string name)) =
      some ⟨.object fields name :: below, .colon⟩ := by
  rcases he with rfl | rfl <;> rfl

theorem begin_open {stack : List Frame} (room : stack.length < maxDepth) :
    Reading.begin stack .openArray = some ⟨.array [] :: stack, .valueOrClose⟩ ∧
      Reading.begin stack .openObject = some ⟨.object [] "" :: stack, .nameOrClose⟩ := by
  simp [Reading.begin, Reading.enter, room]

mutual

/-- **The words of a legible value are put together to the value**, wherever it stands. -/
theorem run_tokens {room : Nat} (stack : List Frame) {e : Expect} (he : AwaitsValue e)
    (hroom : stack.length + room ≤ maxDepth) (rest : List Token) : (v : Json) → Legible room v →
    Reading.run ⟨stack, e⟩ (tokens v ++ rest) = (Reading.deliver v stack).run rest
  | .null, _ => run_cons (step_value he stack (.scalar .null) nofun) rest
  | .bool b, _ => run_cons (step_value he stack (.scalar (.bool b)) nofun) rest
  | .integer n, _ => run_cons (step_value he stack (.scalar (.integer n)) nofun) rest
  | .string s, _ => run_cons (step_value he stack (.scalar (.string s)) nofun) rest
  | .array items, h => by
    have hpos : 0 < room := h.1
    have hopen : Reading.step ⟨stack, e⟩ .openArray = some ⟨.array [] :: stack, .valueOrClose⟩ := by
      rw [step_value he stack .openArray nofun, (begin_open (by omega)).1]
    have hitems := run_itemTokens [] stack (.inr rfl) (by omega) rest items (fun _ => rfl) h.2
    rw [tokens, List.append_assoc, List.cons_append, run_cons hopen]
    exact hitems
  | .object fields, h => by
    have hpos : 0 < room := h.1
    have hopen : Reading.step ⟨stack, e⟩ .openObject =
        some ⟨.object [] "" :: stack, .nameOrClose⟩ := by
      rw [step_value he stack .openObject nofun, (begin_open (by omega)).2]
    have hfields := run_fieldTokens [] stack (.inr rfl) "" (by omega) rest fields (fun _ => rfl) h.2
    rw [tokens, List.append_assoc, List.cons_append, run_cons hopen]
    exact hfields

/-- The items of an array, and its end. -/
theorem run_itemTokens {room : Nat} (acc : List Json) (below : List Frame) {e : Expect}
    (he : AwaitsValue e) (hroom : below.length + 1 + room ≤ maxDepth) (rest : List Token) :
    (items : List Json) → (items = [] → e = .valueOrClose) → LegibleItems room items →
    Reading.run ⟨.array acc :: below, e⟩ (itemTokens items ++ .closeArray :: rest) =
      (Reading.deliver (.array (acc.reverse ++ items)) below).run rest
  | [], hempty, _ => by
    rw [hempty rfl, itemTokens, List.append_nil]
    exact run_cons rfl rest
  | [item], _, h => by
    rw [itemTokens, run_tokens _ he hroom _ item h.1, ← List.reverse_cons]
    exact run_cons rfl rest
  | item :: next :: others, _, h => by
    have hothers := run_itemTokens (item :: acc) below (.inl rfl) hroom rest (next :: others) nofun
      h.2
    rw [List.reverse_cons, List.append_assoc] at hothers
    have hsplit : itemTokens (item :: next :: others) ++ .closeArray :: rest =
        tokens item ++ .comma :: (itemTokens (next :: others) ++ .closeArray :: rest) := by
      simp [itemTokens]
    rw [hsplit, run_tokens _ he hroom _ item h.1]
    exact (run_cons rfl _).trans hothers

/-- The fields of an object, and its end. -/
theorem run_fieldTokens {room : Nat} (acc : List (String × Json)) (below : List Frame) {e : Expect}
    (he : AwaitsField e) (last : String) (hroom : below.length + 1 + room ≤ maxDepth)
    (rest : List Token) : (fields : List (String × Json)) →
    (fields = [] → e = .nameOrClose) → LegibleFields room fields →
    Reading.run ⟨.object acc last :: below, e⟩ (fieldTokens fields ++ .closeObject :: rest) =
      (Reading.deliver (.object (acc.reverse ++ fields)) below).run rest
  | [], hempty, _ => by
    rw [hempty rfl, fieldTokens, List.append_nil]
    exact run_cons rfl rest
  | [(name, value)], _, h => by
    have hvalue := run_tokens (.object acc name :: below) (.inl rfl) hroom
      (.closeObject :: rest) value h.1
    rw [fieldTokens, List.cons_append, List.cons_append, run_cons (step_name he acc last name below),
      ← List.reverse_cons]
    exact (run_cons rfl _).trans (hvalue.trans (run_cons rfl rest))
  | (name, value) :: next :: others, _, h => by
    have hothers := run_fieldTokens ((name, value) :: acc) below (.inl rfl) name hroom rest
      (next :: others) nofun h.2
    have hvalue := run_tokens (.object acc name :: below) (.inl rfl) hroom
      (.comma :: (fieldTokens (next :: others) ++ .closeObject :: rest)) value h.1
    rw [List.reverse_cons, List.append_assoc] at hothers
    have hsplit : fieldTokens ((name, value) :: next :: others) ++ .closeObject :: rest =
        .scalar (.string name) :: .colon :: (tokens value ++
          .comma :: (fieldTokens (next :: others) ++ .closeObject :: rest)) := by
      simp [fieldTokens]
    rw [hsplit, run_cons (step_name he acc last name below)]
    exact (run_cons rfl _).trans (hvalue.trans ((run_cons rfl _).trans hothers))

end

/-- The words of a legible value are the words of that value only. -/
theorem ofTokens?_tokens {v : Json} (h : Legible maxDepth v) : ofTokens? (tokens v) = some v := by
  have hrun := run_tokens [] (.inl rfl) (by simp) [] v h
  rw [List.append_nil] at hrun
  rw [ofTokens?, hrun]
  rfl

/-- **The compact text of a legible value reads as the value.** -/
theorem parse?_compact {v : Json} (h : Legible maxDepth v) : parse? v.compact = some v := by
  rw [parse?, compact, String.toList_ofList, scan_compactText h]
  exact ofTokens?_tokens h

end ControlRig.Json
