import ControlRig.Procedure.Basic

/-!
# What a procedure gets to see

A `Procedure` is a tree of questions. This file says which walks through the tree there are,
**without saying who answers**: `p.Goes seen result` holds if some sequence of answers takes `p` to
`result` and shows it `seen` on the way. Calls to the registry, readings of a resource and look-ups
of a parameter leave an `Observation`; messages, pauses and the rest leave none.

The point of the relation is that it comes apart along the structure of a procedure
(`goes_bind_some`), so what a phase of a transition can ask for and come to is read off the phase
alone. Who really answers is added once and for all in `ControlRig.Proofs.Rig.History`, where every
run on a rig turns out to be such a walk (`Procedure.goes_history`).

Answers are restricted in one respect. A registry has names to tell only when it lists or starts;
`Action.Admits` says so, and it is what lets a successful load be written down as `.ok []`.
-/

namespace ControlRig

/-- Something that a procedure has learned from an answer. -/
inductive Observation where
  /-- What the registry answered to a call. -/
  | called (operation : Operation) (limit : Duration) (answer : Operation.Answer)
  /-- The state that a resource reported. -/
  | reported (resource : String) (state : ResourceState)
  /-- Whether there were parameters at a key. -/
  | lookedUp (key : String) (found : Bool)

namespace Observation

/-- What the answer to an action shows; a collaborator that crashes shows nothing. -/
def of : (action : Action) → Option action.Answer → List Observation
  | .call operation limit, some answer => [.called operation limit answer]
  | .readState resource, some state => [.reported resource state]
  | .hasEntry key, some found => [.lookedUp key found]
  | _, _ => []

/-- The call that a registry has recorded of an observation. -/
def call? : Observation → Option Call
  | .called operation _ _ => some operation.call
  | .reported .. => none
  | .lookedUp .. => none

/-- The calls among observations, oldest first. -/
def calls (seen : List Observation) : List Call := seen.filterMap call?

/-- The resource that an observation shows to have been loaded. -/
def loaded? : Observation → Option String
  | .called (.load resource) _ (.ok _) => some resource
  | _ => none

/-- The resources that were loaded successfully, in the order of loading. -/
def loaded (seen : List Observation) : List String := seen.filterMap loaded?

@[simp] theorem calls_append (xs ys : List Observation) : calls (xs ++ ys) = calls xs ++ calls ys :=
  List.filterMap_append

@[simp] theorem loaded_append (xs ys : List Observation) :
    loaded (xs ++ ys) = loaded xs ++ loaded ys :=
  List.filterMap_append

end Observation

/-- Names that a registry can give in answer to an operation: it has nothing to say unless it lists
what is loaded or starts controllers. -/
def Operation.Admits (operation : Operation) (names : List String) : Prop :=
  match operation with
  | .listLoaded => True
  | .startControllers .. => True
  | _ => names = []

/-- An answer that an action can get. -/
def Action.Admits : (action : Action) → action.Answer → Prop
  | .call operation _, .ok names => operation.Admits names
  | _, _ => True

namespace Procedure

variable {α β : Type}

/-- Some answers take a procedure to a result, and it sees this on the way. Without a result, a
collaborator has crashed. -/
def Goes : Procedure α → List Observation → Option α → Prop
  | .done a, seen, result => seen = [] ∧ result = some a
  | .crash, seen, result => seen = [] ∧ result = none
  | .ask action next, seen, result =>
    ∃ answer rest, (∀ a, answer = some a → action.Admits a) ∧
      seen = Observation.of action answer ++ rest ∧ (next answer).Goes rest result

/-! ## Walks through composed procedures -/

theorem goes_done_iff {a : α} {seen : List Observation} {result : Option α} :
    (Procedure.done a).Goes seen result ↔ seen = [] ∧ result = some a := Iff.rfl

theorem goes_crash_iff {seen : List Observation} {result : Option α} :
    (Procedure.crash : Procedure α).Goes seen result ↔ seen = [] ∧ result = none := Iff.rfl

@[simp] theorem goes_done {a b : α} {seen : List Observation} :
    (Procedure.done a).Goes seen (some b) ↔ seen = [] ∧ b = a := by
  simp [goes_done_iff]

@[simp] theorem not_goes_crash {b : α} {seen : List Observation} :
    ¬ (Procedure.crash : Procedure α).Goes seen (some b) := by
  simp [goes_crash_iff]

/-- A walk through two procedures is a walk through the one and then through the other. -/
theorem goes_bind_some {p : Procedure α} {f : α → Procedure β} {seen : List Observation} {b : β} :
    (p >>= f).Goes seen (some b) ↔
      ∃ a first rest, p.Goes first (some a) ∧ (f a).Goes rest (some b) ∧ seen = first ++ rest := by
  induction p generalizing seen with
  | done a =>
    constructor
    · intro h
      exact ⟨a, [], seen, goes_done.2 ⟨rfl, rfl⟩, h, rfl⟩
    · rintro ⟨a', first, rest, hp, hf, rfl⟩
      obtain ⟨rfl, rfl⟩ := goes_done.1 hp
      exact hf
  | crash =>
    constructor
    · intro h
      exact absurd h not_goes_crash
    · rintro ⟨a, first, rest, hp, -, -⟩
      exact absurd hp not_goes_crash
  | ask action next ih =>
    -- the first question belongs to the first procedure, in either direction
    constructor
    · rintro ⟨answer, rest, hadm, rfl, hgo⟩
      obtain ⟨a, first, last, hp, hf, rfl⟩ := (ih answer).1 hgo
      exact ⟨a, Observation.of action answer ++ first, last,
        ⟨answer, first, hadm, rfl, hp⟩, hf, (List.append_assoc _ _ _).symm⟩
    · rintro ⟨a, _, last, ⟨answer, first, hadm, rfl, hp⟩, hf, rfl⟩
      exact ⟨answer, first ++ last, hadm, List.append_assoc _ _ _,
        (ih answer).2 ⟨a, first, last, hp, hf, rfl⟩⟩

/-- Under `attempt` every walk ends with a value, which tells whether there was a crash. -/
theorem goes_attempt {p : Procedure α} {seen : List Observation} {result : Option α} :
    p.attempt.Goes seen (some result) ↔ p.Goes seen result := by
  induction p generalizing seen with
  | done a => simp [attempt, goes_done_iff]
  | crash => simp [attempt, goes_done_iff, goes_crash_iff]
  | ask action next ih =>
    constructor
    · rintro ⟨answer, rest, hadm, rfl, hgo⟩
      exact ⟨answer, rest, hadm, rfl, (ih answer).1 hgo⟩
    · rintro ⟨answer, rest, hadm, rfl, hgo⟩
      exact ⟨answer, rest, hadm, rfl, (ih answer).2 hgo⟩

/-! ## Walks through single actions -/

/-- A single action shows its answer and ends with it. -/
theorem goes_of {action : Action} {seen : List Observation} {a : action.Answer} :
    (of action).Goes seen (some a) ↔ action.Admits a ∧ seen = Observation.of action (some a) := by
  constructor
  · rintro ⟨answer, rest, hadm, rfl, hgo⟩
    cases answer with
    | none => exact absurd hgo not_goes_crash
    | some b =>
      obtain ⟨rfl, rfl⟩ := goes_done.1 hgo
      exact ⟨hadm a rfl, List.append_nil _⟩
  · rintro ⟨hadm, rfl⟩
    refine ⟨some a, [], ?_, (List.append_nil _).symm, goes_done.2 ⟨rfl, rfl⟩⟩
    intro b hb
    cases hb
    exact hadm

/-- An action whose answer leaves no observation is passed over in a walk. -/
theorem goes_of_silent {action : Action} {seen : List Observation} {a : action.Answer}
    (hadm : action.Admits a) (hsilent : Observation.of action (some a) = []) :
    (of action).Goes seen (some a) ↔ seen = [] := by
  rw [goes_of, hsilent]
  exact and_iff_right hadm

@[simp] theorem goes_call {operation : Operation} {limit : Duration} {seen : List Observation}
    {answer : Operation.Answer} :
    (call operation limit).Goes seen (some answer) ↔
      (∀ names, answer = .ok names → operation.Admits names) ∧
        seen = [.called operation limit answer] := by
  refine goes_of.trans (and_congr_left fun _ => ?_)
  cases answer with
  | error e => exact ⟨fun _ _ hok => (nomatch hok), fun _ => trivial⟩
  | ok names => exact ⟨fun hadm _ hok => Except.ok.inj hok ▸ hadm, fun hadm => hadm names rfl⟩

@[simp] theorem goes_hasEntry {key : String} {seen : List Observation} {found : Bool} :
    (hasEntry key).Goes seen (some found) ↔ seen = [.lookedUp key found] :=
  goes_of.trans (and_iff_right trivial)

@[simp] theorem goes_readState {resource : String} {seen : List Observation}
    {state : ResourceState} :
    (readState resource).Goes seen (some state) ↔ seen = [.reported resource state] :=
  goes_of.trans (and_iff_right trivial)

@[simp] theorem goes_inform {message : String} {seen : List Observation} {u : Unit} :
    (inform message).Goes seen (some u) ↔ seen = [] :=
  goes_of_silent trivial rfl

@[simp] theorem goes_warn {message : String} {seen : List Observation} {u : Unit} :
    (warn message).Goes seen (some u) ↔ seen = [] :=
  goes_of_silent trivial rfl

@[simp] theorem goes_complain {message : String} {seen : List Observation} {u : Unit} :
    (complain message).Goes seen (some u) ↔ seen = [] :=
  goes_of_silent trivial rfl

@[simp] theorem goes_now {seen : List Observation} {t : Instant} :
    now.Goes seen (some t) ↔ seen = [] :=
  goes_of_silent trivial rfl

@[simp] theorem goes_sleep {d : Duration} {seen : List Observation} {u : Unit} :
    (sleep d).Goes seen (some u) ↔ seen = [] :=
  goes_of_silent trivial rfl

end Procedure

end ControlRig
