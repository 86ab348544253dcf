import ControlRig.Proofs.Manager.Failure

/-!
# A procedure and the answers it is given

`p.Follows told q` says that `p`, given one answer after the other, has become `q`. It is the whole
history of a procedure in the middle of being carried out, whoever gives the answers; nobody crashes
in it.

`p.Sound allowed Q` says that whatever the answers, `p` asks for allowed actions only, does not
crash of its own accord, and has the property `Q` if it comes to a value. It is shown along the text
of a procedure, also under `attempt` and under the lock, and following preserves it: what is known
of a procedure when it begins is known wherever it stands, and when it ends.
-/

namespace ControlRig.Procedure

variable {α β : Type} {Q : α → Prop} {allowed : Action → Prop}

/-- An action with the answer that was given to it. -/
abbrev Told := (action : Action) × action.Answer

/-- Some answers take a procedure to another one. -/
inductive Follows : Procedure α → List Told → Procedure α → Prop
  | refl (p : Procedure α) : Follows p [] p
  | step {action : Action} {next : Option action.Answer → Procedure α} {answer : action.Answer}
      {told : List Told} {q : Procedure α} :
      Follows (next (some answer)) told q →
      Follows (.ask action next) (⟨action, answer⟩ :: told) q

theorem Follows.trans {p q r : Procedure α} {told more : List Told} (h : p.Follows told q)
    (hmore : q.Follows more r) : p.Follows (told ++ more) r := by
  induction h with
  | refl p => exact hmore
  | step _ ih => exact .step (ih hmore)

/-- The answers tell where a procedure comes to a value, and to which. -/
theorem Follows.unique {p : Procedure α} {told told' rest rest' : List Told} {a a' : α}
    (h : p.Follows told (.done a)) (h' : p.Follows told' (.done a'))
    (same : told ++ rest = told' ++ rest') : told = told' ∧ a = a' ∧ rest = rest' := by
  induction p generalizing told told' with
  | done b =>
    cases h
    cases h'
    exact ⟨rfl, rfl, same⟩
  | crash => cases h
  | ask action next ih =>
    cases h with
    | step h =>
      cases h' with
      | step h' =>
        cases List.head_eq_of_cons_eq same
        obtain ⟨rfl, rfl, rfl⟩ := ih _ h h' (List.tail_eq_of_cons_eq same)
        exact ⟨rfl, rfl, rfl⟩

/-- A procedure whose value is only renamed goes the same way. -/
theorem Follows.of_map {p : Procedure α} {f : α → β} {told : List Told} {q : Procedure β}
    (h : (p >>= fun a => .done (f a)).Follows told q) :
    ∃ p', p.Follows told p' ∧ q = p' >>= fun a => .done (f a) := by
  generalize hrenamed : (p >>= fun a => .done (f a)) = r at h
  induction h generalizing p with
  | refl r => exact ⟨p, .refl p, hrenamed.symm⟩
  | step _ ih =>
    cases p with
    | done a => cases hrenamed
    | crash => cases hrenamed
    | ask action next =>
      cases hrenamed
      obtain ⟨p', hfollows, hq⟩ := ih rfl
      exact ⟨p', .step hfollows, hq⟩

/-- A renamed value is the name of a value. -/
theorem eq_done_of_map {p : Procedure α} {f : α → β} {b : β}
    (h : (p >>= fun a => Procedure.done (f a)) = .done b) : ∃ a, p = .done a ∧ f a = b := by
  cases p with
  | done a =>
    cases h
    exact ⟨a, rfl, rfl⟩
  | crash => cases h
  | ask action next => cases h

/-! ## Soundness -/

/-- Whatever the answers, a procedure asks for allowed actions only and does not crash, and its
value has a property. -/
def Sound (allowed : Action → Prop) (Q : α → Prop) : Procedure α → Prop
  | .done a => Q a
  | .crash => False
  | .ask action next => allowed action ∧ ∀ answer, (next (some answer)).Sound allowed Q

theorem sound_of {action : Action} (h : allowed action) :
    (of action).Sound allowed fun _ => True :=
  ⟨h, fun _ => trivial⟩

theorem Sound.mono {Q' : α → Prop} {p : Procedure α} (h : p.Sound allowed Q)
    (imp : ∀ a, Q a → Q' a) : p.Sound allowed Q' := by
  induction p with
  | done a => exact imp a h
  | crash => exact h
  | ask action next ih => exact ⟨h.1, fun answer => ih _ (h.2 answer)⟩

theorem Sound.bind {Q' : β → Prop} {p : Procedure α} {f : α → Procedure β}
    (hp : p.Sound allowed Q) (hf : ∀ a, Q a → (f a).Sound allowed Q') :
    (p >>= f).Sound allowed Q' := by
  induction p with
  | done a => exact hf a hp
  | crash => exact absurd hp id
  | ask action next ih => exact ⟨hp.1, fun answer => ih _ (hp.2 answer)⟩

theorem Sound.attempt {p : Procedure α} (h : p.Sound allowed Q) :
    p.attempt.Sound allowed fun result => ∃ a, result = some a ∧ Q a := by
  induction p with
  | done a => exact ⟨a, rfl, h⟩
  | crash => exact absurd h id
  | ask action next ih => exact ⟨h.1, fun answer => ih _ (h.2 answer)⟩

theorem Composed.sound {p : Procedure α} (h : p.Composed allowed) :
    p.Sound allowed fun _ => True := by
  induction h with
  | done a => trivial
  | of action hal => exact sound_of hal
  | bind _ _ ihp ihf => exact ihp.bind fun a _ => ihf a
  | attempt _ ih => exact ih.attempt.mono fun _ _ => trivial

/-- What the lock itself asks for: taking it, giving it back, and a message. -/
def AllowsLock (allowed : Action → Prop) : Prop :=
  allowed .lock ∧ allowed (.unlock false) ∧ ∀ level message, allowed (.log level message)

theorem Sound.withLock {step : ManagerState → Procedure α} (lock : AllowsLock allowed)
    (h : ∀ state, (step state).Sound allowed Q) : (Procedure.withLock step).Sound allowed Q := by
  rw [withLock_eq]
  -- a step that does not crash gives the lock back unpoisoned
  refine (sound_of lock.1).bind fun locked _ => Sound.bind (Q := fun _ => True) ?_ fun _ _ => ?_
  · split
    · exact sound_of (lock.2.2 _ _)
    · trivial
  · refine (h locked.state).attempt.bind ?_
    rintro _ ⟨a, rfl, hq⟩
    exact (sound_of lock.2.1).bind fun _ _ => hq

/-- A procedure stays sound on the way. -/
theorem Sound.follows {p q : Procedure α} {told : List Told} (h : p.Sound allowed Q)
    (follows : p.Follows told q) : q.Sound allowed Q := by
  induction follows with
  | refl p => exact h
  | step _ ih => exact ih (h.2 _)

end ControlRig.Procedure
