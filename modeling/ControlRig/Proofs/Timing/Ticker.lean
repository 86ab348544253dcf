import ControlRig.Timing.Ticker

/-!
# The pace of a loop

A pass goes on when its turn has come, and one that comes too late makes its own turn
(`Ticker.turn`). Either way the next turn is a period after this one (`Ticker.next_tick`), and with
that the difference between early and late is gone: whatever the loop does between its ticks, and
however long a sleep takes, turns are a period apart, and a tick is never back before its turn. Both
the schedule since the loop was begun and the distance of any two ticks are read off from there
(`Ticker.keeps_pace`).
-/

namespace ControlRig

theorem Instant.nanos_after (t : Instant) (d : Duration) :
    (t.after d).nanos = t.nanos + d.nanos := rfl

theorem Instant.after_since {t earlier : Instant} (h : earlier ≤ t) :
    earlier.after (t.since earlier) = t :=
  congrArg Instant.mk (Nat.add_sub_cancel' h)

namespace Ticker

/-- A pass of a loop: when its tick reads the clock, and when the tick is back. -/
structure Pass where
  called : Instant
  back : Instant
  deriving DecidableEq, Repr

/-- When a pass that is over now goes on: at its turn, or at once if that has gone by. -/
def turn (t : Ticker) (now : Instant) : Instant := if now < t.next then t.next else now

/-- The schedule after some passes. -/
def through (t : Ticker) : List Pass → Ticker
  | [] => t
  | pass :: rest => (t.tick pass.called).2.through rest

/-- Passes that the clock allows from now on. It does not go back between them, and a sleep takes at
least as long as it was asked to; how much longer, and what the loop does meanwhile, is open. -/
def Allows (t : Ticker) (now : Instant) : List Pass → Prop
  | [] => True
  | pass :: rest =>
    now ≤ pass.called ∧ pass.called.after (t.tick pass.called).1 ≤ pass.back ∧
      (t.tick pass.called).2.Allows pass.back rest

instance decidableAllows :
    (t : Ticker) → (now : Instant) → (passes : List Pass) → Decidable (t.Allows now passes)
  | _, _, [] => isTrue trivial
  | t, _, pass :: rest =>
    have := decidableAllows (t.tick pass.called).2 pass.back rest
    inferInstanceAs (Decidable (_ ∧ _ ∧ _))

variable {t : Ticker} {now : Instant} {passes : List Pass}

/-! ## One tick -/

theorem le_turn (t : Ticker) (now : Instant) : now ≤ t.turn now := by
  unfold turn
  split
  · next hearly => exact Nat.le_of_lt hearly
  · exact Nat.le_refl _

theorem next_le_turn (t : Ticker) (now : Instant) : t.next ≤ t.turn now := by
  unfold turn
  split
  · exact Nat.le_refl _
  · next hlate => exact Nat.not_lt.1 hlate

theorem turn_of_late (h : t.next ≤ now) : t.turn now = now := if_neg (Nat.not_lt.2 h)

theorem turn_of_early (h : now < t.next) : t.turn now = t.next := if_pos h

theorem wait_tick (t : Ticker) (now : Instant) : (t.tick now).1 = (t.turn now).since now := by
  unfold tick turn
  split
  · rfl
  · exact congrArg Duration.mk (Nat.sub_self _).symm

/-- The next turn is a period after this one. -/
@[simp] theorem next_tick (t : Ticker) (now : Instant) :
    (t.tick now).2.next = (t.turn now).after t.period := by
  unfold tick turn
  split <;> rfl

@[simp] theorem period_tick (t : Ticker) (now : Instant) : (t.tick now).2.period = t.period := by
  unfold tick
  split <;> rfl

@[simp] theorem after_wait_tick (t : Ticker) (now : Instant) :
    now.after (t.tick now).1 = t.turn now := by
  rw [wait_tick, Instant.after_since (t.le_turn now)]

@[simp] theorem period_through (t : Ticker) (passes : List Pass) :
    (t.through passes).period = t.period := by
  induction passes generalizing t with
  | nil => rfl
  | cons pass rest ih => rw [through, ih, period_tick]

/-! ## One tick after the other -/

/-- Every tick is back after its own call, and after its turn. -/
theorem Allows.head {pass : Pass} {rest : List Pass} (h : t.Allows now (pass :: rest)) :
    now ≤ pass.called ∧ t.turn pass.called ≤ pass.back := by
  obtain ⟨hcalled, hback, -⟩ := h
  rw [after_wait_tick] at hback
  exact ⟨hcalled, hback⟩

/-- So many ticks after the next turn so many periods have passed. -/
theorem Allows.next_le (h : t.Allows now passes) {k : Nat} {pass : Pass}
    (hpass : passes[k]? = some pass) :
    t.next.nanos + k * t.period.nanos ≤ pass.back.nanos := by
  induction passes generalizing t now k with
  | nil => cases hpass
  | cons first rest ih =>
    have hturn : t.next.nanos ≤ (t.turn first.called).nanos := t.next_le_turn first.called
    cases k with
    | zero =>
      cases hpass
      have hback : (t.turn pass.called).nanos ≤ pass.back.nanos := h.head.2
      omega
    | succ k =>
      have hlater := ih h.2.2 hpass
      rw [next_tick, period_tick, Instant.nanos_after] at hlater
      rw [Nat.succ_mul]
      omega

/-- So many ticks after a call so many periods have passed, whether it was early or late. -/
theorem Allows.called_le {first later : Pass} {rest : List Pass} (h : t.Allows now (first :: rest))
    {m : Nat} (hlater : rest[m]? = some later) :
    first.called.nanos + (m + 1) * t.period.nanos ≤ later.back.nanos := by
  have hturn : first.called.nanos ≤ (t.turn first.called).nanos := t.le_turn first.called
  have hspan := h.2.2.next_le hlater
  rw [next_tick, period_tick, Instant.nanos_after] at hspan
  rw [Nat.succ_mul]
  omega

/-- From the end of a tick on it is one period less. -/
theorem Allows.back_le {first later : Pass} {rest : List Pass} (h : t.Allows now (first :: rest))
    {m : Nat} (hlater : rest[m]? = some later) :
    first.back.nanos + m * t.period.nanos ≤ later.back.nanos := by
  obtain ⟨-, -, hrest⟩ := h
  cases rest with
  | nil => cases hlater
  | cons second others =>
    have hcalled : first.back.nanos ≤ second.called.nanos := hrest.head.1
    cases m with
    | zero =>
      cases hlater
      have hback : later.called.nanos ≤ later.back.nanos :=
        Nat.le_trans (le_turn _ later.called) hrest.head.2
      omega
    | succ m =>
      have hspan := hrest.called_le hlater
      rw [period_tick] at hspan
      omega

/-- Where the next turn is a period away at most, nobody waits for longer. -/
theorem Allows.wait_le {pass : Pass} {rest : List Pass} (h : t.Allows now (pass :: rest))
    (hnear : t.next ≤ now.after t.period) : (t.tick pass.called).1 ≤ t.period := by
  have hcalled : now.nanos ≤ pass.called.nanos := h.head.1
  have hnear : t.next.nanos ≤ now.nanos + t.period.nanos := hnear
  rw [wait_tick]
  show (t.turn pass.called).nanos - pass.called.nanos ≤ t.period.nanos
  unfold turn
  split <;> omega

/-- A pass in a run, as the first one of the run that is left. The next turn is never more than a
period away. -/
theorem Allows.cut (h : t.Allows now passes) (hnear : t.next ≤ now.after t.period) {k : Nat}
    {pass : Pass} (hpass : passes[k]? = some pass) :
    ∃ mid rest, (t.through (passes.take k)).Allows mid (pass :: rest) ∧
      (t.through (passes.take k)).next ≤ mid.after t.period ∧
      ∀ m, passes[k + m + 1]? = rest[m]? := by
  induction passes generalizing t now k with
  | nil => cases hpass
  | cons first others ih =>
    cases k with
    | zero =>
      cases hpass
      exact ⟨now, others, h, hnear, fun m => by rw [Nat.zero_add, List.getElem?_cons_succ]⟩
    | succ k =>
      have hback : (t.tick first.called).2.next ≤
          first.back.after (t.tick first.called).2.period := by
        rw [next_tick, period_tick]
        exact Nat.add_le_add_right h.head.2 _
      obtain ⟨mid, rest, hleft, hclose, hothers⟩ := ih h.2.2 hback hpass
      rw [period_tick] at hclose
      refine ⟨mid, rest, hleft, hclose, fun m => ?_⟩
      rw [Nat.add_right_comm k 1 m, List.getElem?_cons_succ, hothers m]

/-- A loop that is never late keeps to its turns. -/
theorem next_through_of_early {k : Nat} (hk : k ≤ passes.length)
    (early : ∀ j < k, ∀ pass, passes[j]? = some pass →
      pass.called.nanos < t.next.nanos + j * t.period.nanos) :
    (t.through (passes.take k)).next.nanos = t.next.nanos + k * t.period.nanos := by
  induction passes generalizing t k with
  | nil =>
    obtain rfl : k = 0 := Nat.le_zero.1 hk
    simp [through]
  | cons first rest ih =>
    cases k with
    | zero => simp [through]
    | succ k =>
      have hfirst : first.called < t.next := by
        have hcalled := early 0 k.succ_pos first rfl
        rwa [Nat.zero_mul] at hcalled
      have hnext : (t.tick first.called).2.next.nanos = t.next.nanos + t.period.nanos := by
        rw [next_tick, turn_of_early hfirst, Instant.nanos_after]
      have hrest := ih (t := (t.tick first.called).2) (Nat.le_of_succ_le_succ hk)
        fun j hj pass hpass => by
          have hcalled := early (j + 1) (Nat.succ_lt_succ hj) pass hpass
          rw [Nat.succ_mul] at hcalled
          rw [hnext, period_tick]
          omega
      rw [List.take_succ_cons, through, hrest, hnext, period_tick, Nat.succ_mul]
      omega

/-! ## The whole run -/

/-- **A loop keeps its pace, and never catches up in a burst.** Whatever the clock allows to a loop
that was begun at a moment with a period of any length: its ticks are back no sooner than one period
after the other since then. Of any two ticks the later one is back at least as many periods after
the call of the earlier one as it comes ticks after it, be the earlier one as late as it may; and
one period less after the earlier one is back, so that any three successive ticks span a period. On
the other hand a tick waits for a period at most, and not at all if it is late; and as long as no
call is late the ticks are to be over exactly at the turns, without any drift. -/
theorem keeps_pace (begun : Instant) (period : Duration) (passes : List Pass)
    (allowed : Allows ⟨period, begun.after period⟩ begun passes) :
    (∀ k pass, passes[k]? = some pass → begun.after ⟨(k + 1) * period.nanos⟩ ≤ pass.back) ∧
    (∀ k m pass later, passes[k]? = some pass → passes[k + m + 1]? = some later →
      pass.called.after ⟨(m + 1) * period.nanos⟩ ≤ later.back ∧
      pass.back.after ⟨m * period.nanos⟩ ≤ later.back) ∧
    ∀ k pass, passes[k]? = some pass →
      let schedule := through ⟨period, begun.after period⟩ (passes.take k)
      let wait := (schedule.tick pass.called).1
      wait ≤ period ∧ (schedule.next ≤ pass.called → wait = .zero) ∧
      ((∀ j ≤ k, ∀ other, passes[j]? = some other →
          other.called < begun.after ⟨(j + 1) * period.nanos⟩) →
        pass.called.after wait = begun.after ⟨(k + 1) * period.nanos⟩) := by
  have hnear : begun.after period ≤ begun.after period := Nat.le_refl _
  have hturn : ∀ k, begun.nanos + period.nanos + k * period.nanos =
      begun.nanos + (k + 1) * period.nanos := fun k => by
    rw [Nat.succ_mul, Nat.add_comm (k * _), Nat.add_assoc]
  refine ⟨fun k pass hpass => ?_, fun k m pass later hpass hlater => ?_, fun k pass hpass => ?_⟩
  · have hback := allowed.next_le hpass
    exact Nat.le_trans (Nat.le_of_eq (hturn k).symm) hback
  · obtain ⟨mid, rest, hleft, -, hothers⟩ := allowed.cut hnear hpass
    rw [hothers] at hlater
    have hcalled := hleft.called_le hlater
    have hback := hleft.back_le hlater
    rw [period_through] at hcalled hback
    exact ⟨hcalled, hback⟩
  · intro schedule wait
    obtain ⟨mid, rest, hleft, hclose, -⟩ := allowed.cut hnear hpass
    refine ⟨?_, fun hlate => ?_, fun early => ?_⟩
    · have hwait := hleft.wait_le (by rw [period_through]; exact hclose)
      rwa [period_through] at hwait
    · have hwait := schedule.wait_tick pass.called
      rw [turn_of_late hlate] at hwait
      exact hwait.trans (congrArg Duration.mk (Nat.sub_self _))
    · have hcalled : ∀ j ≤ k, ∀ other, passes[j]? = some other →
          other.called.nanos < begun.nanos + period.nanos + j * period.nanos :=
        fun j hj other hother => by
          rw [hturn]
          exact early j hj other hother
      have hnext : schedule.next.nanos = begun.nanos + period.nanos + k * period.nanos :=
        next_through_of_early (Nat.le_of_lt (List.getElem?_eq_some_iff.1 hpass).1)
          fun j hj => hcalled j (Nat.le_of_lt hj)
      have hearly : pass.called < schedule.next := by
        show pass.called.nanos < schedule.next.nanos
        rw [hnext]
        exact hcalled k (Nat.le_refl _) pass hpass
      rw [after_wait_tick, turn_of_early hearly]
      exact congrArg Instant.mk (hnext.trans (hturn k))

/-- At two hundred turns a second a loop is early at first, then held up for four turns, and comes
at once the next time: it does not make up for the turns it has missed. -/
theorem keeps_pace_held_up :
    let loop := Ticker.start ⟨0⟩ 200
    let passes : List Pass := [⟨⟨1000000⟩, ⟨5300000⟩⟩, ⟨⟨28000000⟩, ⟨28000000⟩⟩,
      ⟨⟨28000001⟩, ⟨33000000⟩⟩]
    loop.Allows ⟨0⟩ passes ∧
      (⟨28000000⟩ : Instant).after loop.period ≤ ⟨33000000⟩ ∧
      (⟨5300000⟩ : Instant).after loop.period ≤ ⟨33000000⟩ := by
  intro loop passes
  have hallowed : loop.Allows ⟨0⟩ passes := by decide
  obtain ⟨-, hspan, -⟩ := keeps_pace ⟨0⟩ (.ofRate 200) passes hallowed
  exact ⟨hallowed, (hspan 1 0 _ _ rfl rfl).1, (hspan 0 1 _ _ rfl rfl).2⟩

end Ticker

end ControlRig
