import ControlRig.Timing.Throttle

/-!
# What a throttle lets through

A throttle remembers nothing but the last call that it let through. On a clock that does not go back
that is enough: who is a period away from the last is a period away from all, so the throttle makes
the same choice as one that compares every call with all that were taken before it
(`Throttle.greedy`). And to take every call as soon as it can be taken is the best that can be done:
whatever else is chosen with the same distances, each of its calls comes no sooner than its
counterpart here (`Throttle.chooses_greedily`).

All this is said along the course of a run (`Throttle.Course`), which has two kinds of steps.
-/

namespace ControlRig

namespace Throttle

/-- Calls and their answers, after a last call that was let through, if there was one. A call is let
through if it is a period after the last one, and is the last one then. -/
inductive Course (period : Duration) : Option Instant → List Instant → List Bool → Prop where
  | done (last : Option Instant) : Course period last [] []
  | through {last : Option Instant} {now : Instant} {rest : List Instant} {answers : List Bool} :
    (∀ l ∈ last, l.after period ≤ now) → (∀ later ∈ rest, now ≤ later) →
    Course period (some now) rest answers → Course period last (now :: rest) (true :: answers)
  | held {last now : Instant} {rest : List Instant} {answers : List Bool} :
    now < last.after period → Course period (some last) rest answers →
    Course period (some last) (now :: rest) (false :: answers)

/-- The choice that takes every call which is a period after all that were taken before it. -/
def greedy (period : Duration) (taken : List Instant) : List Instant → List Bool
  | [] => []
  | now :: rest =>
    if ∀ earlier ∈ taken, earlier.after period ≤ now then
      true :: greedy period (now :: taken) rest
    else false :: greedy period taken rest

/-- A call is less than a period after the last one before it that was let through. -/
def HeldBy (period : Duration) (moments : List Instant) (answers : List Bool) (j : Nat)
    (now : Instant) : Prop :=
  ∃ i < j, ∃ earlier, moments[i]? = some earlier ∧ answers[i]? = some true ∧
    now < earlier.after period ∧ ∀ k, i < k → k < j → answers[k]? = some false

variable {period : Duration} {last : Option Instant} {moments : List Instant} {answers : List Bool}

/-! ## The course of a run -/

theorem ready_of_last {t : Throttle} {l now : Instant} (hlast : t.last = some l) (hl : l ≤ now) :
    (l.after t.period ≤ now ∧ t.ready now = (true, { t with last := some now })) ∨
      (now < l.after t.period ∧ t.ready now = (false, t)) := by
  have hnow : l.nanos ≤ now.nanos := hl
  unfold ready
  rw [hlast]
  by_cases hsoon : now.since l < t.period
  · have hnanos : now.nanos - l.nanos < t.period.nanos := hsoon
    refine .inr ⟨?_, by simp only [if_pos hsoon]⟩
    show now.nanos < l.nanos + t.period.nanos
    omega
  · have hnanos : ¬ now.nanos - l.nanos < t.period.nanos := hsoon
    refine .inl ⟨?_, by simp only [if_neg hsoon]⟩
    show l.nanos + t.period.nanos ≤ now.nanos
    omega

/-- On a clock that does not go back every run takes its course. -/
theorem course_run (t : Throttle) (onward : (t.last.toList ++ moments).Pairwise (· ≤ ·)) :
    Course t.period t.last moments (t.run moments) := by
  induction moments generalizing t with
  | nil => exact .done _
  | cons now rest ih =>
    have hrest : (now :: rest).Pairwise (· ≤ ·) := (List.pairwise_append.1 onward).2.1
    have hlater := (List.pairwise_cons.1 hrest).1
    rw [run]
    cases hlast : t.last with
    | none =>
      have hready : t.ready now = (true, { t with last := some now }) := by
        unfold ready
        rw [hlast]
      rw [hready]
      refine .through (fun l hl => ?_) hlater (ih { t with last := some now } hrest)
      cases hl
    | some l =>
      rw [hlast] at onward
      have honward : (l :: now :: rest).Pairwise (· ≤ ·) := onward
      have hl := (List.pairwise_cons.1 honward).1 now List.mem_cons_self
      rcases ready_of_last hlast hl with ⟨happart, hready⟩ | ⟨hsoon, hready⟩
      · rw [hready]
        refine .through (fun l' hl' => ?_) hlater (ih { t with last := some now } hrest)
        cases hl'
        exact happart
      · rw [hready]
        have hcourse := ih t (by
          rw [hlast]
          exact honward.sublist (.cons_cons l (List.sublist_cons_self now rest)))
        rw [hlast] at hcourse
        exact .held hsoon hcourse

/-! ## Distances -/

/-- What is let through is a period after what was let through last. -/
theorem Course.after_last (h : Course period last moments answers) {j : Nat} {b : Instant}
    (hb : moments[j]? = some b) (hthrough : answers[j]? = some true) :
    ∀ l ∈ last, l.after period ≤ b := by
  induction h generalizing j with
  | done => cases hb
  | @through last now rest answers happart _ _ ih =>
    intro l hl
    have hnow : l.nanos + period.nanos ≤ now.nanos := happart l hl
    cases j with
    | zero =>
      cases hb
      exact hnow
    | succ j =>
      have hlater : now.nanos + period.nanos ≤ b.nanos := ih hb hthrough now rfl
      show l.nanos + period.nanos ≤ b.nanos
      omega
  | held _ _ ih =>
    cases j with
    | zero => cases hthrough
    | succ j => exact ih hb hthrough

/-- Any two calls that are let through are a period apart. -/
theorem Course.apart (h : Course period last moments answers) {i j : Nat} (hij : i < j)
    {a b : Instant} (ha : moments[i]? = some a) (hb : moments[j]? = some b)
    (hfirst : answers[i]? = some true) (hsecond : answers[j]? = some true) :
    a.after period ≤ b := by
  induction h generalizing i j with
  | done => cases ha
  | through _ _ hrest ih =>
    obtain ⟨j, rfl⟩ := Nat.exists_eq_add_one_of_ne_zero (Nat.ne_zero_of_lt hij)
    cases i with
    | zero =>
      cases ha
      exact hrest.after_last hb hsecond a rfl
    | succ i => exact ih (Nat.lt_of_succ_lt_succ hij) ha hb hfirst hsecond
  | held _ _ ih =>
    obtain ⟨j, rfl⟩ := Nat.exists_eq_add_one_of_ne_zero (Nat.ne_zero_of_lt hij)
    cases i with
    | zero => cases hfirst
    | succ i => exact ih (Nat.lt_of_succ_lt_succ hij) ha hb hfirst hsecond

theorem HeldBy.cons {j : Nat} {b : Instant} (h : HeldBy period moments answers j b)
    (first : Instant) (answer : Bool) :
    HeldBy period (first :: moments) (answer :: answers) (j + 1) b := by
  obtain ⟨i, hi, a, ha, hlet, hsoon, hbetween⟩ := h
  refine ⟨i + 1, Nat.succ_lt_succ hi, a, ha, hlet, hsoon, fun k hk hkj => ?_⟩
  obtain ⟨k, rfl⟩ := Nat.exists_eq_add_one_of_ne_zero (Nat.ne_zero_of_lt hk)
  exact hbetween k (Nat.lt_of_succ_lt_succ hk) (Nat.lt_of_succ_lt_succ hkj)

/-- What is held back comes less than a period after the call that was let through last, which is
one of the run or the one that was the last before it. -/
theorem Course.heldBy (h : Course period last moments answers) {j : Nat} {b : Instant}
    (hb : moments[j]? = some b) (hheld : answers[j]? = some false) :
    (∃ l ∈ last, b < l.after period ∧ ∀ k < j, answers[k]? = some false) ∨
      HeldBy period moments answers j b := by
  induction h generalizing j with
  | done => cases hb
  | @through last now rest answers _ _ _ ih =>
    cases j with
    | zero => cases hheld
    | succ j =>
      rcases ih hb hheld with ⟨l, hl, hsoon, hbetween⟩ | hrest
      · -- it is this call that is remembered
        cases hl
        refine .inr ⟨0, j.succ_pos, now, rfl, rfl, hsoon, fun k hk hkj => ?_⟩
        obtain ⟨k, rfl⟩ := Nat.exists_eq_add_one_of_ne_zero (Nat.ne_zero_of_lt hk)
        exact hbetween k (Nat.lt_of_succ_lt_succ hkj)
      · exact .inr (hrest.cons now true)
  | @held l now rest answers hnow _ ih =>
    cases j with
    | zero =>
      cases hb
      exact .inl ⟨l, rfl, hnow, fun k hk => absurd hk k.not_lt_zero⟩
    | succ j =>
      rcases ih hb hheld with ⟨l', hl, hsoon, hbetween⟩ | hrest
      · refine .inl ⟨l', hl, hsoon, fun k hk => ?_⟩
        cases k with
        | zero => rfl
        | succ k => exact hbetween k (Nat.lt_of_succ_lt_succ hk)
      · exact .inr (hrest.cons now false)

/-! ## The choice -/

/-- Distance from the last one is distance from all. -/
theorem Course.eq_greedy (h : Course period last moments answers) {taken : List Instant}
    (hlast : last = taken.head?) (hlatest : ∀ earlier ∈ taken, ∀ l ∈ last, earlier ≤ l) :
    answers = greedy period taken moments := by
  induction h generalizing taken with
  | done => rfl
  | @through last now rest answers hlet _ _ ih =>
    have hall : ∀ earlier ∈ taken, earlier.after period ≤ now := by
      cases taken with
      | nil => exact fun _ hmem => absurd hmem List.not_mem_nil
      | cons l others =>
        subst hlast
        intro earlier hmem
        have hearlier : earlier.nanos ≤ l.nanos := hlatest earlier hmem l rfl
        exact Nat.le_trans (Nat.add_le_add_right hearlier _) (hlet l rfl)
    have hbefore : ∀ earlier ∈ now :: taken, earlier ≤ now := by
      intro earlier hmem
      rcases List.mem_cons.1 hmem with rfl | hmem
      · exact Nat.le_refl _
      · exact Nat.le_trans (Nat.le_add_right _ _) (hall earlier hmem)
    have hrest : answers = greedy period (now :: taken) rest :=
      ih rfl fun earlier hmem l hl => by
        cases hl
        exact hbefore earlier hmem
    rw [greedy, if_pos hall, hrest]
  | @held l now rest answers hnow _ ih =>
    have hsome : ¬ ∀ earlier ∈ taken, earlier.after period ≤ now := fun hall =>
      absurd (hall l (List.mem_of_mem_head? hlast.symm)) (Nat.not_le.2 hnow)
    rw [greedy, if_neg hsome, ih hlast hlatest]

/-- No choice with the same distances has more calls, if it too begins a period after the last. -/
theorem Course.length_le (h : Course period last moments answers) {chosen : List Instant}
    (hchosen : chosen.Sublist moments) (happart : chosen.Pairwise fun a b => a.after period ≤ b)
    (hlast : ∀ c ∈ chosen, ∀ l ∈ last, l.after period ≤ c) :
    chosen.length ≤ answers.count true := by
  induction h generalizing chosen with
  | done =>
    rw [List.sublist_nil.1 hchosen]
    exact Nat.zero_le _
  | @through last now rest answers _ hlater _ ih =>
    cases chosen with
    | nil => exact Nat.zero_le _
    | cons c others =>
      -- the first of the chosen ones comes no sooner than the first that is let through
      have hnow : now.nanos ≤ c.nanos := by
        rcases List.mem_cons.1 (hchosen.subset List.mem_cons_self) with rfl | hc
        · exact Nat.le_refl _
        · exact hlater c hc
      obtain ⟨hfirst, hothers⟩ := List.pairwise_cons.1 happart
      have hrest := ih hchosen.tail hothers fun d hd l hl => by
        cases hl
        have hdistance : c.nanos + period.nanos ≤ d.nanos := hfirst d hd
        show now.nanos + period.nanos ≤ d.nanos
        omega
      rw [List.length_cons, List.count_cons_self]
      exact Nat.succ_le_succ hrest
  | @held l now rest answers hsoon _ ih =>
    have hskipped : chosen.Sublist rest := by
      rcases List.sublist_cons_iff.1 hchosen with hrest | ⟨others, rfl, -⟩
      · exact hrest
      · exact absurd (hlast now List.mem_cons_self l rfl) (Nat.not_le.2 hsoon)
    rw [List.count_cons_of_ne Bool.false_ne_true]
    exact ih hskipped happart hlast

theorem ready_of_held {t : Throttle} {now : Instant} (h : (t.ready now).1 = false) :
    (t.ready now).2 = t := by
  unfold ready at h ⊢
  split at h
  · split at h
    · next hsoon => rw [if_pos hsoon]
    · cases h
  · cases h

/-- A call that is held back leaves no trace. -/
theorem run_eraseIdx (t : Throttle) {j : Nat} (hheld : (t.run moments)[j]? = some false) :
    t.run (moments.eraseIdx j) = (t.run moments).eraseIdx j := by
  induction moments generalizing t j with
  | nil => rfl
  | cons now rest ih =>
    cases j with
    | zero =>
      have hnow : (t.ready now).1 = false := Option.some.inj hheld
      rw [List.eraseIdx_cons_zero, run, List.eraseIdx_cons_zero, ready_of_held hnow]
    | succ j =>
      rw [List.eraseIdx_cons_succ, run, run, List.eraseIdx_cons_succ, ih _ hheld]

/-! ## The whole run -/

/-- **A throttle lets through what a greedy choice would take, and no choice takes more.** On a clock
that does not go back the first call is let through; any two calls that are let through are at least
a period apart, and one that is held back comes less than a period after the call that was let
through last. So the answers are those of the greedy choice. A call that is held back might as well
not have been made: the others are answered as without it. And of the same calls no selection whose
calls are a period apart has more of them. -/
theorem chooses_greedily (period : Duration) (moments : List Instant)
    (onward : moments.Pairwise (· ≤ ·)) :
    let answers := (start period).run moments
    (moments ≠ [] → answers.head? = some true) ∧
    (∀ (i j : Nat) (a b : Instant), i < j → moments[i]? = some a → moments[j]? = some b →
      answers[i]? = some true → answers[j]? = some true → a.after period ≤ b) ∧
    (∀ j b, moments[j]? = some b → answers[j]? = some false →
      HeldBy period moments answers j b) ∧
    answers = greedy period [] moments ∧
    (∀ j, answers[j]? = some false →
      (start period).run (moments.eraseIdx j) = answers.eraseIdx j) ∧
    ∀ chosen : List Instant, chosen.Sublist moments →
      (chosen.Pairwise fun a b => a.after period ≤ b) →
      chosen.length ≤ answers.count true := by
  intro answers
  have hcourse : Course period none moments answers := course_run (start period) onward
  refine ⟨fun hsome => ?_, fun i j a b hij => hcourse.apart hij, fun j b hb hheld => ?_,
    hcourse.eq_greedy rfl fun _ hmem => absurd hmem List.not_mem_nil,
    fun j => run_eraseIdx (start period), fun chosen hchosen happart => ?_⟩
  · cases moments with
    | nil => exact absurd rfl hsome
    | cons now rest => rfl
  · rcases hcourse.heldBy hb hheld with ⟨l, hl, -⟩ | hlast
    · cases hl
    · exact hlast
  · exact hcourse.length_le hchosen happart fun c _ l hl => by cases hl

/-- Ten nanoseconds apart: a call at the very end of the period is let through, and one just before
it is held back without putting that off. -/
theorem chooses_greedily_at_the_end :
    let moments : List Instant := [⟨3⟩, ⟨12⟩, ⟨13⟩, ⟨13⟩, ⟨22⟩, ⟨40⟩]
    let answers := [true, false, true, false, false, true]
    moments.Pairwise (· ≤ ·) ∧ (start ⟨10⟩).run moments = answers ∧
      ∀ chosen : List Instant, chosen.Sublist moments →
        (chosen.Pairwise fun a b => a.after ⟨10⟩ ≤ b) → chosen.length ≤ 3 := by
  intro moments answers
  have honward : moments.Pairwise (· ≤ ·) := by decide
  obtain ⟨-, -, -, hgreedy, -, hmost⟩ := chooses_greedily ⟨10⟩ moments honward
  exact ⟨honward, hgreedy.trans (by decide), hmost⟩

end Throttle

end ControlRig
