import Mathlib.Data.Nat.Find
import ControlRig.Timing.Poller

/-!
# When a poll ends

A poll is over at the first probe that decides it, and that is the first one that holds or the first
one that comes when the time is out, whichever is earlier (`Poller.wait_exact`). The clock makes
sure that the second exists: all that is asked of it is that the probes are at least a period apart
and that time goes on beyond every bound (`Poller.Paced`). How many probes there are is then bounded
by the time-out and the period alone.
-/

namespace ControlRig

namespace Poller

variable {p : Poller} {probe : Nat → Bool} {moment : Nat → Instant}

/-- The time that has passed when an iteration probes. -/
def elapsed (p : Poller) (moment : Nat → Instant) (i : Nat) : Duration :=
  (moment i).since p.started

/-- **The clock of a poll**: two successive probes are at least a period apart, and time goes on. -/
structure Paced (p : Poller) (moment : Nat → Instant) : Prop where
  apart : ∀ i, p.elapsed moment i + p.period ≤ p.elapsed moment (i + 1)
  unbounded : ∀ d : Duration, ∃ i, d ≤ p.elapsed moment i

/-- An iteration is the first that comes when the time is out. -/
structure FirstLate (p : Poller) (moment : Nat → Instant) (m : Nat) : Prop where
  late : p.timeout ≤ p.elapsed moment m
  first : ∀ i < m, p.elapsed moment i < p.timeout

/-! ## One probe -/

theorem check_of_late {now : Instant} (late : p.timeout ≤ now.since p.started) (ready : Bool) :
    p.check now ready = if ready then .ready else .timedOut := by
  simp [check, late]

theorem check_eq_pending_iff {now : Instant} {ready : Bool} :
    p.check now ready = .pending ↔ ready = false ∧ now.since p.started < p.timeout := by
  cases ready with
  | true => simp [check]
  | false =>
    have hlt : now.since p.started < p.timeout ↔ ¬ p.timeout ≤ now.since p.started :=
      Nat.not_le.symm
    by_cases hlate : p.timeout ≤ now.since p.started <;> simp [check, hlt, hlate]

/-! ## One probe after the other -/

theorem waitFrom_of_pending {i : Nat} (h : p.check (moment i) (probe i) = .pending) (fuel : Nat) :
    p.waitFrom probe moment i (fuel + 1) = p.waitFrom probe moment (i + 1) fuel := by
  rw [waitFrom, h]

theorem waitFrom_of_decided {i : Nat} (h : p.check (moment i) (probe i) ≠ .pending) (fuel : Nat) :
    p.waitFrom probe moment i (fuel + 1) = some (p.check (moment i) (probe i), i + 1) := by
  rw [waitFrom]
  cases hstatus : p.check (moment i) (probe i) with
  | pending => exact absurd hstatus h
  | ready | timedOut => rfl

/-- A poll ends with the first iteration that decides it, and with nothing if it is cut short. -/
theorem waitFrom_eq {last : Nat} (decided : p.check (moment last) (probe last) ≠ .pending)
    (pending : ∀ i < last, p.check (moment i) (probe i) = .pending) {i : Nat} (hi : i ≤ last)
    (fuel : Nat) :
    p.waitFrom probe moment i fuel =
      if last < i + fuel then some (p.check (moment last) (probe last), last + 1) else none := by
  induction fuel generalizing i with
  | zero => exact (if_neg (Nat.not_lt.2 hi)).symm
  | succ fuel ih =>
    rcases Nat.lt_or_eq_of_le hi with hlt | rfl
    · rw [waitFrom_of_pending (pending i hlt), ih hlt, Nat.succ_add_eq_add_succ]
    · rw [waitFrom_of_decided decided, if_pos (Nat.lt_add_of_pos_right fuel.succ_pos)]

/-! ## The clock -/

theorem Paced.exists_firstLate (paced : p.Paced moment) : ∃ m, p.FirstLate moment m :=
  have hlate := paced.unbounded p.timeout
  ⟨Nat.find hlate, Nat.find_spec hlate, fun _ hi => Nat.not_le.1 (Nat.find_min hlate hi)⟩

/-- After so many iterations so many periods have passed. -/
theorem Paced.mul_period_le (paced : p.Paced moment) (i : Nat) :
    i * p.period.nanos ≤ (p.elapsed moment i).nanos := by
  induction i with
  | zero => simp
  | succ i ih =>
    rw [Nat.succ_mul]
    exact Nat.le_trans (Nat.add_le_add_right ih _) (paced.apart i)

/-- The time is out after as many periods as there are in it, rounded up. -/
theorem FirstLate.le {m : Nat} (h : p.FirstLate moment m) (paced : p.Paced moment)
    (hperiod : 0 < p.period.nanos) :
    m ≤ (p.timeout.nanos + p.period.nanos - 1) / p.period.nanos := by
  rw [Nat.le_div_iff_mul_le hperiod]
  cases m with
  | zero => simp
  | succ i =>
    have hbefore : (p.elapsed moment i).nanos < p.timeout.nanos := h.first i (Nat.lt_succ_self i)
    have hpassed := paced.mul_period_le i
    rw [Nat.succ_mul]
    omega

theorem paced_idealMoment (hperiod : 0 < p.period.nanos) : p.Paced p.idealMoment := by
  have helapsed : ∀ i, p.elapsed p.idealMoment i = ⟨i * p.period.nanos⟩ :=
    fun i => Instant.since_after _ _
  refine ⟨fun i => ?_, fun d => ⟨d.nanos, ?_⟩⟩
  · rw [helapsed, helapsed, Nat.succ_mul]
    exact Nat.le_refl _
  · rw [helapsed]
    exact Nat.le_mul_of_pos_right _ hperiod

/-! ## The whole poll -/

/-- The last probe of a poll is one that holds, or the one that comes when the time is out. -/
theorem FirstLate.exists_last {m : Nat} (h : p.FirstLate moment m) (probe : Nat → Bool) :
    ∃ last ≤ m, (∀ i < last, probe i = false) ∧ (probe last = true ∨ last = m) ∧
      ∀ fuel, p.wait probe moment fuel =
        if last + 1 ≤ fuel then some (if probe last then .ready else .timedOut, last + 1)
        else none := by
  have hlate : p.check (moment m) (probe m) ≠ .pending := fun hpending =>
    Nat.not_lt.2 h.late (check_eq_pending_iff.1 hpending).2
  obtain ⟨last, hdecided, hpending⟩ : ∃ last, p.check (moment last) (probe last) ≠ .pending ∧
      ∀ i < last, p.check (moment i) (probe i) = .pending := by
    have hex : ∃ i, p.check (moment i) (probe i) ≠ .pending := ⟨m, hlate⟩
    exact ⟨Nat.find hex, Nat.find_spec hex, fun i hi => Decidable.not_not.1 (Nat.find_min hex hi)⟩
  have hle : last ≤ m := Nat.not_lt.1 fun hlt => hlate (hpending m hlt)
  have hlast : probe last = true ∨ last = m := by
    rcases Nat.lt_or_eq_of_le hle with hlt | heq
    · -- it is not the time that decides
      refine .inl (Bool.of_not_eq_false fun hfalse => ?_)
      exact hdecided (check_eq_pending_iff.2 ⟨hfalse, h.first last hlt⟩)
    · exact .inr heq
  have hstatus : p.check (moment last) (probe last) =
      if probe last then .ready else .timedOut := by
    rcases hlast with hheld | rfl
    · rw [check, if_pos hheld, if_pos hheld]
    · exact check_of_late h.late _
  refine ⟨last, hle, fun i hi => (check_eq_pending_iff.1 (hpending i hi)).1, hlast, fun fuel => ?_⟩
  rw [wait, waitFrom_eq hdecided hpending (Nat.zero_le _), Nat.zero_add, hstatus]
  rfl

/-- **A poll ends, and tells whether a probe has held in the time that was given.** On a clock that
goes on, with probes at least a period apart, let `m` be the first iteration that comes when the
time is out. The poll is ready exactly if one of the probes up to that one holds, that one included,
and is out of time otherwise. It probes until then and not longer, at least once, and at most once
more than there are periods in the time-out, rounded up. -/
theorem wait_exact (p : Poller) (probe : Nat → Bool) (moment : Nat → Instant)
    (paced : p.Paced moment) :
    ∃ m, p.FirstLate moment m ∧ ∃ status probes,
      (∀ fuel, p.wait probe moment fuel =
        if probes ≤ fuel then some (status, probes) else none) ∧
      (status = .ready ∨ status = .timedOut) ∧
      (status = .ready ↔ ∃ i ≤ m, probe i = true) ∧
      (∀ k, probe k = true → (∀ i < k, probe i = false) → probes = min k m + 1) ∧
      ((∀ i, probe i = false) → probes = m + 1) ∧
      (0 < p.period.nanos →
        probes ≤ (p.timeout.nanos + p.period.nanos - 1) / p.period.nanos + 1 ∧
        probes ≤ p.iterations) := by
  obtain ⟨m, hm⟩ := paced.exists_firstLate
  obtain ⟨last, hle, hnone, hlast, hwait⟩ := hm.exists_last probe
  have hfirst : ∀ k, probe k = true → last ≤ k := fun k hk =>
    Nat.not_lt.1 fun hlt => Bool.eq_false_iff.1 (hnone k hlt) hk
  refine ⟨m, hm, _, last + 1, hwait, ?_, ?_, fun k hk hbefore => ?_, fun hall => ?_,
    fun hperiod => ?_⟩
  · split
    · exact .inl rfl
    · exact .inr rfl
  · by_cases hheld : probe last = true
    · rw [if_pos hheld]
      exact iff_of_true rfl ⟨last, hle, hheld⟩
    · rw [if_neg hheld]
      refine iff_of_false PollStatus.noConfusion ?_
      rintro ⟨i, hi, hprobe⟩
      -- then the poll has gone on until the time was out, and has not seen it
      obtain rfl : last = m := hlast.resolve_left hheld
      obtain rfl : last = i := Nat.le_antisymm (hfirst i hprobe) hi
      exact hheld hprobe
  · rcases hlast with hheld | rfl
    · obtain rfl : last = k :=
        Nat.le_antisymm (hfirst k hk)
          (Nat.not_lt.1 fun hlt => Bool.eq_false_iff.1 (hbefore last hlt) hheld)
      rw [Nat.min_eq_left hle]
    · rw [Nat.min_eq_right (hfirst k hk)]
  · rw [hlast.resolve_left (Bool.eq_false_iff.1 (hall last))]
  · have hprobes := Nat.succ_le_succ (Nat.le_trans hle (hm.le paced hperiod))
    refine ⟨hprobes, Nat.le_trans hprobes (Nat.succ_le_succ ?_)⟩
    rw [max_eq_left hperiod, ← Nat.add_div_right _ hperiod]
    exact Nat.div_le_div_right (Nat.sub_le _ _)

/-- A condition that comes to hold when the time is out already still counts: with probes every two
nanoseconds and five to wait, the fourth probe is the last. -/
theorem wait_exact_late_success :
    let p : Poller := ⟨⟨7⟩, ⟨5⟩, ⟨2⟩⟩
    p.Paced p.idealMoment ∧
      ∀ fuel, p.wait (fun i => decide (3 ≤ i)) p.idealMoment fuel =
        if 4 ≤ fuel then some (.ready, 4) else none := by
  intro p
  have hpaced : p.Paced p.idealMoment := paced_idealMoment (by decide)
  refine ⟨hpaced, fun fuel => ?_⟩
  obtain ⟨m, hm, status, probes, hwait, -, hready, hprobes, -⟩ :=
    wait_exact p (fun i => decide (3 ≤ i)) p.idealMoment hpaced
  have hthree : 3 ≤ m := by
    have hlate := hm.late
    rw [elapsed, idealMoment, Instant.since_after] at hlate
    have hpassed : 5 ≤ m * 2 := hlate
    omega
  have hlast : probes = min 3 m + 1 := hprobes 3 (by decide) (by decide)
  rw [hwait, hready.2 ⟨3, hthree, by decide⟩, hlast, Nat.min_eq_left hthree]

end Poller

end ControlRig
