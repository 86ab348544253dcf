import ControlRig.Proofs.TaskPool
import Mathlib.Data.List.Induction

/-!
# How many workers are alive

The ceiling of a pool bounds each start on its own: workers of an earlier start that are still alive
are not counted. So a pool that is started once between two finishes keeps to its ceiling, and one
that is started again while they are at work has more workers than that (`crew_outgrows_ceiling`). What
holds without exception is that there are no more than all starts since the last finish may have
spawned together, and that the ceiling is kept to exactly if no start oversteps it with the workers
that are alive (`crew_within_bounds`).
-/

namespace ControlRig.TaskPool

/-- How many workers there may be after a move, by how many there may be before it. -/
def Move.crew (ceiling alive : Nat) : Move → Nat
  | .start wanted => alive + min wanted ceiling
  | .finished => 0
  | _ => alive

/-- How many workers may have been spawned since the pool was finished last. -/
def hired (ceiling : Nat) (moves : List Move) : Nat := moves.foldl (Move.crew ceiling) 0

/-- How many starts there have been after a move, by how many there were before it. -/
def Move.startsAfter (count : Nat) : Move → Nat
  | .start _ => count + 1
  | .finished => 0
  | _ => count

/-- How often the pool has been started since it was finished last. -/
def starts (moves : List Move) : Nat := moves.foldl Move.startsAfter 0

/-- No start of a run oversteps the ceiling together with the workers that are alive already. -/
def Fits (p : TaskPool) (moves : List Move) : Prop :=
  ∀ front wanted q, front ++ [.start wanted] <+: moves → p.run? front = some q →
    q.workers.length + min wanted q.ceiling ≤ q.ceiling

variable {p q : TaskPool} {move : Move} {moves : List Move}

/-! ## One move -/

theorem length_workers_start (p : TaskPool) (wanted : Nat) :
    (p.start wanted).workers.length = p.workers.length + min wanted p.ceiling := by
  rw [TaskPool.start, List.length_append, List.length_replicate, spawnable]

theorem Steps.ceiling_eq (h : Steps p move q) : q.ceiling = p.ceiling := by
  cases h <;> rfl

/-- Only a start adds workers, and who says that the pool is finished has none. -/
theorem Steps.length_workers_le (h : Steps p move q) :
    q.workers.length ≤ move.crew p.ceiling p.workers.length := by
  cases h with
  | queue | finish | runLeft => exact Nat.le_refl _
  | start wanted => exact Nat.le_of_eq (p.length_workers_start wanted)
  | finished _ hworkers =>
    show p.workers.length ≤ 0
    rw [hworkers]
    exact Nat.le_refl _
  | take hworkers | leave hworkers | run hworkers =>
    show _ ≤ p.workers.length
    simp [hworkers]

theorem Move.crew_mono (move : Move) (ceiling : Nat) {n m : Nat} (h : n ≤ m) :
    move.crew ceiling n ≤ move.crew ceiling m := by
  cases move with
  | start wanted => exact Nat.add_le_add_right h _
  | finished => exact Nat.le_refl _
  | queue | finish | runLeft | take | run => exact h

/-! ## One move after the other -/

theorem run?_concat (p : TaskPool) (moves : List Move) (move : Move) :
    p.run? (moves ++ [move]) = (p.run? moves).bind (·.step? move) := by
  rw [run?_append]
  refine congrArg _ (funext fun mid => ?_)
  rw [run?]
  cases mid.step? move <;> rfl

theorem ceiling_of_run? (hrun : p.run? moves = some q) : q.ceiling = p.ceiling := by
  induction moves generalizing p with
  | nil =>
    cases hrun
    rfl
  | cons move rest ih =>
    obtain ⟨next, hstep, hrest⟩ := Option.bind_eq_some_iff.1 hrun
    exact (ih hrest).trans (steps_of_step? hstep).ceiling_eq

/-- A run adds no more workers than its starts. -/
theorem length_workers_le_of_run? {n : Nat} (hn : p.workers.length ≤ n)
    (hrun : p.run? moves = some q) :
    q.workers.length ≤ moves.foldl (Move.crew p.ceiling) n := by
  induction moves generalizing p n with
  | nil =>
    cases hrun
    exact hn
  | cons move rest ih =>
    obtain ⟨next, hstep, hrest⟩ := Option.bind_eq_some_iff.1 hrun
    have hsteps := steps_of_step? hstep
    have hnext : next.workers.length ≤ move.crew p.ceiling n :=
      Nat.le_trans hsteps.length_workers_le (move.crew_mono p.ceiling hn)
    have hcrew := ih hnext hrest
    rwa [hsteps.ceiling_eq] at hcrew

theorem hired_concat (ceiling : Nat) (moves : List Move) (move : Move) :
    hired ceiling (moves ++ [move]) = move.crew ceiling (hired ceiling moves) := by
  rw [hired, List.foldl_append]
  rfl

theorem starts_concat (moves : List Move) (move : Move) :
    starts (moves ++ [move]) = move.startsAfter (starts moves) := by
  rw [starts, List.foldl_append]
  rfl

/-- A start spawns no more than the ceiling. -/
theorem hired_le (ceiling : Nat) (moves : List Move) :
    hired ceiling moves ≤ starts moves * ceiling := by
  induction moves using List.reverseRecOn with
  | nil => exact Nat.zero_le _
  | append_singleton moves move ih =>
    rw [hired_concat, starts_concat]
    cases move with
    | start wanted =>
      rw [Move.startsAfter, Nat.succ_mul]
      exact Nat.add_le_add ih (Nat.min_le_right _ _)
    | finished => exact Nat.zero_le _
    | queue | finish | runLeft | take | run => exact ih

theorem Fits.front {front : List Move} (h : p.Fits moves) (hfront : front <+: moves) :
    p.Fits front :=
  fun other wanted q hother => h other wanted q (hother.trans hfront)

/-- A run in which every start fits keeps to the ceiling. -/
theorem Fits.length_workers_le (h : p.Fits moves) (hcrew : p.workers.length ≤ p.ceiling)
    (hrun : p.run? moves = some q) : q.workers.length ≤ p.ceiling := by
  induction moves using List.reverseRecOn generalizing q with
  | nil =>
    cases hrun
    exact hcrew
  | append_singleton moves move ih =>
    rw [run?_concat, Option.bind_eq_some_iff] at hrun
    obtain ⟨mid, hmid, hstep⟩ := hrun
    have halive := ih (h.front (List.prefix_append moves [move])) hmid
    have hnext := (steps_of_step? hstep).length_workers_le
    cases move with
    | start wanted =>
      have hfits := h moves wanted mid (List.prefix_refl _) hmid
      rw [ceiling_of_run? hmid] at hfits hnext
      exact Nat.le_trans hnext hfits
    | finished => exact Nat.le_trans hnext (Nat.zero_le _)
    | queue | finish | runLeft | take | run => exact Nat.le_trans hnext halive

/-- And a run that keeps to the ceiling has no start that does not fit. -/
theorem fits_of_bounded (hrun : (p.run? moves).isSome = true)
    (h : ∀ front q, front <+: moves → p.run? front = some q → q.workers.length ≤ q.ceiling) :
    p.Fits moves := by
  intro front wanted q hfront hq
  obtain ⟨rest, rfl⟩ := hfront
  obtain ⟨last, hlast⟩ := Option.isSome_iff_exists.1 hrun
  rw [run?_append, Option.bind_eq_some_iff] at hlast
  obtain ⟨next, hnext, -⟩ := hlast
  have hbound := h _ next (List.prefix_append _ rest) hnext
  rw [run?_concat, hq, Option.bind_some] at hnext
  cases steps_of_step? hnext with
  | start => rwa [length_workers_start] at hbound

/-- Where nothing but starts is done all of their workers are alive. -/
theorem exists_run?_starts (hworking : p.finishing = false) (wanted : List Nat) :
    ∃ q, p.run? (wanted.map .start) = some q ∧
      q.workers.length = (wanted.map .start).foldl (Move.crew p.ceiling) p.workers.length := by
  induction wanted generalizing p with
  | nil => exact ⟨p, rfl, rfl⟩
  | cons n rest ih =>
    obtain ⟨q, hrun, hlength⟩ := ih (p := p.start n) hworking
    refine ⟨q, ?_, ?_⟩
    · rw [List.map_cons, run?, step?_of_steps (.start n hworking)]
      exact hrun
    · rw [hlength, length_workers_start]
      rfl

/-! ## The whole run -/

/-- **A pool has no more workers than its starts since the last finish may have spawned, each of
them up to the ceiling.** So with one start since then the ceiling is kept. In general it is kept to
all along a run exactly if no start oversteps it together with the workers that are alive. And that
much can come about: workers that have not yet made a move are alive, so for any starts there is a
run with all their workers. -/
theorem crew_within_bounds {maxWorkers : Nat} {moves : List Move} {p : TaskPool}
    (hrun : (fresh maxWorkers).run? moves = some p) :
    let ceiling := max 1 maxWorkers
    p.workers.length ≤ hired ceiling moves ∧
    hired ceiling moves ≤ starts moves * ceiling ∧
    ((∀ front q, front <+: moves → (fresh maxWorkers).run? front = some q →
        q.workers.length ≤ ceiling) ↔ (fresh maxWorkers).Fits moves) ∧
    ∀ wanted : List Nat, ∃ q, (fresh maxWorkers).run? (wanted.map .start) = some q ∧
      q.workers.length = hired ceiling (wanted.map .start) := by
  intro ceiling
  have hceiling : ∀ {front q}, (fresh maxWorkers).run? front = some q → q.ceiling = ceiling :=
    fun hq => ceiling_of_run? hq
  refine ⟨length_workers_le_of_run? (Nat.le_refl 0) hrun, hired_le ceiling moves,
    ⟨fun hbound => ?_, fun hfits front q hfront hq => ?_⟩, fun wanted => ?_⟩
  · refine fits_of_bounded (Option.isSome_iff_exists.2 ⟨p, hrun⟩) fun front q hfront hq => ?_
    rw [hceiling hq]
    exact hbound front q hfront hq
  · exact (hfits.front hfront).length_workers_le (Nat.zero_le _) hq
  · exact exists_run?_starts rfl wanted

/-- A pool of two at most is started twice, the second time when one worker has left. -/
theorem crew_within_bounds_started_twice :
    let moves : List Move := [.start 5, .take 0, .queue (.ends true), .start 5]
    let p : TaskPool := ⟨2, 1, [⟨0, .ends true⟩], [.free, .free, .free], 4, [], false⟩
    (fresh 2).run? moves = some p ∧ p.workers.length ≤ 4 ∧ ¬ (fresh 2).Fits moves := by
  intro moves p
  have hrun : (fresh 2).run? moves = some p := by decide
  obtain ⟨hhired, -, hfits, -⟩ := crew_within_bounds hrun
  refine ⟨hrun, hhired, fun h => ?_⟩
  exact absurd (hfits.2 h moves p (List.prefix_refl _) hrun) (by decide)

/-- **The ceiling does not bound the pool.** A pool of one worker at most has two at work: it is
started again while the first one is busy, and both have taken a task. -/
theorem crew_outgrows_ceiling :
    ∃ p, (fresh 1).run? [.queue (.ends true), .queue (.ends true), .start 1, .take 0, .start 1,
        .take 1] = some p ∧
      p.workers = [.busy ⟨0, .ends true⟩, .busy ⟨1, .ends true⟩] ∧
      ¬ p.workers.length ≤ max 1 1 :=
  ⟨⟨1, 2, [], [.busy ⟨0, .ends true⟩, .busy ⟨1, .ends true⟩], 2, [], false⟩, by decide, rfl,
    by decide⟩

end ControlRig.TaskPool
