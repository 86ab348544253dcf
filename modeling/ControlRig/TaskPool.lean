/-!
# A pool of workers

Tasks are queued first; then workers are spawned that take them from the queue one by one, oldest
first, and leave when the queue is empty; finally the pool is finished: the workers are waited for,
and what is still in the queue then is run by the owner of the pool. A task that crashes counts as
one that says no, and disturbs no other.

The pool is a machine whose moves are those of the owner and those of every worker, in any order
(`TaskPool.step?`). The owner is either at work or finishing; while it is finishing it makes no move
but to run what the workers have left and, when there is nothing left, to go back to work.
-/

namespace ControlRig

namespace TaskPool

/-- A task, by what happens when it is run. -/
inductive Task where
  | ends (verdict : Bool)
  | crashes
  deriving DecidableEq, Repr

/-- What a task counts as. -/
def Task.verdict : Task → Bool
  | .ends verdict => verdict
  | .crashes => false

/-- A task with its number in the order of queueing. -/
structure Job where
  number : Nat
  task : Task
  deriving DecidableEq, Repr

/-- What a worker does. -/
inductive Worker where
  /-- It is about to take a job. -/
  | free
  | busy (job : Job)
  deriving DecidableEq, Repr

end TaskPool

/-- A pool of workers. -/
structure TaskPool where
  /-- The most workers that are spawned at once. -/
  ceiling : Nat
  /-- How many tasks have been queued so far. -/
  queued : Nat
  /-- The queue, oldest first. -/
  waiting : List TaskPool.Job
  /-- The workers that are alive. -/
  workers : List TaskPool.Worker
  /-- How many workers have been spawned so far. -/
  spawned : Nat
  /-- The jobs that have been run, in the order of running. -/
  ran : List TaskPool.Job
  /-- Whether the owner is finishing the pool. -/
  finishing : Bool
  deriving DecidableEq, Repr

namespace TaskPool

/-- A pool without tasks that spawns at most so many workers at once, but one in any case. -/
def fresh (maxWorkers : Nat) : TaskPool := ⟨max 1 maxWorkers, 0, [], [], 0, [], false⟩

/-- Queue a task. -/
def queue (p : TaskPool) (task : Task) : TaskPool :=
  { p with queued := p.queued + 1, waiting := p.waiting ++ [⟨p.queued, task⟩] }

/-- How many workers are spawned when so many are wanted. -/
def spawnable (p : TaskPool) (wanted : Nat) : Nat := min wanted p.ceiling

/-- Spawn workers.

A worker that cannot be spawned is left out: the pool goes on without it, as it would had one worker
less been wanted. Any number may be wanted, so a start that spawns fewer than it should is among the
starts there are, as one that wants no more than it spawns. -/
def start (p : TaskPool) (wanted : Nat) : TaskPool :=
  { p with
    workers := p.workers ++ List.replicate (p.spawnable wanted) .free
    spawned := p.spawned + p.spawnable wanted }

/-! ## The machine -/

/-- A move of the owner or of a worker. -/
inductive Move where
  | queue (task : Task)
  | start (wanted : Nat)
  /-- The owner begins to finish the pool. -/
  | finish
  /-- The owner runs a job that the workers have left. -/
  | runLeft
  /-- The pool is finished. -/
  | finished
  /-- A worker that is free takes a job, or leaves if there is none. -/
  | take (worker : Nat)
  /-- A worker that is busy runs its job. -/
  | run (worker : Nat)
  deriving DecidableEq, Repr

/-- The pool after a move, if the move can be made. -/
def step? (p : TaskPool) : Move → Option TaskPool
  | .queue task => if p.finishing then none else some (p.queue task)
  | .start wanted => if p.finishing then none else some (p.start wanted)
  | .finish => if p.finishing then none else some { p with finishing := true }
  | .runLeft =>
    match p.finishing, p.workers, p.waiting with
    | true, [], job :: rest => some { p with waiting := rest, ran := p.ran ++ [job] }
    | _, _, _ => none
  | .finished =>
    match p.finishing, p.workers, p.waiting with
    | true, [], [] => some { p with finishing := false }
    | _, _, _ => none
  | .take worker =>
    match p.workers[worker]?, p.waiting with
    | some .free, job :: rest =>
      some { p with waiting := rest, workers := p.workers.set worker (.busy job) }
    | some .free, [] => some { p with workers := p.workers.eraseIdx worker }
    | _, _ => none
  | .run worker =>
    match p.workers[worker]? with
    | some (.busy job) =>
      some { p with workers := p.workers.set worker .free, ran := p.ran ++ [job] }
    | _ => none

/-- The pool after several moves, if all of them can be made. -/
def run? (p : TaskPool) : List Move → Option TaskPool
  | [] => some p
  | move :: rest => (p.step? move).bind (·.run? rest)

/-! ## One order of moves -/

/-- The jobs that workers are busy with. -/
def held (p : TaskPool) : List Job :=
  p.workers.filterMap fun
    | .free => none
    | .busy job => some job

/-- The pool after it has been finished, if nobody has started another job meanwhile before the ones
in hand were done. -/
def finish (p : TaskPool) : TaskPool :=
  { p with waiting := [], workers := [], ran := p.ran ++ p.held ++ p.waiting }

/-- The verdict on a task: no, unless it has been run and said otherwise. -/
def verdict (p : TaskPool) (number : Nat) : Bool :=
  ((p.ran.find? (·.number = number)).map (·.task.verdict)).getD false

/-- The numbers of the jobs that have been run: in the order of running if that is settled, because
there was never more than one worker, and otherwise in the order of queueing. -/
def shownNumbers (p : TaskPool) : List Nat :=
  let numbers := p.ran.map (·.number)
  if p.spawned ≤ 1 then numbers else numbers.mergeSort (· ≤ ·)

end TaskPool

end ControlRig
