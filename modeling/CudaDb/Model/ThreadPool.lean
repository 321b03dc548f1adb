import CudaDb.Lib.Machine
import CudaDb.Lib.Threads

/-!
# The thread pool

`boost::threadpool::pool`, of which the write buffer and the SSD cache each have one: first in,
first out, with a fixed number of workers, and with `wait_for_all_tasks` when it is deleted. Its
state is under the mutex `m_monitor` with two condition variables. What a thread does between
taking the mutex and giving it up, also by waiting, is one step; a thread that waits goes on after
a notification or spuriously. The tasks do not throw, as the pool demands of them.
-/

namespace CudaDb

/-- Where a worker of a pool stands. -/
inductive PoolWorkerPc (Task : Type*)
  /-- At the start of `execute_task`. -/
  | fetch
  /-- In `m_task_or_terminate_workers_event.wait(lock)`. -/
  | waiting
  /-- Woken, and about to take `m_monitor` again. -/
  | woken
  /-- `task()`. -/
  | run (task : Task)
  /-- `execute_task` has returned false, and `worker_destructed` is next. -/
  | leave
  /-- The thread has ended. -/
  | gone

/-- Where the thread stands that deletes the pool. -/
inductive ShutdownPc
  /-- The pool is in use. -/
  | outside
  /-- In `wait`, about to test the condition of its loop. -/
  | wait
  /-- In `m_worker_idle_or_terminated_event.wait(lock)` of `wait`. -/
  | waitBlocked
  /-- `terminate_all_workers(true)`. -/
  | terminate
  /-- In `terminate_all_workers`, about to test the condition of its loop. -/
  | drain
  /-- In `m_worker_idle_or_terminated_event.wait(lock)` of `terminate_all_workers`. -/
  | drainBlocked
  /-- The pool has been deleted. -/
  | closed
  deriving DecidableEq

/-- `pool_core`. A count is a `size_t` in the source. -/
structure ThreadPool (Worker Task : Type*) where
  /-- `m_scheduler`, a `fifo_scheduler`. -/
  scheduler : List Task
  /-- `m_worker_count`. -/
  workerCount : Int
  /-- `m_target_worker_count`. -/
  targetWorkerCount : Int
  /-- `m_active_worker_count`. -/
  activeWorkerCount : Int
  /-- `m_terminate_all_workers`. -/
  terminateAllWorkers : Bool
  /-- `m_terminated_workers`. -/
  terminatedWorkers : List Worker
  /-- The workers. -/
  workers : Worker → PoolWorkerPc Task
  /-- The thread that deletes the pool. -/
  shutdown : ShutdownPc
  /-- The tasks that workers have fetched, in this order. No step depends on it. -/
  started : List Task
  /-- The tasks that have been executed. No step depends on it. -/
  finished : List Task

/-- The effect of `m_task_or_terminate_workers_event.notify_all()` on a worker. -/
def PoolWorkerPc.notified {Task : Type*} : PoolWorkerPc Task → PoolWorkerPc Task
  | .waiting => .woken
  | pc => pc

/-- The worker waits for a notification. -/
def PoolWorkerPc.waits {Task : Type*} : PoolWorkerPc Task → Bool
  | .waiting => true
  | _ => false

/-- The effect of `m_worker_idle_or_terminated_event.notify_all()` on the thread that deletes. -/
def ShutdownPc.notified : ShutdownPc → ShutdownPc
  | .waitBlocked => .wait
  | .drainBlocked => .drain
  | pc => pc

/-- What can happen next. -/
inductive PoolEvent (Worker Task : Type*)
  /-- A thread calls `schedule`, and `notify_one` wakes the worker, none if no worker waits. -/
  | schedule (task : Task) (woken : Option Worker)
  /-- The worker executes its next section, or ends its task. -/
  | worker (worker : Worker)
  /-- The worker wakes spuriously. -/
  | wakes (worker : Worker)
  /-- The pool is deleted: `wait_for_all_tasks::shutdown` begins. -/
  | delete
  /-- The thread that deletes the pool executes its next section. -/
  | shutdown
  /-- The thread that deletes the pool wakes spuriously. -/
  | shutdownWakes

/-- The task that an event schedules. -/
def PoolEvent.scheduled {Worker Task : Type*} : PoolEvent Worker Task → List Task
  | .schedule task _ => [task]
  | _ => []

namespace ThreadPool

variable {Worker Task : Type*}

/-- `thread_pool::thread_pool` — the constructor with `resize`, whose loop creates all workers and
counts each of them as active. -/
def create [Fintype Worker] : ThreadPool Worker Task where
  scheduler := []
  workerCount := Fintype.card Worker
  targetWorkerCount := Fintype.card Worker
  activeWorkerCount := Fintype.card Worker
  terminateAllWorkers := false
  terminatedWorkers := []
  workers := fun _ => .fetch
  shutdown := .outside
  started := []
  finished := []

/-- `m_worker_idle_or_terminated_event.notify_all()`. -/
def notifyIdle (pool : ThreadPool Worker Task) : ThreadPool Worker Task :=
  { pool with shutdown := pool.shutdown.notified }

/-- The end of `terminate_all_workers`: a worker that is active is waited for, otherwise the threads
that have ended are joined. -/
def drain (pool : ThreadPool Worker Task) : ThreadPool Worker Task :=
  { pool with
    terminatedWorkers := if 0 < pool.activeWorkerCount then pool.terminatedWorkers else []
    shutdown := if 0 < pool.activeWorkerCount then .drainBlocked else .closed }

/-- `wait` and `terminate_all_workers` — a section of the thread that deletes the pool. -/
def shutdownStep (pool : ThreadPool Worker Task) : ShutdownPc → Option (ThreadPool Worker Task)
  | .wait =>
    if pool.activeWorkerCount ≠ 0 ∨ pool.scheduler.isEmpty = false then
      some { pool with shutdown := .waitBlocked }
    else some { pool with shutdown := .terminate }
  | .terminate => some
      { pool with
        terminateAllWorkers := true
        targetWorkerCount := 0
        workers := fun worker => (pool.workers worker).notified }.drain
  | .drain => some pool.drain
  | _ => none

variable [DecidableEq Worker]

/-- The worker goes on to another place. -/
def workerAt (pool : ThreadPool Worker Task) (worker : Worker) (pc : PoolWorkerPc Task) :
    ThreadPool Worker Task :=
  { pool with workers := Function.update pool.workers worker pc }

/-- `execute_task` — the loop of an active worker up to its next wait, and the fetch. -/
def fetchTask (pool : ThreadPool Worker Task) (worker : Worker) : ThreadPool Worker Task :=
  match pool.scheduler with
  | [] =>
    if pool.targetWorkerCount < pool.workerCount then pool.workerAt worker .leave
    else { pool.workerAt worker .waiting with
      activeWorkerCount := pool.activeWorkerCount - 1 }.notifyIdle
  | task :: rest => { pool.workerAt worker (.run task) with
      scheduler := rest
      started := pool.started ++ [task] }

/-- `worker_destructed`. -/
def workerDestructed (pool : ThreadPool Worker Task) (worker : Worker) : ThreadPool Worker Task :=
  { pool.workerAt worker .gone with
    workerCount := pool.workerCount - 1
    activeWorkerCount := pool.activeWorkerCount - 1
    terminatedWorkers :=
      if pool.terminateAllWorkers then pool.terminatedWorkers ++ [worker]
      else pool.terminatedWorkers }.notifyIdle

/-- `worker_thread::run` — a section of a worker, or its task. -/
def workerStep (pool : ThreadPool Worker Task) (worker : Worker) :
    PoolWorkerPc Task → Option (ThreadPool Worker Task)
  | .fetch =>
    if pool.targetWorkerCount < pool.workerCount then some (pool.workerAt worker .leave)
    else some (pool.fetchTask worker)
  | .woken => some
      ({ pool with activeWorkerCount := pool.activeWorkerCount + 1 }.fetchTask worker)
  | .run task => some { pool.workerAt worker .fetch with finished := pool.finished ++ [task] }
  | .leave => some (pool.workerDestructed worker)
  | .waiting | .gone => none

/-- Nobody schedules a task on a pool that is being deleted. -/
def Calm (pool : ThreadPool Worker Task) : PoolEvent Worker Task → Prop
  | .schedule _ _ => pool.shutdown = .outside
  | _ => True

/-- Whether the pool is left in peace can be checked. -/
instance decidableCalm (pool : ThreadPool Worker Task) :
    ∀ event, Decidable (pool.Calm event)
  | .schedule _ _ => inferInstanceAs (Decidable (pool.shutdown = .outside))
  | .worker _ | .wakes _ | .delete | .shutdown | .shutdownWakes => isTrue trivial

/-- The history of the tasks that have been scheduled. -/
def noteScheduled (tasks : List Task) (_ : ThreadPool Worker Task)
    (event : PoolEvent Worker Task) : List Task :=
  tasks ++ event.scheduled

/-- `schedule` — `push`, and `notify_one`, which wakes one of the workers that wait. -/
def schedule [Fintype Worker] (pool : ThreadPool Worker Task) (task : Task) :
    Option Worker → Option (ThreadPool Worker Task)
  | some worker =>
    if (pool.workers worker).waits then
      some { pool.workerAt worker .woken with scheduler := pool.scheduler ++ [task] }
    else none
  | none =>
    if ∀ worker, (pool.workers worker).waits = false then
      some { pool with scheduler := pool.scheduler ++ [task] }
    else none

/-- Any interleaving of the threads that schedule, the workers and the thread that deletes. -/
def machine [Fintype Worker] : Machine (ThreadPool Worker Task) (PoolEvent Worker Task) where
  step pool
    | .schedule task woken => pool.schedule task woken
    | .worker worker => pool.workerStep worker (pool.workers worker)
    | .wakes worker =>
      if (pool.workers worker).waits then some (pool.workerAt worker .woken) else none
    | .delete =>
      match pool.shutdown with
      | .outside => some { pool with shutdown := .wait }
      | _ => none
    | .shutdown => pool.shutdownStep pool.shutdown
    | .shutdownWakes =>
      match pool.shutdown with
      | .waitBlocked | .drainBlocked => some pool.notifyIdle
      | _ => none

end ThreadPool

/-! ## Waiting for the tasks -/

/-- Where a thread stands in `while (first > 0 || second > 0)` around two counts of a pool. -/
inductive PollPc (Task : Type*)
  /-- It reads the first count. -/
  | first
  /-- The first count was 0, and it reads the second one. It remembers what had been scheduled and
  started when the first count was 0. No step depends on it. -/
  | second (scheduled started : List Task)
  /-- Both were 0. It remembers besides what had been started when the second count was 0. -/
  | passed (scheduled started later : List Task)

/-- A pool with a thread that waits for its tasks. -/
structure Polled (Worker Task : Type*) where
  /-- The pool. -/
  pool : ThreadPool Worker Task
  /-- The thread. -/
  poll : PollPc Task

namespace Polled

variable {Worker Task : Type*}

/-- Two counts of a pool, in the order in which a loop reads them. -/
structure Reads (Worker Task : Type*) where
  /-- The count that is read first. -/
  first : ThreadPool Worker Task → Int
  /-- The count that is read if the first one was 0. -/
  second : ThreadPool Worker Task → Int

/-- `WriteBuffer::sync` — `active() > 0 || pending() > 0`. -/
def writeBufferSync : Reads Worker Task where
  first pool := pool.activeWorkerCount
  second pool := pool.scheduler.length

/-- `SSDCache::sync` — `pending() > 0 || active() > 0`. -/
def ssdCacheSync : Reads Worker Task where
  first pool := pool.scheduler.length
  second pool := pool.activeWorkerCount

/-- One read of the thread. -/
def pollStep (reads : Reads Worker Task) (pool : ThreadPool Worker Task) :
    PollPc Task → Option (PollPc Task)
  | .first =>
    if 0 < reads.first pool then some .first
    else some (.second (pool.started ++ pool.scheduler) pool.started)
  | .second scheduled started =>
    if 0 < reads.second pool then some .first else some (.passed scheduled started pool.started)
  | .passed _ _ _ => none

/-- The pool in any interleaving with the thread; a label without an event of the pool is a read. -/
def machine [DecidableEq Worker] [Fintype Worker] (reads : Reads Worker Task) :
    Machine (Polled Worker Task) (Option (PoolEvent Worker Task)) where
  step polled
    | some event => (ThreadPool.machine.step polled.pool event).map fun pool => { polled with pool }
    | none => (pollStep reads polled.pool polled.poll).map fun poll => { polled with poll }

end Polled

end CudaDb
