import CudaDb.Verif.ThreadPool

/-!
# What the owners of a pool rely on

The write buffer and the SSD cache hand their work to a pool, wait until the pool has nothing left
to do, and delete it. Each task is executed once, a pool that is left alone settles within a bound
that depends on its queue, in whatever order its threads go on, and a deletion returns after all
tasks.
-/

namespace CudaDb

variable {Task : Type*}

/-! ## The rank -/

/-- How far a worker is from its rest. -/
def PoolWorkerPc.weight : PoolWorkerPc Task → Nat
  | .run _ => 4
  | .fetch | .woken => 3
  | .leave => 2
  | .waiting | .gone => 0

/-- How far a deletion is from its end, with a number of workers that it may have to wake. -/
def ShutdownPc.weight (workers : Nat) : ShutdownPc → Nat
  | .wait => 3 * workers + 4
  | .waitBlocked => 3 * workers + 3
  | .terminate => 3 * workers + 2
  | .drain => 1
  | .outside | .drainBlocked | .closed => 0

/-- A notification sets a deletion back by one at most. -/
theorem ShutdownPc.weight_notified (workers : Nat) (pc : ShutdownPc) :
    pc.notified.weight workers ≤ pc.weight workers + 1 := by
  cases pc with
  | waitBlocked | drainBlocked => exact le_refl _
  | outside | wait | terminate | drain | closed => exact Nat.le_succ _

/-- A notification sets a worker back by three at most. -/
theorem PoolWorkerPc.weight_notified (pc : PoolWorkerPc Task) :
    pc.notified.weight ≤ pc.weight + 3 := by
  cases pc with
  | waiting => exact le_refl 3
  | fetch | woken | run | leave | gone => exact Nat.le_add_right _ 3

/-- A step that the pool takes by itself. -/
def PoolEvent.own {Worker : Type*} : PoolEvent Worker Task → Bool
  | .worker _ | .shutdown => true
  | _ => false

/-- A step that the pool takes by itself, or the start of its deletion. -/
def PoolEvent.deletes {Worker : Type*} : PoolEvent Worker Task → Bool
  | .worker _ | .shutdown | .delete => true
  | _ => false

/-- What the pool does by itself is part of its deletion. -/
theorem PoolEvent.deletes_of_own {Worker : Type*} {event : PoolEvent Worker Task}
    (own : event.own = true) : event.deletes = true := by
  cases event with
  | worker | shutdown => rfl
  | schedule | wakes | delete | shutdownWakes => cases own

namespace ThreadPool

variable {Worker : Type*} [Fintype Worker] [DecidableEq Worker] {pool next : ThreadPool Worker Task}

/-- How far a pool is from its rest. -/
def rank (pool : ThreadPool Worker Task) : Nat :=
  2 * pool.scheduler.length + Threads.total PoolWorkerPc.weight pool.workers +
    pool.shutdown.weight (Fintype.card Worker)

omit [DecidableEq Worker] in
/-- The rank in the length of the queue and the number of workers. -/
theorem rank_le (pool : ThreadPool Worker Task) :
    pool.rank ≤ 2 * pool.scheduler.length + 7 * Fintype.card Worker + 4 := by
  have weights : Threads.total PoolWorkerPc.weight pool.workers ≤ Fintype.card Worker * 4 := by
    apply Threads.total_le
    intro worker
    cases pool.workers worker <;> simp [PoolWorkerPc.weight]
  have shutdown : pool.shutdown.weight (Fintype.card Worker) ≤ 3 * Fintype.card Worker + 4 := by
    cases pool.shutdown <;> simp only [ShutdownPc.weight] <;> omega
  unfold rank
  omega

/-- A worker that moves lowers the rank if it gives up more than it takes. -/
theorem rank_move (worker : Worker) {pc : PoolWorkerPc Task}
    (workers : next.workers = Function.update pool.workers worker pc)
    (lower : 2 * next.scheduler.length + pc.weight +
        next.shutdown.weight (Fintype.card Worker) <
      2 * pool.scheduler.length + (pool.workers worker).weight +
        pool.shutdown.weight (Fintype.card Worker)) : next.rank < pool.rank := by
  have moved := Threads.total_update PoolWorkerPc.weight pool.workers worker pc
  rw [← workers] at moved
  unfold rank
  omega

/-- Every step that the pool takes by itself lowers the rank. -/
theorem Occurs.rank_lt {event : PoolEvent Worker Task} (occurs : pool.Occurs event next)
    (own : event.own = true) : next.rank < pool.rank := by
  have notified := ShutdownPc.weight_notified (Fintype.card Worker) pool.shutdown
  have hunter {worker : Worker} (hunts : (pool.workers worker).hunting = 1) :
      (pool.workers worker).weight = 3 := by
    rcases PoolWorkerPc.hunting_pos hunts with standing | standing <;> rw [standing] <;> rfl
  cases occurs with
  | notified | scheduled | wakes | delete | shutdownWakes => cases own
  | leaves worker hunts =>
    have weight := hunter hunts
    apply rank_move worker rfl
    show 2 * pool.scheduler.length + 2 + pool.shutdown.weight (Fintype.card Worker) < _
    omega
  | sleeps worker hunts =>
    have weight := hunter hunts
    apply rank_move worker rfl
    show 2 * pool.scheduler.length + 0 + pool.shutdown.notified.weight (Fintype.card Worker) < _
    omega
  | fetches worker task rest hunts first =>
    have weight := hunter hunts
    apply rank_move worker rfl
    rw [first, List.length_cons]
    show 2 * rest.length + 4 + pool.shutdown.weight (Fintype.card Worker) < _
    omega
  | ends worker task runs =>
    apply rank_move worker rfl
    rw [runs]
    show 2 * pool.scheduler.length + 3 + pool.shutdown.weight (Fintype.card Worker) <
      2 * pool.scheduler.length + 4 + _
    omega
  | destructed worker left =>
    apply rank_move worker rfl
    rw [left]
    show 2 * pool.scheduler.length + 0 + pool.shutdown.notified.weight (Fintype.card Worker) <
      2 * pool.scheduler.length + 2 + _
    omega
  | blocks tests | idle tests =>
    unfold rank
    rw [tests]
    simp only [ShutdownPc.weight]
    omega
  | drains tests =>
    unfold rank drain
    rw [tests]
    dsimp only
    split
    all_goals
      simp only [ShutdownPc.weight]
      omega
  | terminates tells =>
    have roused : Threads.total (fun pc : PoolWorkerPc Task => pc.notified.weight) pool.workers ≤
        Threads.total PoolWorkerPc.weight pool.workers + Fintype.card Worker * 3 := by
      have each : Threads.total (fun pc : PoolWorkerPc Task => pc.notified.weight) pool.workers ≤
          Threads.total (fun pc : PoolWorkerPc Task => pc.weight + 3) pool.workers :=
        Threads.total_mono fun worker => PoolWorkerPc.weight_notified _
      have apart : Threads.total (fun pc : PoolWorkerPc Task => pc.weight + 3) pool.workers =
          Threads.total PoolWorkerPc.weight pool.workers + Fintype.card Worker * 3 := by
        simp [Threads.total, Finset.sum_add_distrib]
      omega
    unfold rank drain
    rw [tells]
    show 2 * pool.scheduler.length +
        Threads.total (fun pc : PoolWorkerPc Task => pc.notified.weight) pool.workers +
          ShutdownPc.weight (Fintype.card Worker)
            (if 0 < pool.activeWorkerCount then .drainBlocked else .closed) <
      2 * pool.scheduler.length + Threads.total PoolWorkerPc.weight pool.workers +
        (3 * Fintype.card Worker + 2)
    split
    all_goals
      simp only [ShutdownPc.weight]
      omega

/-- The steps that the pool takes by itself are no more than its rank. -/
theorem run_own_length {events : List (PoolEvent Worker Task)} {final : ThreadPool Worker Task}
    (own : ∀ event ∈ events, event.own = true)
    (ran : machine.run pool events = some final) : events.length + final.rank ≤ pool.rank := by
  induction events generalizing pool with
  | nil =>
    have same : pool = final := Option.some.inj ran
    rw [same, List.length_nil]
    omega
  | cons event events ih =>
    rcases Machine.run_cons.mp ran with ⟨next, stepped, rest⟩
    have lower := (step_occurs stepped).rank_lt (own event List.mem_cons_self)
    have later := ih (fun other member => own other (List.mem_cons_of_mem _ member)) rest
    rw [List.length_cons]
    omega

/-! ## A pool that is left alone -/

/-- No thread of the pool can go on. -/
def Settled (pool : ThreadPool Worker Task) : Prop :=
  ∀ event : PoolEvent Worker Task, event.own = true → machine.step pool event = none

/-- A worker that cannot go on waits or has ended. -/
theorem Settled.worker (settled : pool.Settled) (worker : Worker) :
    pool.workers worker = .waiting ∨ pool.workers worker = .gone := by
  have stuck : pool.workerStep worker (pool.workers worker) = none :=
    settled (.worker worker) rfl
  cases standing : pool.workers worker with
  | waiting => exact Or.inl rfl
  | gone => exact Or.inr rfl
  | fetch =>
    rw [standing] at stuck
    unfold workerStep at stuck
    dsimp only at stuck
    split at stuck <;> cases stuck
  | woken | run | leave =>
    rw [standing] at stuck
    cases stuck

/-- What remains when no thread of the pool can go on: in a pool that is in use the workers wait,
and there is nothing to do; otherwise the pool has been deleted, and the workers have ended. -/
theorem Settled.rests [Nonempty Worker] (settled : pool.Settled) (steady : pool.Steady)
    (unmissed : pool.Unmissed) :
    (pool.shutdown = .outside ∧ pool.scheduler = [] ∧ ∀ worker, pool.workers worker = .waiting) ∨
      (pool.shutdown = .closed ∧ ∀ worker, pool.workers worker = .gone) := by
  have flag := steady.flag
  have unused (used : pool.terminateAllWorkers = false) :
      pool.scheduler = [] ∧ ∀ worker, pool.workers worker = .waiting := by
    have waits (worker : Worker) : pool.workers worker = .waiting := by
      rcases settled.worker worker with waits | gone
      · exact waits
      · have stays := steady.stays used worker
        rw [gone] at stays
        cases stays
    have none_hunts : Threads.total PoolWorkerPc.hunting pool.workers = 0 := by
      apply Threads.total_eq_zero
      intro worker
      rw [waits worker]
      rfl
    have noticed := steady.noticed (Classical.arbitrary Worker) (by rw [waits]; rfl)
    rw [none_hunts] at noticed
    exact ⟨List.length_eq_zero_iff.mp (by omega), waits⟩
  have told (told : pool.terminateAllWorkers = true) (worker : Worker) :
      pool.workers worker = .gone := by
    rcases settled.worker worker with waits | gone
    · have roused := steady.roused told worker
      rw [waits] at roused
      cases roused
    · exact gone
  have inactive (asleep : ∀ worker, (pool.workers worker).awake = 0) :
      pool.activeWorkerCount = 0 := by
    rw [steady.counted.active, Threads.total_eq_zero asleep]
    rfl
  have stuck : pool.shutdownStep pool.shutdown = none := settled .shutdown rfl
  cases standing : pool.shutdown with
  | outside =>
    rw [standing] at flag
    exact Or.inl ⟨rfl, unused flag⟩
  | closed =>
    rw [standing] at flag
    exact Or.inr ⟨rfl, told flag⟩
  | waitBlocked =>
    rw [standing] at flag
    have rests := unused flag
    have active := inactive fun worker => by rw [rests.2 worker]; rfl
    rcases unmissed.blocked standing with busy | tasks
    · omega
    · exact absurd rests.1 tasks
  | drainBlocked =>
    rw [standing] at flag
    have active := inactive fun worker => by rw [told flag worker]; rfl
    have busy := unmissed.drained standing
    omega
  | wait =>
    rw [standing] at stuck
    unfold shutdownStep at stuck
    dsimp only at stuck
    split at stuck <;> cases stuck
  | terminate | drain =>
    rw [standing] at stuck
    cases stuck

/-- A pool in which nothing moves is idle, unless it has been deleted. -/
theorem Settled.idle [Nonempty Worker] (settled : pool.Settled) (steady : pool.Steady)
    (unmissed : pool.Unmissed) (remains : pool.shutdown ≠ .closed) :
    pool.shutdown = .outside ∧ pool.scheduler = [] ∧ pool.activeWorkerCount = 0 := by
  have rests := (settled.rests steady unmissed).resolve_right fun closed => remains closed.1
  have asleep (worker : Worker) : (pool.workers worker).awake = 0 := by
    rw [rests.2.2 worker]
    rfl
  have inactive := steady.counted.active
  rw [Threads.total_eq_zero asleep] at inactive
  exact ⟨rests.1, rests.2.1, inactive⟩

/-- The deletion of a pool in use can begin. -/
theorem step_delete (used : pool.shutdown = .outside) :
    machine.step pool .delete = some { pool with shutdown := .wait } := by
  simp only [machine, used]

/-! ## A deletion by itself -/

/-- How far a pool is from its rest once it is deleted. -/
def deletionRank (pool : ThreadPool Worker Task) : Nat :=
  pool.rank + if pool.shutdown = .outside then 3 * Fintype.card Worker + 5 else 0

omit [DecidableEq Worker] in
/-- That rank in the length of the queue and the number of workers. -/
theorem deletionRank_le (pool : ThreadPool Worker Task) :
    pool.deletionRank ≤ 2 * pool.scheduler.length + 10 * Fintype.card Worker + 9 := by
  have rank := pool.rank_le
  unfold deletionRank
  split <;> omega

omit [DecidableEq Worker] in
/-- That rank in a new pool. -/
theorem create_deletionRank :
    (create : ThreadPool Worker Task).deletionRank = 6 * Fintype.card Worker + 5 := by
  simp only [deletionRank, rank, create, Threads.total, PoolWorkerPc.weight, ShutdownPc.weight,
    List.length_nil, Finset.sum_const, Finset.card_univ, smul_eq_mul, if_true]
  omega

omit [Fintype Worker] in
/-- What the pool does by itself does not begin its deletion. -/
theorem Occurs.outside_iff {event : PoolEvent Worker Task} (occurs : pool.Occurs event next)
    (own : event.own = true) : next.shutdown = .outside ↔ pool.shutdown = .outside := by
  have notified : pool.shutdown.notified = .outside ↔ pool.shutdown = .outside := by
    cases pool.shutdown <;> simp [ShutdownPc.notified]
  cases occurs with
  | notified | scheduled | wakes | delete | shutdownWakes => cases own
  | leaves | fetches | ends => exact Iff.rfl
  | sleeps | destructed => exact notified
  | blocks tests | idle tests => simp [tests]
  | terminates tests | drains tests =>
    unfold drain
    dsimp only
    split <;> simp [tests]

omit [Fintype Worker] in
/-- A pool that has been deleted stays so. -/
theorem Occurs.closed {event : PoolEvent Worker Task} (occurs : pool.Occurs event next)
    (closed : pool.shutdown = .closed) : next.shutdown = .closed := by
  cases occurs with
  | notified | scheduled | leaves | fetches | ends | wakes => exact closed
  | sleeps | destructed =>
    show pool.shutdown.notified = .closed
    rw [closed]
    rfl
  | delete there | blocks there | idle there | terminates there | drains there =>
    rw [closed] at there
    cases there
  | shutdownWakes there =>
    rw [closed] at there
    rcases there with waits | waits <;> cases waits

/-- The deletion and every step that the pool takes by itself lower that rank. -/
theorem Occurs.deletionRank_lt {event : PoolEvent Worker Task} (occurs : pool.Occurs event next)
    (deletes : event.deletes = true) : next.deletionRank < pool.deletionRank := by
  by_cases own : event.own = true
  · have lower := occurs.rank_lt own
    unfold deletionRank
    simp only [occurs.outside_iff own]
    omega
  · cases occurs with
    | delete used =>
      unfold deletionRank rank
      rw [used]
      simp only [ShutdownPc.weight, reduceCtorEq, if_true, if_false]
      omega
    | notified | scheduled | wakes | shutdownWakes => cases deletes
    | _ => exact absurd rfl own

/-- Where not every thread of the pool is stuck, one of them can go on. -/
theorem exists_own_step (unsettled : ¬ pool.Settled) :
    ∃ event next, event.own = true ∧ machine.step pool event = some next := by
  by_contra stuck
  apply unsettled
  intro event own
  by_contra moves
  rcases Option.ne_none_iff_exists'.mp moves with ⟨next, stepped⟩
  exact stuck ⟨event, next, own, stepped⟩

/-! ## Runs -/

section Runs

variable [DecidableEq Task] {events : List (PoolEvent Worker Task)} {tasks : List Task}

/-- What holds of a pool and the tasks that were scheduled on it in every run. -/
structure Kept (pool : ThreadPool Worker Task) (tasks : List Task) : Prop where
  /-- The pool is steady. -/
  steady : pool.Steady
  /-- Whoever waits in a deletion has something to wait for. -/
  unmissed : pool.Unmissed
  /-- The tasks are fetched in turn. -/
  fifo : pool.started ++ pool.scheduler = tasks
  /-- Each of them is executed once. -/
  accounted : pool.Accounted

/-- Every step keeps it. -/
theorem Occurs.kept {event : PoolEvent Worker Task} (occurs : pool.Occurs event next)
    (kept : pool.Kept tasks) : next.Kept (tasks ++ event.scheduled) where
  steady := occurs.steady kept.steady
  unmissed := occurs.unmissed kept.steady kept.unmissed
  fifo := by
    rw [← kept.fifo]
    exact occurs.fifo
  accounted := occurs.accounted kept.accounted

omit [DecidableEq Worker] in
/-- In a new pool no task has been fetched. -/
theorem create_accounted : (create : ThreadPool Worker Task).Accounted := by
  intro task
  have nothing : Threads.total (PoolWorkerPc.running task)
      (create : ThreadPool Worker Task).workers = 0 := Threads.total_eq_zero fun _ => rfl
  rw [nothing]
  rfl

omit [DecidableEq Worker] in
/-- It holds of a new pool. -/
theorem create_kept : (create : ThreadPool Worker Task).Kept [] where
  steady := create_steady
  unmissed := create_unmissed
  fifo := rfl
  accounted := create_accounted

/-- It holds in every run. -/
theorem run_kept (ran : (machine.observed noteScheduled).run (create, []) events =
    some (pool, tasks)) : pool.Kept tasks := by
  apply Machine.run_invariant (fun both : ThreadPool Worker Task × List Task => both.1.Kept both.2)
    _ create_kept ran
  rintro ⟨before, known⟩ event ⟨after, noted⟩ kept stepped
  rcases Machine.observed_step.mp stepped with ⟨taken, rfl⟩
  exact (step_occurs taken).kept kept

/-- A pool on which nobody schedules while it is deleted keeps what holds then. -/
theorem run_closing (calm : machine.Along Calm create events)
    (ran : (machine.observed noteScheduled).run (create, []) events = some (pool, tasks)) :
    pool.Closing := by
  have both : pool.Kept tasks ∧ pool.Closing := by
    apply Machine.run_invariant_along (fun both : ThreadPool Worker Task × List Task =>
      both.1.Kept both.2 ∧ both.1.Closing) _ ⟨create_kept, create_closing⟩
      (Machine.along_observed.mpr calm) ran
    rintro ⟨before, known⟩ event ⟨after, noted⟩ ⟨kept, closing⟩ quiet stepped
    rcases Machine.observed_step.mp stepped with ⟨taken, rfl⟩
    have occurs := step_occurs taken
    exact ⟨occurs.kept kept, occurs.closing kept.steady closing quiet⟩
  exact both.2

omit [DecidableEq Worker] in
/-- When no worker has a task, each task that was fetched has been executed once. -/
theorem Accounted.all_ended (accounted : pool.Accounted)
    (none_runs : ∀ worker task, pool.workers worker ≠ .run task) :
    pool.finished.Perm pool.started := by
  apply List.perm_iff_count.mpr
  intro task
  have nothing : Threads.total (PoolWorkerPc.running task) pool.workers = 0 := by
    apply Threads.total_eq_zero
    intro worker
    cases standing : pool.workers worker with
    | run other => exact absurd standing (none_runs worker other)
    | fetch | waiting | woken | leave | gone => rfl
  have account := accounted task
  omega

omit [DecidableEq Worker] in
/-- When besides the queue is empty, each task has been executed once. -/
theorem Kept.all_done (kept : pool.Kept tasks) (empty : pool.scheduler = [])
    (none_runs : ∀ worker task, pool.workers worker ≠ .run task) : pool.finished.Perm tasks := by
  have started := kept.fifo
  rw [empty, List.append_nil] at started
  rw [← started]
  exact kept.accounted.all_ended none_runs

omit [Fintype Worker] [DecidableEq Worker] [DecidableEq Task] in
/-- A worker on its way out has no task. -/
theorem not_run_of_leaving {worker : Worker} (leaves : leaving (pool.workers worker) = true)
    (task : Task) : pool.workers worker ≠ .run task := by
  intro runs
  rw [runs] at leaves
  cases leaves

/-- Every task that was scheduled on the pool has been executed once, and its threads only end. -/
structure Done (pool : ThreadPool Worker Task) : Prop where
  /-- No task is left. -/
  empty : pool.scheduler = []
  /-- Every fetched task has been executed once. -/
  executed : pool.finished.Perm pool.started
  /-- The workers are on their way out. -/
  leaving : ∀ worker, leaving (pool.workers worker) = true

omit [DecidableEq Worker] in
/-- A pool that has been deleted is done, if nobody scheduled a task while it was. -/
theorem Closing.done (closing : pool.Closing) (accounted : pool.Accounted)
    (closed : pool.shutdown = .closed) : pool.Done := by
  have rests := closing.closed closed
  have ended := accounted.all_ended fun worker => not_run_of_leaving (rests.2 worker)
  exact ⟨rests.1, ended, rests.2⟩

/-- Two workers wait, one of them is woken for the task 7, and the pool is deleted. -/
def oneTask : List (PoolEvent Bool Nat) :=
  [.worker false, .worker true, .schedule 7 (some true), .delete]

/-- The thread that deletes waits for the task, and the workers leave. -/
def oneTaskSettles : List (PoolEvent Bool Nat) :=
  [.worker true, .shutdown, .worker true, .worker true, .shutdown, .shutdown, .worker false,
    .worker true, .worker false, .worker true]

/-- In every interleaving of the threads that schedule, the workers and the thread that deletes a
pool, with spurious wakeups at any time: the tasks are fetched in the order in which they were
scheduled, each fetched task is being executed by one worker or has been executed, once each time it
was scheduled, `active()` is the number of workers that do not wait, and no notification is lost:
while a worker waits, as many workers are about to look for a task as there are tasks in the
queue. -/
theorem executes_in_turn (ran : (machine.observed noteScheduled).run (create, []) events =
    some (pool, tasks)) :
    pool.started ++ pool.scheduler = tasks ∧
    (∀ task, pool.started.count task =
      pool.finished.count task + Threads.total (PoolWorkerPc.running task) pool.workers) ∧
    pool.activeWorkerCount = Threads.total PoolWorkerPc.awake pool.workers ∧
    ∀ worker, pool.workers worker = .waiting →
      pool.scheduler.length ≤ Threads.total PoolWorkerPc.hunting pool.workers := by
  have kept : pool.Kept tasks := run_kept ran
  refine ⟨kept.fifo, kept.accounted, kept.steady.counted.active, fun worker waits => ?_⟩
  apply kept.steady.noticed worker
  rw [waits]
  rfl

/-- While both workers wait, nothing is queued; the task is fetched by the one that was woken. -/
theorem executes_in_turn_oneTask :
    ∃ pool, (machine.observed noteScheduled).run (create, [])
        (oneTask ++ [.worker true]) = some (pool, [7]) ∧
      pool.started ++ pool.scheduler = [7] ∧
      pool.activeWorkerCount = Threads.total PoolWorkerPc.awake pool.workers := by
  have executed : ∃ pool, (machine.observed noteScheduled).run (create, [])
      (oneTask ++ [.worker true]) = some (pool, [7]) := ⟨_, rfl⟩
  rcases executed with ⟨pool, ran⟩
  have holds := executes_in_turn ran
  exact ⟨pool, ran, holds.1, holds.2.2.1⟩

/-- A pool that is left alone settles: however its threads go on, they make no more than a number of
steps that the length of the queue and the number of workers bound, and when none of them can go on,
every task that was scheduled has been executed once, and the workers all wait for more tasks, or
have all ended if the pool is being deleted. -/
theorem settles [Nonempty Worker] {more : List (PoolEvent Worker Task)}
    {final : ThreadPool Worker Task} (calm : machine.Along Calm create events)
    (ran : (machine.observed noteScheduled).run (create, []) events = some (pool, tasks))
    (own : ∀ event ∈ more, event.own = true) (later : machine.run pool more = some final) :
    more.length ≤ 2 * pool.scheduler.length + 7 * Fintype.card Worker + 4 ∧
    (final.Settled → final.finished.Perm tasks ∧
      ((final.shutdown = .outside ∧ ∀ worker, final.workers worker = .waiting) ∨
        (final.shutdown = .closed ∧ ∀ worker, final.workers worker = .gone))) := by
  have bound := pool.rank_le
  have steps := run_own_length own later
  refine ⟨by omega, fun settled => ?_⟩
  have closing : pool.Closing := run_closing calm ran
  have both : final.Kept tasks ∧ final.Closing := by
    apply Machine.run_invariant_along (fun pool : ThreadPool Worker Task =>
      pool.Kept tasks ∧ pool.Closing) _ ⟨run_kept ran, closing⟩ (Machine.along_of_mem own pool)
      later
    rintro before event after ⟨kept, closes⟩ alone stepped
    have occurs := step_occurs stepped
    have quiet : before.Calm event := by
      cases event with
      | schedule => cases alone
      | worker | wakes | delete | shutdown | shutdownWakes => trivial
    have nothing : event.scheduled = [] := by
      cases event with
      | schedule => cases alone
      | worker | wakes | delete | shutdown | shutdownWakes => rfl
    have keeps := occurs.kept kept
    rw [nothing, List.append_nil] at keeps
    exact ⟨keeps, occurs.closing kept.steady closes quiet⟩
  have rests := settled.rests both.1.steady both.1.unmissed
  have empty : final.scheduler = [] := by
    rcases rests with outside | closed
    · exact outside.2.1
    · exact (both.2.closed closed.1).1
  refine ⟨both.1.all_done empty fun worker task => ?_,
    rests.imp_left fun outside => ⟨outside.1, outside.2.2⟩⟩
  rcases settled.worker worker with waits | gone
  · simp [waits]
  · simp [gone]

/-- The deletion with one task left settles: the task has been executed, and both workers have
ended. -/
theorem settles_oneTask :
    ∃ pool final, (machine.observed noteScheduled).run (create, []) oneTask = some (pool, [7]) ∧
      machine.run pool oneTaskSettles = some final ∧ final.finished.Perm [7] ∧
      ∀ worker, final.workers worker = .gone := by
  have executed : ∃ pool final,
      (machine.observed noteScheduled).run (create, []) oneTask = some (pool, [7]) ∧
      machine.run pool oneTaskSettles = some final ∧ final.workers false = .gone ∧
      final.workers true = .gone ∧ final.shutdown = .closed := ⟨_, _, rfl, rfl, rfl, rfl, rfl⟩
  rcases executed with ⟨pool, final, ran, later, first, second, closed⟩
  have gone (worker : Bool) : final.workers worker = .gone := by
    cases worker with
    | false => exact first
    | true => exact second
  have settled : final.Settled := by
    intro event own
    cases event with
    | worker worker =>
      show final.workerStep worker (final.workers worker) = none
      rw [gone worker]
      rfl
    | shutdown =>
      show final.shutdownStep final.shutdown = none
      rw [closed]
      rfl
    | schedule | wakes | delete | shutdownWakes => cases own
  have calm : machine.Along Calm create oneTask := by decide
  have holds := settles calm ran (by decide) later
  exact ⟨pool, final, ran, later, (holds.2 settled).1, gone⟩

/-- A pool that has been deleted, without a task scheduled since the deletion began, has executed
every task once. Its deletion has waited for no worker to end: the workers are still on their way
out, and `m_terminated_workers` keeps each of them that has ended. -/
theorem deleted (calm : machine.Along Calm create events)
    (ran : (machine.observed noteScheduled).run (create, []) events = some (pool, tasks))
    (closed : pool.shutdown = .closed) :
    pool.finished.Perm tasks ∧ (∀ worker, leaving (pool.workers worker) = true) ∧
      pool.terminatedWorkers.Nodup ∧
      ∀ worker, worker ∈ pool.terminatedWorkers ↔ pool.workers worker = .gone := by
  have closing : pool.Closing := run_closing calm ran
  have rests := closing.closed closed
  have done := (run_kept ran).all_done rests.1 fun worker => not_run_of_leaving (rests.2 worker)
  exact ⟨done, rests.2, closing.joined⟩

/-- When the deletion returns, the task has been executed and both workers are still there. -/
theorem deleted_oneTask :
    ∃ pool, (machine.observed noteScheduled).run (create, [])
        (oneTask ++ oneTaskSettles.take 6) = some (pool, [7]) ∧
      pool.shutdown = .closed ∧ pool.finished.Perm [7] ∧ pool.terminatedWorkers = [] ∧
      ∀ worker, leaving (pool.workers worker) = true := by
  have executed : ∃ pool, (machine.observed noteScheduled).run (create, [])
        (oneTask ++ oneTaskSettles.take 6) = some (pool, [7]) ∧
      pool.shutdown = .closed ∧ pool.terminatedWorkers = [] := ⟨_, rfl, rfl, rfl⟩
  rcases executed with ⟨pool, ran, closed, none_joined⟩
  have calm : machine.Along Calm create (oneTask ++ oneTaskSettles.take 6) := by decide
  have holds := deleted calm ran closed
  exact ⟨pool, ran, closed, holds.1, none_joined, holds.2.1⟩

end Runs

end ThreadPool

end CudaDb
