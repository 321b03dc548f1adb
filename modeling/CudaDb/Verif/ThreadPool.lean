import CudaDb.Model.ThreadPool

/-!
# The tasks of a pool

What a step of a pool can do is said once. From it follow the counts of the workers, that no
notification is lost, and what becomes of the tasks: each of them is fetched in turn and executed
once, and when nobody schedules, the pool settles in boundedly many steps, however they interleave.
-/

namespace CudaDb

variable {Task : Type*}

/-! ## Where the workers stand -/

/-- One for a worker that `m_active_worker_count` counts. -/
def PoolWorkerPc.awake : PoolWorkerPc Task → Nat
  | .fetch | .run _ | .leave => 1
  | .waiting | .woken | .gone => 0

/-- One for a worker whose thread has not ended. -/
def PoolWorkerPc.alive : PoolWorkerPc Task → Nat
  | .gone => 0
  | _ => 1

/-- One for a worker that is about to look for a task. -/
def PoolWorkerPc.hunting : PoolWorkerPc Task → Nat
  | .fetch | .woken => 1
  | _ => 0

/-- One for a worker that executes the task. -/
def PoolWorkerPc.running [DecidableEq Task] (task : Task) : PoolWorkerPc Task → Nat
  | .run other => if other = task then 1 else 0
  | _ => 0

/-- The worker goes on after its task. -/
def PoolWorkerPc.stays : PoolWorkerPc Task → Bool
  | .leave | .gone => false
  | _ => true

/-- The pool is past the point where its workers are told to leave. -/
def ShutdownPc.terminating : ShutdownPc → Bool
  | .drain | .drainBlocked | .closed => true
  | _ => false

/-- A notification leaves what a worker counts for. -/
@[simp] theorem PoolWorkerPc.awake_notified (pc : PoolWorkerPc Task) :
    pc.notified.awake = pc.awake := by
  cases pc <;> rfl

/-- A notification ends no thread. -/
@[simp] theorem PoolWorkerPc.alive_notified (pc : PoolWorkerPc Task) :
    pc.notified.alive = pc.alive := by
  cases pc <;> rfl

/-- A notification starts and ends no task. -/
@[simp] theorem PoolWorkerPc.running_notified [DecidableEq Task] (task : Task)
    (pc : PoolWorkerPc Task) : pc.notified.running task = pc.running task := by
  cases pc <;> rfl

/-- After a notification no worker waits. -/
@[simp] theorem PoolWorkerPc.waits_notified (pc : PoolWorkerPc Task) :
    pc.notified.waits = false := by
  cases pc <;> rfl

/-- A notification tells no worker to leave. -/
@[simp] theorem PoolWorkerPc.stays_notified (pc : PoolWorkerPc Task) :
    pc.notified.stays = pc.stays := by
  cases pc <;> rfl

/-- The thread that deletes is woken on its side of the decision. -/
@[simp] theorem ShutdownPc.terminating_notified (pc : ShutdownPc) :
    pc.notified.terminating = pc.terminating := by
  cases pc <;> rfl

/-- A worker that waits has no task and counts as a thread only. -/
theorem PoolWorkerPc.eq_of_waits {pc : PoolWorkerPc Task} (waits : pc.waits = true) :
    pc = .waiting := by
  cases pc with
  | waiting => rfl
  | fetch | woken | run | leave | gone => cases waits

/-- A worker that is about to look for a task is at one of two places. -/
theorem PoolWorkerPc.hunting_pos {pc : PoolWorkerPc Task} (hunts : pc.hunting = 1) :
    pc = .fetch ∨ pc = .woken := by
  cases pc with
  | fetch => exact Or.inl rfl
  | woken => exact Or.inr rfl
  | waiting | run | leave | gone => cases hunts

namespace ThreadPool

variable {Worker : Type*} [Fintype Worker] [DecidableEq Worker] {pool next : ThreadPool Worker Task}

/-! ## The steps -/

/-- What a step of a pool can do. -/
inductive Occurs (pool : ThreadPool Worker Task) :
    PoolEvent Worker Task → ThreadPool Worker Task → Prop
  /-- A task is scheduled, and a worker that waits is notified. -/
  | notified (task : Task) (worker : Worker) (waits : pool.workers worker = .waiting) :
    Occurs pool (.schedule task (some worker))
      { pool.workerAt worker .woken with scheduler := pool.scheduler ++ [task] }
  /-- A task is scheduled while no worker waits. -/
  | scheduled (task : Task) (none_waits : ∀ worker, (pool.workers worker).waits = false) :
    Occurs pool (.schedule task none) { pool with scheduler := pool.scheduler ++ [task] }
  /-- A worker that looks for a task is told to leave. -/
  | leaves (worker : Worker) (hunts : (pool.workers worker).hunting = 1)
    (fewer : pool.targetWorkerCount < pool.workerCount) :
    Occurs pool (.worker worker) { pool.workerAt worker .leave with
      activeWorkerCount := pool.activeWorkerCount + (1 - (pool.workers worker).awake) }
  /-- A worker that looks for a task finds none and waits. -/
  | sleeps (worker : Worker) (hunts : (pool.workers worker).hunting = 1)
    (empty : pool.scheduler = []) (enough : pool.workerCount ≤ pool.targetWorkerCount) :
    Occurs pool (.worker worker) { pool.workerAt worker .waiting with
      activeWorkerCount := pool.activeWorkerCount - (pool.workers worker).awake }.notifyIdle
  /-- A worker that looks for a task fetches the first one. -/
  | fetches (worker : Worker) (task : Task) (rest : List Task)
    (hunts : (pool.workers worker).hunting = 1) (first : pool.scheduler = task :: rest) :
    Occurs pool (.worker worker) { pool.workerAt worker (.run task) with
      activeWorkerCount := pool.activeWorkerCount + (1 - (pool.workers worker).awake)
      scheduler := rest
      started := pool.started ++ [task] }
  /-- A worker has executed its task. -/
  | ends (worker : Worker) (task : Task) (runs : pool.workers worker = .run task) :
    Occurs pool (.worker worker)
      { pool.workerAt worker .fetch with finished := pool.finished ++ [task] }
  /-- A worker has left. -/
  | destructed (worker : Worker) (left : pool.workers worker = .leave) :
    Occurs pool (.worker worker) (pool.workerDestructed worker)
  /-- A worker wakes spuriously. -/
  | wakes (worker : Worker) (waits : pool.workers worker = .waiting) :
    Occurs pool (.wakes worker) (pool.workerAt worker .woken)
  /-- The pool is deleted. -/
  | delete (used : pool.shutdown = .outside) : Occurs pool .delete { pool with shutdown := .wait }
  /-- There are tasks to wait for. -/
  | blocks (tests : pool.shutdown = .wait)
    (busy : pool.activeWorkerCount ≠ 0 ∨ pool.scheduler ≠ []) :
    Occurs pool .shutdown { pool with shutdown := .waitBlocked }
  /-- There is no task to wait for. -/
  | idle (tests : pool.shutdown = .wait) (resting : pool.activeWorkerCount = 0)
    (empty : pool.scheduler = []) : Occurs pool .shutdown { pool with shutdown := .terminate }
  /-- The workers are told to leave. -/
  | terminates (tells : pool.shutdown = .terminate) : Occurs pool .shutdown
      { pool with
        terminateAllWorkers := true
        targetWorkerCount := 0
        workers := fun worker => (pool.workers worker).notified }.drain
  /-- The loop over the workers that leave is tested again. -/
  | drains (tests : pool.shutdown = .drain) : Occurs pool .shutdown pool.drain
  /-- The thread that deletes wakes spuriously. -/
  | shutdownWakes (blocked : pool.shutdown = .waitBlocked ∨ pool.shutdown = .drainBlocked) :
    Occurs pool .shutdownWakes pool.notifyIdle

omit [Fintype Worker] in
/-- What a worker does that looks for a task. -/
theorem fetchTask_occurs {worker : Worker} (hunts : (pool.workers worker).hunting = 1) :
    pool.Occurs (.worker worker) ({ pool with
      activeWorkerCount := pool.activeWorkerCount +
        (1 - (pool.workers worker).awake) }.fetchTask worker) := by
  unfold fetchTask
  dsimp only
  split
  · next empty =>
    by_cases fewer : pool.targetWorkerCount < pool.workerCount
    · rw [if_pos fewer]
      exact .leaves worker hunts fewer
    · rw [if_neg fewer]
      have slept : pool.activeWorkerCount + (1 - ((pool.workers worker).awake : Int)) - 1 =
          pool.activeWorkerCount - (pool.workers worker).awake := by omega
      rw [slept]
      exact .sleeps worker hunts empty (not_lt.mp fewer)
  · next task rest first => exact .fetches worker task rest hunts first

/-- Every step is one of these. -/
theorem step_occurs {event : PoolEvent Worker Task}
    (stepped : machine.step pool event = some next) : pool.Occurs event next := by
  unfold machine at stepped
  cases event with
  | schedule task woken =>
    cases woken with
    | some worker =>
      rcases Option.ite_none_right_eq_some.mp stepped with ⟨waits, same⟩
      cases same
      exact .notified task worker (PoolWorkerPc.eq_of_waits waits)
    | none =>
      rcases Option.ite_none_right_eq_some.mp stepped with ⟨none_waits, same⟩
      cases same
      exact .scheduled task none_waits
  | worker worker =>
    dsimp only at stepped
    cases standing : pool.workers worker with
    | fetch =>
      have hunts : (pool.workers worker).hunting = 1 := by rw [standing]; rfl
      rw [standing] at stepped
      unfold workerStep at stepped
      dsimp only at stepped
      by_cases fewer : pool.targetWorkerCount < pool.workerCount
      · rw [if_pos fewer] at stepped
        cases stepped
        have left := Occurs.leaves worker hunts fewer
        have same : pool.activeWorkerCount + (1 - ((pool.workers worker).awake : Int)) =
            pool.activeWorkerCount := by
          rw [standing]
          exact add_zero _
        rw [same] at left
        exact left
      · rw [if_neg fewer] at stepped
        cases stepped
        have moved := fetchTask_occurs hunts
        simpa [standing, PoolWorkerPc.awake] using moved
    | woken =>
      have hunts : (pool.workers worker).hunting = 1 := by rw [standing]; rfl
      rw [standing] at stepped
      cases stepped
      have moved := fetchTask_occurs hunts
      simpa [standing, PoolWorkerPc.awake] using moved
    | run task =>
      rw [standing] at stepped
      cases stepped
      exact .ends worker task standing
    | leave =>
      rw [standing] at stepped
      cases stepped
      exact .destructed worker standing
    | waiting | gone =>
      rw [standing] at stepped
      cases stepped
  | wakes worker =>
    rcases Option.ite_none_right_eq_some.mp stepped with ⟨waits, same⟩
    cases same
    exact .wakes worker (PoolWorkerPc.eq_of_waits waits)
  | delete =>
    dsimp only at stepped
    split at stepped
    · next used =>
      cases stepped
      exact .delete used
    · cases stepped
  | shutdown =>
    dsimp only at stepped
    cases standing : pool.shutdown with
    | wait =>
      rw [standing] at stepped
      unfold shutdownStep at stepped
      dsimp only at stepped
      by_cases busy : pool.activeWorkerCount ≠ 0 ∨ pool.scheduler.isEmpty = false
      · rw [if_pos busy] at stepped
        cases stepped
        apply Occurs.blocks standing
        simpa using busy
      · rw [if_neg busy] at stepped
        cases stepped
        simp only [not_or, not_not, Bool.not_eq_false, List.isEmpty_iff] at busy
        exact .idle standing busy.1 busy.2
    | terminate =>
      rw [standing] at stepped
      cases stepped
      exact .terminates standing
    | drain =>
      rw [standing] at stepped
      cases stepped
      exact .drains standing
    | outside | waitBlocked | drainBlocked | closed =>
      rw [standing] at stepped
      cases stepped
  | shutdownWakes =>
    dsimp only at stepped
    split at stepped
    · next blocked =>
      cases stepped
      exact .shutdownWakes (Or.inl blocked)
    · next blocked =>
      cases stepped
      exact .shutdownWakes (Or.inr blocked)
    · cases stepped

/-! ## The counts -/

/-- The counts are those of the workers. -/
structure Counted (pool : ThreadPool Worker Task) : Prop where
  /-- `m_active_worker_count` counts the workers that do not wait. -/
  active : pool.activeWorkerCount = Threads.total PoolWorkerPc.awake pool.workers
  /-- `m_worker_count` counts the threads. -/
  count : pool.workerCount = Threads.total PoolWorkerPc.alive pool.workers

/-- A worker that moves keeps the counts if they follow it. -/
theorem Counted.move (counted : pool.Counted) (worker : Worker) {pc : PoolWorkerPc Task}
    (workers : next.workers = Function.update pool.workers worker pc)
    (active : next.activeWorkerCount =
      pool.activeWorkerCount + pc.awake - (pool.workers worker).awake)
    (count : next.workerCount = pool.workerCount + pc.alive - (pool.workers worker).alive) :
    next.Counted := by
  have awake := Threads.total_update PoolWorkerPc.awake pool.workers worker pc
  have alive := Threads.total_update PoolWorkerPc.alive pool.workers worker pc
  rw [← workers] at awake alive
  have before := counted.active
  have threads := counted.count
  constructor
  · omega
  · omega

omit [DecidableEq Worker] in
/-- What leaves the workers and the counts keeps them. -/
theorem Counted.same (counted : pool.Counted) (workers : next.workers = pool.workers)
    (active : next.activeWorkerCount = pool.activeWorkerCount)
    (count : next.workerCount = pool.workerCount) : next.Counted := by
  constructor
  · rw [active, workers]
    exact counted.active
  · rw [count, workers]
    exact counted.count

/-- Every step keeps the counts. -/
theorem Occurs.counted {event : PoolEvent Worker Task} (occurs : pool.Occurs event next)
    (counted : pool.Counted) : next.Counted := by
  cases occurs with
  | notified task worker waits | wakes worker waits =>
    apply counted.move worker rfl
    · simp [waits, workerAt, PoolWorkerPc.awake]
    · simp [waits, workerAt, PoolWorkerPc.alive]
  | leaves worker hunts | sleeps worker hunts | fetches worker task rest hunts =>
    apply counted.move worker rfl
    · simp only [notifyIdle, PoolWorkerPc.awake]
      omega
    · rcases PoolWorkerPc.hunting_pos hunts with standing | standing
      all_goals simp [notifyIdle, standing, workerAt, PoolWorkerPc.alive]
  | ends worker task runs =>
    apply counted.move worker rfl
    · simp [runs, workerAt, PoolWorkerPc.awake]
    · simp [runs, workerAt, PoolWorkerPc.alive]
  | destructed worker left =>
    apply counted.move worker rfl
    · simp [left, workerDestructed, notifyIdle, PoolWorkerPc.awake]
    · simp [left, workerDestructed, notifyIdle, PoolWorkerPc.alive]
  | terminates tells =>
    constructor
    · simp only [drain, Threads.total, PoolWorkerPc.awake_notified]
      exact counted.active
    · simp only [drain, Threads.total, PoolWorkerPc.alive_notified]
      exact counted.count
  | scheduled | delete | blocks | idle | drains | shutdownWakes => exact counted.same rfl rfl rfl

/-- What holds of a pool in every interleaving. -/
structure Steady (pool : ThreadPool Worker Task) : Prop where
  /-- The counts are those of the workers. -/
  counted : pool.Counted
  /-- `m_terminate_all_workers` is set by the thread that deletes. -/
  flag : pool.terminateAllWorkers = pool.shutdown.terminating
  /-- All workers are wanted, or none. -/
  target : pool.targetWorkerCount = if pool.terminateAllWorkers then 0 else Fintype.card Worker
  /-- No worker leaves before the pool is deleted. -/
  stays : pool.terminateAllWorkers = false → ∀ worker, (pool.workers worker).stays = true
  /-- No worker waits once all of them are told to leave. -/
  roused : pool.terminateAllWorkers = true → ∀ worker, (pool.workers worker).waits = false
  /-- No notification is lost: while a worker waits, for every task in the queue another worker is
  about to look for one. -/
  noticed : ∀ worker, (pool.workers worker).waits = true →
    pool.scheduler.length ≤ Threads.total PoolWorkerPc.hunting pool.workers

omit [DecidableEq Worker] in
/-- A worker that finds too many workers has been told to leave. -/
theorem Steady.told (steady : pool.Steady) (fewer : pool.targetWorkerCount < pool.workerCount) :
    pool.terminateAllWorkers = true := by
  by_contra used
  have bound : Threads.total PoolWorkerPc.alive pool.workers ≤ Fintype.card Worker * 1 := by
    apply Threads.total_le
    intro worker
    cases pool.workers worker with
    | gone => exact Nat.zero_le 1
    | fetch | waiting | woken | run | leave => exact le_refl 1
  have count := steady.counted.count
  rw [steady.target, if_neg used] at fewer
  omega

omit [DecidableEq Worker] in
/-- A worker that looks for a task is one of the threads that are counted. -/
theorem Steady.one_alive (steady : pool.Steady) {worker : Worker}
    (hunts : (pool.workers worker).hunting = 1) : 0 < pool.workerCount := by
  have own : (pool.workers worker).alive ≤ Threads.total PoolWorkerPc.alive pool.workers :=
    Finset.single_le_sum (f := fun worker => (pool.workers worker).alive)
      (fun _ _ => Nat.zero_le _) (Finset.mem_univ worker)
  have count := steady.counted.count
  rcases PoolWorkerPc.hunting_pos hunts with standing | standing
  all_goals
    rw [standing] at own
    simp only [PoolWorkerPc.alive] at own
    omega

omit [DecidableEq Worker] in
/-- A worker that finds enough workers has not been told to leave. -/
theorem Steady.untold (steady : pool.Steady) {worker : Worker}
    (hunts : (pool.workers worker).hunting = 1)
    (enough : pool.workerCount ≤ pool.targetWorkerCount) : pool.terminateAllWorkers = false := by
  by_contra told
  have positive := steady.one_alive hunts
  rw [steady.target, if_pos (by simpa using told)] at enough
  omega

/-- A worker that moves keeps the pool steady if it leaves and waits only when it may, and if it
takes no more from the queue than it looked for. -/
theorem Steady.move (steady : pool.Steady) (counted : next.Counted) {worker : Worker}
    {pc : PoolWorkerPc Task} (workers : next.workers = Function.update pool.workers worker pc)
    (flag : next.terminateAllWorkers = pool.terminateAllWorkers)
    (shutdown : next.shutdown.terminating = pool.shutdown.terminating)
    (target : next.targetWorkerCount = pool.targetWorkerCount)
    (stays : pool.terminateAllWorkers = false → pc.stays = true)
    (roused : pool.terminateAllWorkers = true → pc.waits = false)
    (noticed : next.scheduler = [] ∨ (pc.waits = false ∧
      next.scheduler.length + (pool.workers worker).hunting ≤
        pool.scheduler.length + pc.hunting)) : next.Steady where
  counted := counted
  flag := by
    rw [flag, shutdown]
    exact steady.flag
  target := by
    rw [target, flag]
    exact steady.target
  stays := by
    rw [flag, workers]
    exact fun used => Threads.forall_update (fun pc : PoolWorkerPc Task => pc.stays = true)
      (stays used) (steady.stays used)
  roused := by
    rw [flag, workers]
    exact fun told => Threads.forall_update (fun pc : PoolWorkerPc Task => pc.waits = false)
      (roused told) (steady.roused told)
  noticed := by
    intro other waits
    rcases noticed with empty | ⟨awake, fewer⟩
    · rw [empty]
      exact Nat.zero_le _
    · rw [workers] at waits ⊢
      by_cases same : other = worker
      · rw [same, Function.update_self, awake] at waits
        cases waits
      · rw [Function.update_of_ne same] at waits
        have before := steady.noticed other waits
        have hunting := Threads.total_update PoolWorkerPc.hunting pool.workers worker pc
        omega

/-- Every step keeps the pool steady. -/
theorem Occurs.steady {event : PoolEvent Worker Task} (occurs : pool.Occurs event next)
    (steady : pool.Steady) : next.Steady := by
  have counted := occurs.counted steady.counted
  cases occurs with
  | notified task worker waits =>
    apply steady.move counted rfl rfl rfl rfl (fun _ => rfl) fun _ => rfl
    simp [waits, PoolWorkerPc.waits, PoolWorkerPc.hunting]
  | wakes worker waits =>
    apply steady.move counted rfl rfl rfl rfl (fun _ => rfl) fun _ => rfl
    simp [waits, workerAt, PoolWorkerPc.waits, PoolWorkerPc.hunting]
  | ends worker task runs =>
    apply steady.move counted rfl rfl rfl rfl (fun _ => rfl) fun _ => rfl
    simp [runs, workerAt, PoolWorkerPc.waits, PoolWorkerPc.hunting]
  | fetches worker task rest hunts first =>
    apply steady.move counted rfl rfl rfl rfl (fun _ => rfl) fun _ => rfl
    refine Or.inr ⟨rfl, ?_⟩
    rw [hunts, first, List.length_cons]
    exact le_refl (rest.length + 1)
  | sleeps worker hunts empty enough =>
    have used := steady.untold hunts enough
    apply steady.move counted rfl rfl (ShutdownPc.terminating_notified _) rfl (fun _ => rfl)
    · exact fun told => absurd (told.symm.trans used) (by decide)
    · exact Or.inl empty
  | leaves worker hunts fewer =>
    have told := steady.told fewer
    have roused : ∀ other, (Function.update pool.workers worker .leave other).waits = false :=
      Threads.forall_update (fun pc : PoolWorkerPc Task => pc.waits = false) rfl
        (steady.roused told)
    refine ⟨counted, steady.flag, steady.target, fun used => ?_, fun _ => roused,
      fun other waits => ?_⟩
    · exact absurd (told.symm.trans used) (by decide)
    · exact absurd ((roused other).symm.trans waits) (by decide)
  | destructed worker left =>
    apply steady.move counted rfl rfl (ShutdownPc.terminating_notified _) rfl _ fun _ => rfl
    · simp [left, workerDestructed, notifyIdle, workerAt, PoolWorkerPc.waits, PoolWorkerPc.hunting]
    · intro used
      have stays := steady.stays used worker
      rw [left] at stays
      cases stays
  | scheduled task none_waits =>
    refine ⟨counted, steady.flag, steady.target, steady.stays, steady.roused, fun other waits => ?_⟩
    rw [none_waits other] at waits
    cases waits
  | delete used =>
    have flag := steady.flag
    rw [used] at flag
    exact ⟨counted, flag, steady.target, steady.stays, steady.roused, steady.noticed⟩
  | blocks tests | idle tests =>
    have flag := steady.flag
    rw [tests] at flag
    exact ⟨counted, flag, steady.target, steady.stays, steady.roused, steady.noticed⟩
  | terminates tells =>
    have roused (worker : Worker) : (pool.workers worker).notified.waits = false :=
      PoolWorkerPc.waits_notified _
    refine ⟨counted, ?_, rfl, fun used => (by cases used), fun _ => roused, fun other waits => ?_⟩
    · show true = ShutdownPc.terminating (if 0 < pool.activeWorkerCount then _ else _)
      split <;> rfl
    · exact absurd ((roused other).symm.trans waits) (by decide)
  | drains tests =>
    have flag := steady.flag
    rw [tests] at flag
    refine ⟨counted, ?_, steady.target, steady.stays, steady.roused, steady.noticed⟩
    show pool.terminateAllWorkers =
      ShutdownPc.terminating (if 0 < pool.activeWorkerCount then _ else _)
    rw [flag]
    split <;> rfl
  | shutdownWakes blocked =>
    refine ⟨counted, ?_, steady.target, steady.stays, steady.roused, steady.noticed⟩
    exact steady.flag.trans (ShutdownPc.terminating_notified _).symm

omit [DecidableEq Worker] in
/-- A new pool is steady. -/
theorem create_steady : (create : ThreadPool Worker Task).Steady where
  counted := by
    constructor
    all_goals simp [create, Threads.total, PoolWorkerPc.awake, PoolWorkerPc.alive]
  flag := rfl
  target := rfl
  stays := fun _ _ => rfl
  roused := fun told => (by cases told)
  noticed := fun _ waits => (by cases waits)

/-! ## The tasks -/

omit [Fintype Worker] in
/-- The tasks are fetched in the order in which they were scheduled. -/
theorem Occurs.fifo {event : PoolEvent Worker Task} (occurs : pool.Occurs event next) :
    next.started ++ next.scheduler = pool.started ++ pool.scheduler ++ event.scheduled := by
  cases occurs with
  | notified | scheduled => simp [workerAt, PoolEvent.scheduled]
  | fetches worker task rest hunts first => simp [first, PoolEvent.scheduled]
  | leaves | sleeps | ends | destructed | wakes | delete | blocks | idle | terminates | drains
    | shutdownWakes => exact (List.append_nil _).symm

section Accounts

variable [DecidableEq Task]

/-- Every task that has been fetched is executed or has been, once each time. -/
def Accounted (pool : ThreadPool Worker Task) : Prop :=
  ∀ task, pool.started.count task =
    pool.finished.count task + Threads.total (PoolWorkerPc.running task) pool.workers

/-- A worker that moves keeps the account of the tasks if it starts and ends what it runs. -/
theorem Accounted.move (accounted : pool.Accounted) (worker : Worker) {pc : PoolWorkerPc Task}
    (workers : next.workers = Function.update pool.workers worker pc)
    (counts : ∀ task, next.started.count task + pool.finished.count task +
      (pool.workers worker).running task =
        next.finished.count task + pool.started.count task + pc.running task) :
    next.Accounted := by
  intro task
  have before := accounted task
  have moved := Threads.total_update (PoolWorkerPc.running task) pool.workers worker pc
  have own := counts task
  rw [workers]
  omega

/-- Every step keeps the account of the tasks. -/
theorem Occurs.accounted {event : PoolEvent Worker Task} (occurs : pool.Occurs event next)
    (accounted : pool.Accounted) : next.Accounted := by
  cases occurs with
  | notified task worker waits | wakes worker waits =>
    apply accounted.move worker rfl
    intro other
    simp only [waits, workerAt, PoolWorkerPc.running]
    omega
  | leaves worker hunts | sleeps worker hunts =>
    apply accounted.move worker rfl
    intro other
    rcases PoolWorkerPc.hunting_pos hunts with standing | standing
    all_goals
      simp only [standing, notifyIdle, workerAt, PoolWorkerPc.running]
      omega
  | fetches worker task rest hunts first =>
    apply accounted.move worker rfl
    intro other
    rcases PoolWorkerPc.hunting_pos hunts with standing | standing
    all_goals
      simp only [standing, workerAt, PoolWorkerPc.running, List.count_append, List.count_singleton,
        beq_iff_eq]
      omega
  | ends worker task runs =>
    apply accounted.move worker rfl
    intro other
    simp only [runs, workerAt, PoolWorkerPc.running, List.count_append, List.count_singleton,
      beq_iff_eq]
    omega
  | destructed worker left =>
    apply accounted.move worker rfl
    intro other
    simp only [left, workerDestructed, notifyIdle, workerAt, PoolWorkerPc.running]
    omega
  | terminates tells =>
    intro task
    simp only [drain, Threads.total, PoolWorkerPc.running_notified]
    exact accounted task
  | scheduled | delete | blocks | idle | drains | shutdownWakes => exact accounted

end Accounts

/-! ## The deletion -/

omit [DecidableEq Worker] in
/-- A worker that is awake is counted as active. -/
theorem Counted.awake_le (counted : pool.Counted) (worker : Worker) :
    ((pool.workers worker).awake : Int) ≤ pool.activeWorkerCount := by
  have own : (pool.workers worker).awake ≤ Threads.total PoolWorkerPc.awake pool.workers :=
    Finset.single_le_sum (f := fun worker => (pool.workers worker).awake)
      (fun _ _ => Nat.zero_le _) (Finset.mem_univ worker)
  have active := counted.active
  omega

/-- Whoever waits in a deletion has something to wait for. -/
structure Unmissed (pool : ThreadPool Worker Task) : Prop where
  /-- Whoever waits for the tasks has not missed the end of the last one. -/
  blocked : pool.shutdown = .waitBlocked → 0 < pool.activeWorkerCount ∨ pool.scheduler ≠ []
  /-- Whoever waits for the workers has not missed the end of the last one. -/
  drained : pool.shutdown = .drainBlocked → 0 < pool.activeWorkerCount

omit [Fintype Worker] [DecidableEq Worker] in
/-- After a notification nobody waits in a deletion. -/
theorem Unmissed.of_notified {pc : ShutdownPc} (notified : pool.shutdown = pc.notified) :
    pool.Unmissed := by
  constructor
  all_goals
    intro waits
    rw [notified] at waits
    cases pc <;> cases waits

omit [DecidableEq Worker] in
/-- While a worker is awake, whoever waits in a deletion has something to wait for. -/
theorem Unmissed.of_awake (worker : Worker) (counted : pool.Counted)
    (awake : (pool.workers worker).awake = 1) : pool.Unmissed := by
  have own := counted.awake_le worker
  rw [awake] at own
  have active : 0 < pool.activeWorkerCount := by omega
  exact ⟨fun _ => Or.inl active, fun _ => active⟩

/-- The worker is on its way out. -/
def leaving : PoolWorkerPc Task → Bool
  | .woken | .leave | .gone => true
  | _ => false

/-- What holds of a pool while it is deleted. -/
structure Closing (pool : ThreadPool Worker Task) : Prop where
  /-- The tasks have been waited for. -/
  idle : pool.shutdown = .terminate → pool.scheduler = [] ∧ pool.activeWorkerCount = 0
  /-- No worker is waited for. -/
  undrained : pool.shutdown ≠ .drain ∧ pool.shutdown ≠ .drainBlocked
  /-- The pool is deleted while its workers are on their way out. -/
  closed : pool.shutdown = .closed →
    pool.scheduler = [] ∧ ∀ worker, leaving (pool.workers worker) = true
  /-- `m_terminated_workers` holds each worker that has ended. -/
  joined : pool.terminatedWorkers.Nodup ∧
    ∀ worker, worker ∈ pool.terminatedWorkers ↔ pool.workers worker = .gone

omit [Fintype Worker] in
/-- A worker that moves without ending keeps `m_terminated_workers`. -/
theorem Closing.joined_move {worker : Worker} {pc : PoolWorkerPc Task} (closing : pool.Closing)
    (before : pool.workers worker ≠ .gone) (after : pc ≠ .gone) (other : Worker) :
    other ∈ pool.terminatedWorkers ↔ Function.update pool.workers worker pc other = .gone := by
  by_cases same : other = worker
  · rw [same, Function.update_self, closing.joined.2 worker]
    exact iff_of_false before after
  · rw [Function.update_of_ne same]
    exact closing.joined.2 other

omit [Fintype Worker] in
/-- What a move of a worker has to keep while the pool is deleted. -/
theorem Closing.move (closing : pool.Closing) (worker : Worker) {pc : PoolWorkerPc Task}
    (workers : next.workers = Function.update pool.workers worker pc)
    (before : pool.workers worker ≠ .gone) (after : pc ≠ .gone)
    (terminated : next.terminatedWorkers = pool.terminatedWorkers)
    (shutdown : next.shutdown ≠ .wait → next.shutdown = pool.shutdown)
    (idle : pool.shutdown = .terminate → pool.scheduler = [] → pool.activeWorkerCount = 0 →
      next.scheduler = [] ∧ next.activeWorkerCount = 0)
    (closed : pool.shutdown = .closed → pool.scheduler = [] →
      leaving (pool.workers worker) = true → next.scheduler = [] ∧ leaving pc = true) :
    next.Closing := by
  have same {pc : ShutdownPc} (there : next.shutdown = pc) (apart : pc ≠ .wait) :
      pool.shutdown = pc := by
    rw [← there]
    apply (shutdown _).symm
    rw [there]
    exact apart
  refine ⟨fun tells => ?_, ⟨fun drains => ?_, fun drains => ?_⟩, fun ends => ?_, ?_, ?_⟩
  · have rests := closing.idle (same tells (by decide))
    exact idle (same tells (by decide)) rests.1 rests.2
  · exact closing.undrained.1 (same drains (by decide))
  · exact closing.undrained.2 (same drains (by decide))
  · have rests := closing.closed (same ends (by decide))
    have own := closed (same ends (by decide)) rests.1 (rests.2 worker)
    rw [workers]
    exact ⟨own.1, Threads.forall_update (fun pc => leaving pc = true) own.2 rests.2⟩
  · rw [terminated]
    exact closing.joined.1
  · rw [terminated, workers]
    exact closing.joined_move before after

/-- A notification leaves the thread that deletes where it is, unless it waits. -/
theorem notified_eq {pc : ShutdownPc} (undrained : pc ≠ .drainBlocked)
    (apart : pc.notified ≠ .wait) : pc.notified = pc := by
  cases pc with
  | waitBlocked => exact absurd rfl apart
  | drainBlocked => exact absurd rfl undrained
  | outside | wait | terminate | drain | closed => rfl

omit [Fintype Worker] [DecidableEq Worker] in
/-- A worker that looks for a task has not ended. -/
theorem not_gone {worker : Worker} (hunts : (pool.workers worker).hunting = 1) :
    pool.workers worker ≠ .gone := by
  intro gone
  rw [gone] at hunts
  cases hunts

/-- Every step leaves whoever waits in a deletion with something to wait for. -/
theorem Occurs.unmissed {event : PoolEvent Worker Task} (occurs : pool.Occurs event next)
    (steady : pool.Steady) (unmissed : pool.Unmissed) : next.Unmissed := by
  have counted : next.Counted := occurs.counted steady.counted
  cases occurs with
  | notified task | scheduled task => exact ⟨fun _ => Or.inr (by simp), unmissed.drained⟩
  | leaves worker | fetches worker | ends worker =>
    apply Unmissed.of_awake worker counted
    simp [workerAt, PoolWorkerPc.awake]
  | sleeps | destructed | shutdownWakes => exact Unmissed.of_notified rfl
  | wakes => exact ⟨unmissed.blocked, unmissed.drained⟩
  | delete | idle =>
    constructor
    all_goals exact fun waits => (by cases waits)
  | blocks tests busy =>
    refine ⟨fun _ => busy.imp_left fun active => ?_, fun waits => (by cases waits)⟩
    have positive := steady.counted.active
    show 0 < pool.activeWorkerCount
    omega
  | terminates | drains =>
    constructor
    all_goals
      intro waits
      unfold drain at waits ⊢
      dsimp only at waits ⊢
      split at waits
      · next active => first | exact active | exact Or.inl active
      · cases waits

omit [DecidableEq Worker] in
/-- Nobody deletes a new pool. -/
theorem create_unmissed : (create : ThreadPool Worker Task).Unmissed where
  blocked := fun waits => (by cases waits)
  drained := fun waits => (by cases waits)

/-- Every step of a pool on which nobody schedules while it is deleted keeps what holds then. -/
theorem Occurs.closing {event : PoolEvent Worker Task} (occurs : pool.Occurs event next)
    (steady : pool.Steady) (closing : pool.Closing) (calm : pool.Calm event) : next.Closing := by
  have flag := steady.flag
  cases occurs with
  | notified task worker waits =>
    have used : pool.shutdown = .outside := calm
    refine closing.move worker rfl ?_ ?_ rfl (fun _ => rfl) ?_ ?_
    · simp [waits]
    · simp
    all_goals simp [used]
  | scheduled task none_waits =>
    have used : pool.shutdown = .outside := calm
    refine ⟨?_, closing.undrained, ?_, closing.joined⟩
    all_goals simp [used]
  | leaves worker hunts fewer =>
    rw [steady.told fewer] at flag
    refine closing.move worker rfl (not_gone hunts) ?_ rfl (fun _ => rfl) ?_ ?_
    · simp
    · intro tells
      rw [tells] at flag
      cases flag
    · intro _ empty _
      exact ⟨empty, rfl⟩
  | sleeps worker hunts empty enough =>
    rw [steady.untold hunts enough] at flag
    refine closing.move worker rfl (not_gone hunts) ?_ rfl
      (fun apart => notified_eq closing.undrained.2 apart) ?_ ?_
    · simp
    · intro _ _ resting
      have own := steady.counted.awake_le worker
      simp only [notifyIdle]
      refine ⟨empty, ?_⟩
      omega
    · intro ends
      rw [ends] at flag
      cases flag
  | fetches worker task rest hunts first =>
    refine closing.move worker rfl (not_gone hunts) ?_ rfl (fun _ => rfl) ?_ ?_
    · simp
    all_goals simp [first]
  | ends worker task runs =>
    have own := steady.counted.awake_le worker
    rw [runs] at own
    simp only [PoolWorkerPc.awake] at own
    refine closing.move worker rfl ?_ ?_ rfl (fun _ => rfl) ?_ ?_
    · simp [runs]
    · simp
    · intro _ _ resting
      omega
    · simp [runs, leaving]
  | wakes worker waits =>
    refine closing.move worker rfl ?_ ?_ rfl (fun _ => rfl) ?_ ?_
    · simp [waits]
    · simp
    · exact fun _ empty resting => ⟨empty, resting⟩
    · simp [waits, leaving]
  | destructed worker left =>
    have told : pool.terminateAllWorkers = true := by
      by_contra used
      have stays := steady.stays (by simpa using used) worker
      rw [left] at stays
      cases stays
    have ends : pool.shutdown = .closed := by
      rw [told] at flag
      cases standing : pool.shutdown with
      | closed => rfl
      | drain => exact absurd standing closing.undrained.1
      | drainBlocked => exact absurd standing closing.undrained.2
      | outside | wait | waitBlocked | terminate =>
        rw [standing] at flag
        cases flag
    have rests := closing.closed ends
    have after : (pool.workerDestructed worker).shutdown = .closed := by
      show pool.shutdown.notified = .closed
      rw [ends]
      rfl
    have before : worker ∉ pool.terminatedWorkers := by
      rw [closing.joined.2 worker, left]
      simp
    refine ⟨?_, ?_, fun _ => ⟨rests.1, ?_⟩, ?_, fun other => ?_⟩
    · simp [after]
    · simp [after]
    · exact Threads.forall_update (fun pc => leaving pc = true) rfl rests.2
    · simp only [workerDestructed, notifyIdle, told, if_true]
      rw [List.nodup_append_comm]
      exact List.nodup_cons.mpr ⟨before, closing.joined.1⟩
    · simp only [workerDestructed, notifyIdle, workerAt, told, if_true, List.mem_append,
        List.mem_singleton]
      by_cases same : other = worker
      · rw [same, Function.update_self]
        exact iff_of_true (Or.inr rfl) rfl
      · rw [Function.update_of_ne same, closing.joined.2 other]
        simp [same]
  | delete used =>
    refine ⟨?_, ?_, ?_, closing.joined⟩
    all_goals simp
  | blocks tests busy =>
    refine ⟨?_, ?_, ?_, closing.joined⟩
    all_goals simp
  | idle tests resting empty =>
    refine ⟨fun _ => ⟨empty, resting⟩, ?_, ?_, closing.joined⟩
    all_goals simp
  | terminates tells =>
    have rests := closing.idle tells
    rw [tells] at flag
    have ends : ¬ 0 < pool.activeWorkerCount := by omega
    have stays (worker : Worker) : (pool.workers worker).stays = true := steady.stays flag worker
    have asleep (worker : Worker) : (pool.workers worker).awake = 0 := by
      have own := steady.counted.awake_le worker
      omega
    refine ⟨?_, ?_, fun _ => ⟨rests.1, fun worker => ?_⟩, ?_, fun worker => ?_⟩
    · simp [drain, ends]
    · simp [drain, ends]
    · have own := stays worker
      have rested := asleep worker
      simp only [drain]
      cases standing : pool.workers worker with
      | waiting | woken => rfl
      | fetch | run | leave =>
        rw [standing] at rested
        cases rested
      | gone =>
        rw [standing] at own
        cases own
    · simp [drain, ends]
    · have own := stays worker
      simp only [drain, if_neg ends, List.not_mem_nil, false_iff]
      intro gone
      have same := PoolWorkerPc.stays_notified (pool.workers worker)
      rw [gone, own] at same
      cases same
  | drains tests => exact absurd tests closing.undrained.1
  | shutdownWakes blocked =>
    rcases blocked with waits | drains
    · refine ⟨?_, ?_, ?_, closing.joined⟩
      all_goals simp [notifyIdle, waits, ShutdownPc.notified]
    · exact absurd drains closing.undrained.2

omit [DecidableEq Worker] in
/-- A new pool is not being deleted. -/
theorem create_closing : (create : ThreadPool Worker Task).Closing where
  idle := fun tells => (by cases tells)
  undrained := ⟨fun drains => (by cases drains), fun drains => (by cases drains)⟩
  closed := fun ends => (by cases ends)
  joined := ⟨List.nodup_nil, fun _ =>
    iff_of_false (List.not_mem_nil) fun gone => (by cases gone)⟩

end ThreadPool

end CudaDb
