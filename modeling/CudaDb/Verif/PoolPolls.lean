import CudaDb.Verif.ThreadPoolRuns

/-!
# Waiting for the tasks of a pool

`WriteBuffer::sync` and `SSDCache::sync` leave their loops once they have read 0 for both counts of
their pool, one after the other. A task moves from the queue to a worker, so the order of the reads
matters: whoever looks at the queue first has waited for every task, and whoever looks at it last
can miss the tasks that are fetched in between.
-/

namespace CudaDb

variable {Worker Task : Type*} [Fintype Worker] [DecidableEq Worker]

namespace ThreadPool

variable {pool next : ThreadPool Worker Task}

omit [Fintype Worker] in
/-- The fetched tasks only become more. -/
theorem Occurs.started_prefix {event : PoolEvent Worker Task} (occurs : pool.Occurs event next) :
    pool.started <+: next.started := by
  cases occurs with
  | fetches => exact List.prefix_append ..
  | _ => exact List.prefix_refl _

omit [Fintype Worker] in
/-- The executed tasks only become more. -/
theorem Occurs.finished_prefix {event : PoolEvent Worker Task} (occurs : pool.Occurs event next) :
    pool.finished <+: next.finished := by
  cases occurs with
  | ends => exact List.prefix_append ..
  | _ => exact List.prefix_refl _

omit [DecidableEq Worker] in
/-- While no worker is active, every fetched task has been executed. -/
theorem Accounted.rested [DecidableEq Task] (accounted : pool.Accounted) (counted : pool.Counted)
    (inactive : ¬ 0 < pool.activeWorkerCount) : pool.finished.Perm pool.started := by
  apply accounted.all_ended
  intro worker task runs
  have own := counted.awake_le worker
  rw [runs] at own
  simp only [PoolWorkerPc.awake] at own
  omega

end ThreadPool

namespace Polled

variable [DecidableEq Task] {polled next : Polled Worker Task}

/-- What the pool keeps of its workers and its tasks. -/
structure Tracked (pool : ThreadPool Worker Task) : Prop where
  /-- The counts are those of the workers. -/
  steady : pool.Steady
  /-- Every fetched task is being executed or has been. -/
  accounted : pool.Accounted

/-- What `SSDCache::sync` knows of the tasks. -/
def Drained (pool : ThreadPool Worker Task) : PollPc Task → Prop
  | .first => True
  | .second scheduled _ => scheduled <+: pool.started
  | .passed scheduled _ _ => ∀ task, scheduled.count task ≤ pool.finished.count task

/-- What `WriteBuffer::sync` knows of the tasks. -/
def Rested (pool : ThreadPool Worker Task) : PollPc Task → Prop
  | .first => True
  | .second scheduled started => scheduled <+: pool.started ++ pool.scheduler ∧
      started <+: pool.started ∧ ∀ task, started.count task ≤ pool.finished.count task
  | .passed scheduled started later => ∀ task, scheduled.count task ≤
      pool.finished.count task + (later.drop started.length).count task

omit [Fintype Worker] in
/-- A step of the pool leaves what `SSDCache::sync` knows. -/
theorem Drained.pool {pool after : ThreadPool Worker Task} {event : PoolEvent Worker Task}
    {poll : PollPc Task} (drained : Drained pool poll) (occurs : pool.Occurs event after) :
    Drained after poll := by
  have started := occurs.started_prefix
  have finished := occurs.finished_prefix
  cases poll with
  | first => trivial
  | second => exact drained.trans started
  | passed => exact fun task => (drained task).trans (finished.sublist.count_le task)

omit [Fintype Worker] in
/-- A step of the pool leaves what `WriteBuffer::sync` knows. -/
theorem Rested.pool {pool after : ThreadPool Worker Task} {event : PoolEvent Worker Task}
    {poll : PollPc Task} (rested : Rested pool poll) (occurs : pool.Occurs event after) :
    Rested after poll := by
  have started := occurs.started_prefix
  have finished := occurs.finished_prefix
  cases poll with
  | first => trivial
  | second =>
    refine ⟨rested.1.trans ?_, rested.2.1.trans started, fun task =>
      (rested.2.2 task).trans (finished.sublist.count_le task)⟩
    rw [occurs.fifo]
    exact List.prefix_append ..
  | passed =>
    intro task
    have known := rested task
    have more := finished.sublist.count_le task
    omega

omit [DecidableEq Worker] in
/-- A read of `SSDCache::sync` adds what it sees. -/
theorem Drained.read {pool : ThreadPool Worker Task} {poll after : PollPc Task}
    (tracked : Tracked pool) (drained : Drained pool poll)
    (read : pollStep ssdCacheSync pool poll = some after) : Drained pool after := by
  unfold pollStep at read
  cases poll with
  | passed => cases read
  | first =>
    by_cases pending : 0 < (pool.scheduler.length : Int)
    · obtain rfl := Option.some.inj ((if_pos pending).symm.trans read)
      trivial
    · obtain rfl := Option.some.inj ((if_neg pending).symm.trans read)
      have empty : pool.scheduler = [] := List.length_eq_zero_iff.mp (by omega)
      show pool.started ++ pool.scheduler <+: pool.started
      rw [empty, List.append_nil]
  | second scheduled started =>
    by_cases active : 0 < pool.activeWorkerCount
    · obtain rfl := Option.some.inj ((if_pos active).symm.trans read)
      trivial
    · obtain rfl := Option.some.inj ((if_neg active).symm.trans read)
      have ended := tracked.accounted.rested tracked.steady.counted active
      intro task
      rw [ended.count_eq task]
      exact drained.sublist.count_le task

omit [DecidableEq Worker] in
/-- A read of `WriteBuffer::sync` adds what it sees. -/
theorem Rested.read {pool : ThreadPool Worker Task} {poll after : PollPc Task}
    (tracked : Tracked pool) (rested : Rested pool poll)
    (read : pollStep writeBufferSync pool poll = some after) : Rested pool after := by
  unfold pollStep at read
  cases poll with
  | passed => cases read
  | first =>
    by_cases active : 0 < pool.activeWorkerCount
    · obtain rfl := Option.some.inj ((if_pos active).symm.trans read)
      trivial
    · obtain rfl := Option.some.inj ((if_neg active).symm.trans read)
      have ended := tracked.accounted.rested tracked.steady.counted active
      exact ⟨List.prefix_refl _, List.prefix_refl _, fun task => (ended.count_eq task).ge⟩
  | second scheduled started =>
    by_cases pending : 0 < (pool.scheduler.length : Int)
    · obtain rfl := Option.some.inj ((if_pos pending).symm.trans read)
      trivial
    · obtain rfl := Option.some.inj ((if_neg pending).symm.trans read)
      have empty : pool.scheduler = [] := List.length_eq_zero_iff.mp (by omega)
      have known := rested.1
      rw [empty, List.append_nil] at known
      intro task
      have all := known.sublist.count_le task
      have before := rested.2.2 task
      obtain ⟨between, split⟩ := rested.2.1
      show scheduled.count task ≤
        pool.finished.count task + (pool.started.drop started.length).count task
      rw [← split, List.count_append] at all
      rw [← split, List.drop_left]
      omega

/-- What a loop knows holds in every run, if every step of the pool leaves it and every read of the
loop adds what it sees. -/
theorem run_knows {reads : Reads Worker Task} {events : List (Option (PoolEvent Worker Task))}
    (knows : ThreadPool Worker Task → PollPc Task → Prop)
    (start : knows .create .first)
    (moves : ∀ pool after event poll, knows pool poll → pool.Occurs event after →
      knows after poll)
    (sees : ∀ pool poll after, Tracked pool → knows pool poll →
      pollStep reads pool poll = some after → knows pool after)
    (ran : (machine reads).run ⟨.create, .first⟩ events = some polled) :
    knows polled.pool polled.poll := by
  have created : Tracked (.create : ThreadPool Worker Task) :=
    ⟨ThreadPool.create_steady, ThreadPool.create_kept.accounted⟩
  have both : Tracked polled.pool ∧ knows polled.pool polled.poll := by
    apply Machine.run_invariant (fun polled : Polled Worker Task =>
      Tracked polled.pool ∧ knows polled.pool polled.poll) _ ⟨created, start⟩ ran
    rintro before label after ⟨tracked, known⟩ stepped
    cases label with
    | some event =>
      obtain ⟨pool, taken, rfl⟩ := Option.map_eq_some_iff.mp stepped
      have occurs := ThreadPool.step_occurs taken
      exact ⟨⟨occurs.steady tracked.steady, occurs.accounted tracked.accounted⟩,
        moves before.pool pool event before.poll known occurs⟩
    | none =>
      obtain ⟨poll, read, rfl⟩ := Option.map_eq_some_iff.mp stepped
      exact ⟨tracked, sees before.pool before.poll poll tracked known read⟩
  exact both.2

/-- When `SSDCache::sync` has left its loop over the pool, every task that had been scheduled when
it last looked at the queue has been executed, in every interleaving with the threads of the pool
and with those that schedule. -/
theorem ssdCacheSync_waits {events : List (Option (PoolEvent Worker Task))}
    {scheduled started later : List Task}
    (ran : (machine ssdCacheSync).run ⟨.create, .first⟩ events = some polled)
    (left : polled.poll = .passed scheduled started later) (task : Task) :
    scheduled.count task ≤ polled.pool.finished.count task := by
  have known : Drained polled.pool polled.poll :=
    run_knows Drained trivial (fun _ _ _ _ drained occurs => drained.pool occurs)
      (fun _ _ _ tracked drained read => drained.read tracked read) ran
  rw [left] at known
  exact known task

/-- A worker is woken for the task 7. -/
def wokenForTask : List (Option (PoolEvent Bool Nat)) :=
  [some (.worker false), some (.worker true), some (.schedule 7 (some true))]

/-- The loop of `SSDCache::sync` is left after the task. -/
theorem ssdCacheSync_waits_wokenForTask :
    ∃ polled, (machine ssdCacheSync).run ⟨.create, .first⟩ (wokenForTask ++
        [none, some (.worker true), none, none, some (.worker true), some (.worker true), none,
          none]) = some polled ∧
      polled.poll = .passed [7] [7] [7] ∧ [7].count 7 ≤ polled.pool.finished.count 7 := by
  have executed : ∃ polled, (machine ssdCacheSync).run ⟨.create, .first⟩ (wokenForTask ++
        [none, some (.worker true), none, none, some (.worker true), some (.worker true), none,
          none]) = some polled ∧ polled.poll = .passed [7] [7] [7] := ⟨_, rfl, rfl⟩
  obtain ⟨polled, ran, left⟩ := executed
  exact ⟨polled, ran, left, ssdCacheSync_waits ran left 7⟩

/-- When `WriteBuffer::sync` has left its loop, every task that had been scheduled when it last
looked at the active workers has been executed, apart from those that were fetched since, before it
looked at the queue. -/
theorem writeBufferSync_waits {events : List (Option (PoolEvent Worker Task))}
    {scheduled started later : List Task}
    (ran : (machine writeBufferSync).run ⟨.create, .first⟩ events = some polled)
    (left : polled.poll = .passed scheduled started later) (task : Task) :
    scheduled.count task ≤
      polled.pool.finished.count task + (later.drop started.length).count task := by
  have known : Rested polled.pool polled.poll :=
    run_knows Rested trivial (fun _ _ _ _ rested occurs => rested.pool occurs)
      (fun _ _ _ tracked rested read => rested.read tracked read) ran
  rw [left] at known
  exact known task

/-- The loop of `WriteBuffer::sync` can be left while the task is being executed: the worker that
has been woken for it fetches it between the two reads. -/
theorem writeBufferSync_waits_wokenForTask :
    ∃ polled, (machine writeBufferSync).run ⟨.create, .first⟩ (wokenForTask ++
        [none, some (.worker true), none]) = some polled ∧
      polled.poll = .passed [7] [] [7] ∧ polled.pool.workers true = .run 7 ∧
      polled.pool.finished = [] ∧
      [7].count 7 ≤ polled.pool.finished.count 7 + ([7].drop 0).count 7 := by
  have executed : ∃ polled, (machine writeBufferSync).run ⟨.create, .first⟩ (wokenForTask ++
        [none, some (.worker true), none]) = some polled ∧
      polled.poll = .passed [7] [] [7] ∧ polled.pool.workers true = .run 7 ∧
      polled.pool.finished = [] := ⟨_, rfl, rfl, rfl, rfl⟩
  obtain ⟨polled, ran, left, runs, unfinished⟩ := executed
  exact ⟨polled, ran, left, runs, unfinished, writeBufferSync_waits ran left 7⟩

end Polled

end CudaDb
