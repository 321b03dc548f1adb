import CudaDb.Model.Server
import CudaDb.Model.ThreadPool

/-!
# The server with the pools of its stores

`WriteBuffer::close` deletes `flush_thread_pool`, and `SSDCache::close` calls `SSDCache::sync`
before it deletes `thread_pool`, so the thread of `CreateMogEntry` waits in both for the tasks that
the workers have scheduled. Here the statements of the server interleave with the sections of both
pools, with their deletions and with the reads of `SSDCache::sync`. Its second loop is left out: it
waits for `unsynced_block_id`, which nothing fills, since no code calls `SSDCache::new_block`. Which
call of a worker schedules a task is left open.
-/

namespace CudaDb

/-- The loop of `sync` has been left. -/
def PollPc.left {Task : Type*} : PollPc Task → Bool
  | .passed _ _ _ => true
  | _ => false

/-- The server with both pools. -/
structure ServerPools (Worker Flusher Fetcher Task : Type*) where
  /-- The threads of the server. -/
  server : Server Worker
  /-- `flush_thread_pool` of the write buffer. -/
  flushThreadPool : ThreadPool Flusher Task
  /-- `thread_pool` of the SSD cache, with the loop of `SSDCache::sync`. -/
  threadPool : Polled Fetcher Task

namespace ServerPools

variable {Worker Flusher Fetcher Task : Type*}

/-- What can happen next. -/
inductive Event (Worker Flusher Fetcher Task : Type*)
  /-- A thread of the server executes its next statement. -/
  | server (event : Server.Event Worker)
  /-- A step of `flush_thread_pool`, of a thread that uses it or of its deletion. -/
  | flush (event : PoolEvent Flusher Task)
  /-- A step of `thread_pool`, of a thread that uses it or of its deletion; without an event of the
  pool, a read of `SSDCache::sync`. -/
  | fetch (event : Option (PoolEvent Fetcher Task))

/-- The thread of `CreateMogEntry` has to wait before it goes on from this statement. -/
def waits (state : ServerPools Worker Flusher Fetcher Task) : CreatePc → Bool
  | .closeWriteBuffer => decide (state.flushThreadPool.shutdown ≠ .closed)
  | .closeSsdCache => decide (state.threadPool.pool.shutdown ≠ .closed)
  | _ => false

/-- `flush_thread_pool` is deleted in `WriteBuffer::close` alone, and no task can be scheduled
through the pointer to a deleted pool. -/
def flushes (state : ServerPools Worker Flusher Fetcher Task) : PoolEvent Flusher Task → Bool
  | .schedule _ _ => decide (state.flushThreadPool.shutdown ≠ .closed)
  | .delete => decide (.closeWriteBuffer ∈ state.server.creators)
  | _ => true

/-- `thread_pool` is deleted in `SSDCache::close` alone, after `sync`. -/
def fetches (state : ServerPools Worker Flusher Fetcher Task) :
    Option (PoolEvent Fetcher Task) → Bool
  | none => decide (.closeSsdCache ∈ state.server.creators ∧
      state.threadPool.pool.shutdown = .outside)
  | some (.schedule _ _) => decide (state.threadPool.pool.shutdown ≠ .closed)
  | some .delete => decide (.closeSsdCache ∈ state.server.creators) && state.threadPool.poll.left
  | some _ => true

variable [Fintype Flusher] [Fintype Fetcher]

/-- `main`, before the first request. Both pools are made anew by the first `create`, and nothing is
scheduled before; until then new pools stand for them. -/
def initial : ServerPools Worker Flusher Fetcher Task where
  server := Server.initial
  flushThreadPool := .create
  threadPool := { pool := .create, poll := .first }

variable [DecidableEq Worker]

/-- `CreateMogEntry` — one statement of a thread that stands at `pc`. `create` makes both pools
anew, and the threads of the deleted ones that have not ended take no further part. -/
def creatorStep (state : ServerPools Worker Flusher Fetcher Task) (thread : Nat) (pc : CreatePc) :
    Option (ServerPools Worker Flusher Fetcher Task) :=
  if state.waits pc then none
  else (state.server.creatorStep thread pc).map fun server =>
    if pc = .create then
      { server, flushThreadPool := .create, threadPool := { pool := .create, poll := .first } }
    else { state with server }

variable [DecidableEq Flusher] [DecidableEq Fetcher]

/-- Any interleaving of the threads of the server, of the threads of both pools and of what closes
them. -/
def machine : Machine (ServerPools Worker Flusher Fetcher Task)
    (Event Worker Flusher Fetcher Task) where
  step state
    | .server (.creator thread) =>
      (state.server.creators[thread]?).bind (state.creatorStep thread)
    | .server event =>
      (Server.machine.step state.server event).map fun server => { state with server }
    | .flush event =>
      if state.flushes event then
        (ThreadPool.machine.step state.flushThreadPool event).map fun pool =>
          { state with flushThreadPool := pool }
      else none
    | .fetch event =>
      if state.fetches event then
        ((Polled.machine Polled.ssdCacheSync).step state.threadPool event).map fun threadPool =>
          { state with threadPool }
      else none

/-- No call that a reset has overtaken schedules a task on a pool that is being deleted. -/
def Calm (state : ServerPools Worker Flusher Fetcher Task) :
    Event Worker Flusher Fetcher Task → Prop
  | .flush event => state.flushThreadPool.Calm event
  | .fetch (some event) => state.threadPool.pool.Calm event
  | _ => True

/-- Whether a reset is left in peace can be checked. -/
instance decidableCalm (state : ServerPools Worker Flusher Fetcher Task) :
    ∀ event, Decidable (state.Calm event)
  | .flush event => inferInstanceAs (Decidable (state.flushThreadPool.Calm event))
  | .fetch (some event) => inferInstanceAs (Decidable (state.threadPool.pool.Calm event))
  | .fetch none | .server _ => isTrue trivial

end ServerPools

end CudaDb
