import CudaDb.Lib.Reachability
import CudaDb.Model.ServerPools
import CudaDb.Verif.PoolPolls
import CudaDb.Verif.ServerCycle

/-!
# Resets and the pools of the stores

A reset holds the mutex of the server while `mog::close` waits for two thread pools. Both waits end
by the steps of the pools' own threads, so whatever the workers do, the mutex can be given back, and
no more than a bounded number of steps lies in between. And when `mog::close` goes on from a pool,
every task that was scheduled on it has been executed, so no flush and no fetch runs while
`mog::open` removes the directories.
-/

namespace CudaDb

/-- The statements after `WriteBuffer::close`, up to `create`. -/
@[simp] def CreatePc.flushed : CreatePc → Bool
  | .closeCpuCache | .closeCentraIndex | .closeSsdCache | .removeSsd | .testFirst | .clearReady
  | .create => true
  | _ => false

/-- The statements after `SSDCache::close`, up to `create`. -/
@[simp] def CreatePc.fetched : CreatePc → Bool
  | .removeSsd | .testFirst | .clearReady | .create => true
  | _ => false

namespace Server

variable {Worker : Type*} [DecidableEq Worker] {server next : Server Worker}

omit [DecidableEq Worker] in
/-- While the stores are closed, a statement after the close of a store follows one after it, or the
close itself. -/
theorem creatorStep_enters {pc : CreatePc} (protocol : server.Protocol)
    (alone : server.creators = [pc]) (stepped : server.creatorStep 0 pc = some next)
    (shut : next.closed = true) :
    ∀ after ∈ next.creators,
      (after.flushed = true → pc = .closeWriteBuffer ∨ pc.flushed = true ∧ server.closed = true) ∧
      (after.fetched = true → pc = .closeSsdCache ∨ pc.fetched = true ∧ server.closed = true) := by
  have entered := protocol.flags.closed
  cases pc with
  | unlock =>
    simp only [creatorStep, alone, List.eraseIdx_cons_zero, Option.some.injEq] at stepped
    subst stepped
    simp
  | testDb =>
    simp only [creatorStep, creatorAt, alone, List.set_cons_zero, Option.some.injEq] at stepped
    subst stepped
    have there : server.db ≠ none := by
      rw [(entered shut).1]
      simp
    simp [there]
  | testFirst =>
    simp only [creatorStep, creatorAt, alone, List.set_cons_zero] at stepped
    by_cases first_time : server.first = true
    · rw [if_pos first_time, Option.some.injEq] at stepped
      subst stepped
      have still : server.closed = true := shut
      simp [still]
    · rw [if_neg first_time, Option.some.injEq] at stepped
      subst stepped
      have still : server.closed = true := shut
      simp [still]
  | setResetFlag | closeWriteBuffer | closeCpuCache | closeCentraIndex | closeSsdCache
  | removeSsd | clearResetFlag =>
    simp only [creatorStep, creatorAt, alone, List.set_cons_zero, Option.some.injEq] at stepped
    subst stepped
    have still : server.closed = true := shut
    simp [still]
  | setReady | closeReady | clearReady | openReady | create =>
    simp only [creatorStep, creatorAt, assignReady, alone, List.set_cons_zero,
      Option.map_eq_some_iff] at stepped
    rcases stepped with ⟨ready, entry, rfl⟩
    simp at shut ⊢
    try exact shut

/-- What a worker does leaves the stores as they are, and starts a thread at most. -/
theorem workerStep_enters {worker : Worker} {missed : Bool}
    (stepped : server.workerStep worker missed = some next) :
    next.closed = server.closed ∧
      ∀ pc ∈ next.creators, pc ∈ server.creators ∨ pc = .setResetFlag := by
  rcases workerStep_cases stepped with
    ⟨-, -, rfl⟩ | ⟨-, -, rfl⟩ | ⟨-, rfl⟩ | ⟨pc, -, rfl⟩
  · exact ⟨rfl, fun _ => Or.inl⟩
  · exact ⟨rfl, fun _ => Or.inl⟩
  · exact ⟨rfl, by simp⟩
  · exact ⟨rfl, fun _ => Or.inl⟩

end Server

namespace ServerPools

variable {Worker Flusher Fetcher Task : Type*} [Fintype Flusher] [Fintype Fetcher]
  [DecidableEq Worker] [DecidableEq Flusher] [DecidableEq Fetcher]
  {state next : ServerPools Worker Flusher Fetcher Task}
  {event : Event Worker Flusher Fetcher Task}

/-! ## The steps -/

/-- What a step can do. -/
inductive Occurs (state : ServerPools Worker Flusher Fetcher Task) :
    Event Worker Flusher Fetcher Task → ServerPools Worker Flusher Fetcher Task → Prop
  /-- A thread of the server executes a statement that leaves the pools. -/
  | server (event : Server.Event Worker) (server : Server Worker)
    (moves : Server.machine.step state.server event = some server)
    (passes : ∀ thread pc, event = .creator thread → state.server.creators[thread]? = some pc →
      state.waits pc = false ∧ pc ≠ .create) :
    Occurs state (.server event) { state with server }
  /-- `create` makes both pools anew. -/
  | creates (thread : Nat) (server : Server Worker)
    (stands : state.server.creators[thread]? = some .create)
    (moves : Server.machine.step state.server (.creator thread) = some server) :
    Occurs state (.server (.creator thread))
      { server, flushThreadPool := .create, threadPool := { pool := .create, poll := .first } }
  /-- A step of `flush_thread_pool`. -/
  | flush (event : PoolEvent Flusher Task) (pool : ThreadPool Flusher Task)
    (allowed : state.flushes event = true) (moves : state.flushThreadPool.Occurs event pool) :
    Occurs state (.flush event) { state with flushThreadPool := pool }
  /-- A step of `thread_pool`. -/
  | fetch (event : PoolEvent Fetcher Task) (pool : ThreadPool Fetcher Task)
    (allowed : state.fetches (some event) = true)
    (moves : state.threadPool.pool.Occurs event pool) :
    Occurs state (.fetch (some event))
      { state with threadPool := { state.threadPool with pool } }
  /-- A read of `SSDCache::sync`. -/
  | reads (poll : PollPc Task) (allowed : state.fetches none = true)
    (read : Polled.pollStep Polled.ssdCacheSync state.threadPool.pool state.threadPool.poll =
      some poll) :
    Occurs state (.fetch none) { state with threadPool := { state.threadPool with poll } }

/-- Every step is one of these. -/
theorem step_occurs (stepped : machine.step state event = some next) : state.Occurs event next := by
  cases event with
  | server event =>
    cases event with
    | creator thread =>
      rcases Option.bind_eq_some_iff.mp stepped with ⟨pc, found, taken⟩
      rcases Option.ite_none_left_eq_some.mp taken with ⟨passes, moved⟩
      rcases Option.map_eq_some_iff.mp moved with ⟨server, executed, rfl⟩
      have moves : Server.machine.step state.server (.creator thread) = some server :=
        Option.bind_eq_some_iff.mpr ⟨pc, found, executed⟩
      by_cases creating : pc = .create
      · subst creating
        exact .creates thread server found moves
      · rw [if_neg creating]
        apply Occurs.server (.creator thread) server moves
        rintro other there same at_there
        cases same
        obtain rfl := Option.some.inj (found.symm.trans at_there)
        exact ⟨Bool.eq_false_of_not_eq_true passes, creating⟩
    | receive worker request =>
      rcases Option.map_eq_some_iff.mp stepped with ⟨server, moves, rfl⟩
      exact .server _ server moves fun _ _ same => (by cases same)
    | worker worker missed =>
      rcases Option.map_eq_some_iff.mp stepped with ⟨server, moves, rfl⟩
      exact .server _ server moves fun _ _ same => (by cases same)
  | flush event =>
    rcases Option.ite_none_right_eq_some.mp stepped with ⟨allowed, moved⟩
    rcases Option.map_eq_some_iff.mp moved with ⟨pool, moves, rfl⟩
    exact .flush event pool allowed (ThreadPool.step_occurs moves)
  | fetch event =>
    rcases Option.ite_none_right_eq_some.mp stepped with ⟨allowed, moved⟩
    rcases Option.map_eq_some_iff.mp moved with ⟨threadPool, moves, rfl⟩
    cases event with
    | some event =>
      rcases Option.map_eq_some_iff.mp moves with ⟨pool, taken, rfl⟩
      exact .fetch event pool allowed (ThreadPool.step_occurs taken)
    | none =>
      rcases Option.map_eq_some_iff.mp moves with ⟨poll, read, rfl⟩
      exact .reads poll allowed read

/-- What holds of the server and of both pools in every interleaving. -/
structure Sound (state : ServerPools Worker Flusher Fetcher Task) : Prop where
  /-- The threads of the server follow their protocol. -/
  server : state.server.Protocol
  /-- The counts of `flush_thread_pool` are those of its workers. -/
  flushSteady : state.flushThreadPool.Steady
  /-- Who waits in its deletion has something to wait for. -/
  flushUnmissed : state.flushThreadPool.Unmissed
  /-- The counts of `thread_pool` are those of its workers. -/
  fetchSteady : state.threadPool.pool.Steady
  /-- Who waits in its deletion has something to wait for. -/
  fetchUnmissed : state.threadPool.pool.Unmissed

omit [DecidableEq Worker] [DecidableEq Flusher] [DecidableEq Fetcher] in
/-- The server starts sound. -/
theorem initial_sound : (initial : ServerPools Worker Flusher Fetcher Task).Sound where
  server := Server.initial_protocol
  flushSteady := ThreadPool.create_steady
  flushUnmissed := ThreadPool.create_unmissed
  fetchSteady := ThreadPool.create_steady
  fetchUnmissed := ThreadPool.create_unmissed

/-- Every step keeps the server sound. -/
theorem Occurs.sound (occurs : state.Occurs event next) (sound : state.Sound) : next.Sound := by
  cases occurs with
  | server event server moves =>
    exact { sound with server := Server.step_protocol sound.server moves }
  | creates thread server stands moves =>
    exact ⟨Server.step_protocol sound.server moves, ThreadPool.create_steady,
      ThreadPool.create_unmissed, ThreadPool.create_steady, ThreadPool.create_unmissed⟩
  | flush event pool allowed moves =>
    exact { sound with
      flushSteady := moves.steady sound.flushSteady
      flushUnmissed := moves.unmissed sound.flushSteady sound.flushUnmissed }
  | fetch event pool allowed moves =>
    exact { sound with
      fetchSteady := moves.steady sound.fetchSteady
      fetchUnmissed := moves.unmissed sound.fetchSteady sound.fetchUnmissed }
  | reads => exact ⟨sound.server, sound.flushSteady, sound.flushUnmissed, sound.fetchSteady,
      sound.fetchUnmissed⟩

/-- The server is sound in every run. -/
theorem run_sound {events : List (Event Worker Flusher Fetcher Task)}
    (ran : machine.run initial events = some state) : state.Sound :=
  Machine.run_invariant Sound (fun _ _ _ sound stepped => (step_occurs stepped).sound sound)
    initial_sound ran

/-! ## The mutex is given back -/

/-- A read of `SSDCache::sync`. -/
def Event.reads : Event Worker Flusher Fetcher Task → Bool
  | .fetch none => true
  | _ => false

/-- A step of the owner of the mutex, of what it closes, or of the threads of a pool. -/
def Event.owns (state : ServerPools Worker Flusher Fetcher Task) :
    Event Worker Flusher Fetcher Task → Prop
  | .server event => event.owns state.server
  | .flush event => event.deletes = true
  | .fetch (some event) => event.deletes = true
  | .fetch none => True

/-- How far the owner of the mutex is from its end, and both pools from their rest. -/
def rank (state : ServerPools Worker Flusher Fetcher Task) : Nat :=
  (6 * Fintype.card Flusher + 6 * Fintype.card Fetcher + 11) * state.server.remaining +
    state.flushThreadPool.deletionRank + state.threadPool.pool.deletionRank

omit [DecidableEq Worker] [DecidableEq Flusher] [DecidableEq Fetcher] in
/-- The rank in the lengths of the queues and the numbers of threads. -/
theorem rank_le (state : ServerPools Worker Flusher Fetcher Task)
    (few : state.server.remaining ≤ 16) :
    state.rank ≤ 106 * (Fintype.card Flusher + Fintype.card Fetcher) +
      2 * (state.flushThreadPool.scheduler.length + state.threadPool.pool.scheduler.length) +
        194 := by
  have flush := state.flushThreadPool.deletionRank_le
  have fetch := state.threadPool.pool.deletionRank_le
  have owner := Nat.mul_le_mul_left (6 * Fintype.card Flusher + 6 * Fintype.card Fetcher + 11) few
  unfold rank
  omega

omit [DecidableEq Flusher] [DecidableEq Fetcher] in
/-- A step of the owner brings it nearer to its end, whatever one of its steps weighs. -/
theorem Sound.weighed {event : Server.Event Worker} {server : Server Worker} (sound : state.Sound)
    (owns : event.owns state.server) (moves : Server.machine.step state.server event = some server)
    (weight : Nat) : weight * server.remaining + weight ≤ weight * state.server.remaining := by
  have fewer := Server.owns_remaining sound.server owns moves
  have scaled := Nat.mul_le_mul_left weight (Nat.succ_le_of_lt fewer)
  rw [Nat.mul_succ] at scaled
  exact scaled

/-- Every such step but a read lowers the rank, and a read leaves it. -/
theorem Occurs.rank_lt (occurs : state.Occurs event next) (sound : state.Sound)
    (owns : event.owns state) : next.rank + (if event.reads then 0 else 1) ≤ state.rank := by
  unfold rank
  cases occurs with
  | server event server moves =>
    have nearer := sound.weighed owns moves
      (6 * Fintype.card Flusher + 6 * Fintype.card Fetcher + 11)
    simp only [Event.reads, Bool.false_eq_true, if_false]
    omega
  | creates thread server stands moves =>
    have own : Server.Event.owns state.server (.creator thread) := trivial
    have nearer := sound.weighed own moves
      (6 * Fintype.card Flusher + 6 * Fintype.card Fetcher + 11)
    simp only [Event.reads, Bool.false_eq_true, if_false, ThreadPool.create_deletionRank]
    omega
  | flush event pool allowed moves =>
    have lower := moves.deletionRank_lt owns
    simp only [Event.reads, Bool.false_eq_true, if_false]
    omega
  | fetch event pool allowed moves =>
    have lower := moves.deletionRank_lt owns
    simp only [Event.reads, Bool.false_eq_true, if_false]
    omega
  | reads => exact le_refl _

/-- A step of a thread of `CreateMogEntry`, of what it closes, or of the threads of a pool. -/
def Event.own : Event Worker Flusher Fetcher Task → Bool
  | .server (.creator _) => true
  | .server _ => false
  | .flush event => event.deletes
  | .fetch (some event) => event.deletes
  | .fetch none => true

omit [Fintype Flusher] [Fintype Fetcher] [DecidableEq Worker] [DecidableEq Flusher]
  [DecidableEq Fetcher] in
/-- Such steps are those of the owner in every state. -/
theorem Event.owns_of_own (own : event.own = true) : event.owns state := by
  cases event with
  | server event =>
    cases event with
    | creator => exact trivial
    | receive | worker => cases own
  | flush => exact own
  | fetch event =>
    cases event with
    | none => trivial
    | some => exact own

/-- Such steps can bring the rank below a bound. -/
def Descends (bound : Nat) (state : ServerPools Worker Flusher Fetcher Task) : Prop :=
  machine.CanReach (fun event => event.own = true) (fun next => next.rank < bound) state

/-- A step that lowers the rank is enough. -/
theorem descends_of_step (sound : state.Sound) (own : event.own = true)
    (reads : event.reads = false) (stepped : machine.step state event = some next) :
    state.Descends state.rank := by
  have lower := (step_occurs stepped).rank_lt sound (Event.owns_of_own own)
  rw [reads] at lower
  exact Machine.CanReach.step own stepped (Machine.CanReach.here (Nat.lt_of_succ_le lower))

omit [Fintype Flusher] [Fintype Fetcher] [DecidableEq Worker] [DecidableEq Flusher]
  [DecidableEq Fetcher] in
/-- The only thread of `CreateMogEntry` stands where it stands. -/
theorem stands_of_alone {pc : CreatePc} (alone : state.server.creators = [pc]) :
    pc ∈ state.server.creators := by
  rw [alone]
  exact List.mem_singleton.mpr rfl

/-- The thread of `CreateMogEntry` goes on where it need not wait. -/
theorem creator_goes_on {pc : CreatePc} (sound : state.Sound)
    (alone : state.server.creators = [pc]) (free : state.waits pc = false) :
    ∃ next, machine.step state (.server (.creator 0)) = some next := by
  rcases Server.creatorStep_enabled sound.server alone with ⟨server, moved⟩
  show ∃ next, (state.server.creators[0]?).bind (state.creatorStep 0) = some next
  simp only [alone, List.getElem?_cons_zero, Option.bind_some, creatorStep, free, moved]
  exact ⟨_, rfl⟩

/-- While the thread stands in `WriteBuffer::close`, the deletion of the pool can go on. -/
theorem flush_goes_on [Nonempty Flusher] (sound : state.Sound)
    (alone : state.server.creators = [.closeWriteBuffer])
    (remains : state.flushThreadPool.shutdown ≠ .closed) :
    ∃ event next, event.own = true ∧ event.reads = false ∧
      machine.step state event = some next := by
  have allowed {event : PoolEvent Flusher Task} (deletes : event.deletes = true) :
      state.flushes event = true := by
    cases event with
    | schedule | wakes | shutdownWakes => cases deletes
    | worker | shutdown => rfl
    | delete => exact decide_eq_true (stands_of_alone alone)
  have taken {event : PoolEvent Flusher Task} {pool : ThreadPool Flusher Task}
      (deletes : event.deletes = true)
      (moves : ThreadPool.machine.step state.flushThreadPool event = some pool) :
      machine.step state (.flush event) = some { state with flushThreadPool := pool } := by
    show (if state.flushes event then _ else none) = _
    rw [if_pos (allowed deletes), moves]
    rfl
  by_cases settled : state.flushThreadPool.Settled
  · have idle := settled.idle sound.flushSteady sound.flushUnmissed remains
    exact ⟨.flush .delete, _, rfl, rfl, taken rfl (ThreadPool.step_delete idle.1)⟩
  · rcases ThreadPool.exists_own_step settled with ⟨event, pool, own, moves⟩
    have deletes := PoolEvent.deletes_of_own own
    exact ⟨.flush event, _, deletes, rfl, taken deletes moves⟩

omit [Fintype Flusher] [Fintype Fetcher] [DecidableEq Worker] [DecidableEq Flusher]
  [DecidableEq Fetcher] in
/-- While the thread stands in `SSDCache::close`, the steps of the threads of the pool can be made,
and its deletion once the loop of `sync` has been left. -/
theorem fetches_of_deletes {event : PoolEvent Fetcher Task} (deletes : event.deletes = true)
    (alone : state.server.creators = [.closeSsdCache])
    (left : event = .delete → state.threadPool.poll.left = true) :
    state.fetches (some event) = true := by
  cases event with
  | schedule | wakes | shutdownWakes => cases deletes
  | worker | shutdown => rfl
  | delete =>
    show (decide _ && state.threadPool.poll.left) = true
    rw [left rfl, decide_eq_true (stands_of_alone alone)]
    rfl

/-- While the thread stands in `SSDCache::close`, such a step lowers the rank. -/
theorem fetch_lowers {event : PoolEvent Fetcher Task} {pool : ThreadPool Fetcher Task}
    (sound : state.Sound) (deletes : event.deletes = true)
    (alone : state.server.creators = [.closeSsdCache])
    (left : event = .delete → state.threadPool.poll.left = true)
    (moves : ThreadPool.machine.step state.threadPool.pool event = some pool) :
    state.Descends state.rank := by
  have stepped : machine.step state (.fetch (some event)) =
      some { state with threadPool := { state.threadPool with pool } } := by
    show (if state.fetches (some event) then _ else none) = _
    rw [if_pos (fetches_of_deletes deletes alone left)]
    show Option.map _ (Option.map _ (ThreadPool.machine.step state.threadPool.pool event)) = _
    rw [moves]
    rfl
  have own : Event.own (.fetch (some event) : Event Worker Flusher Fetcher Task) = true := deletes
  exact descends_of_step sound own rfl stepped

/-- The state with the loop of `SSDCache::sync` at another place. -/
def pollAt (state : ServerPools Worker Flusher Fetcher Task) (poll : PollPc Task) :
    ServerPools Worker Flusher Fetcher Task :=
  { state with threadPool := { state.threadPool with poll } }

/-- While the thread stands in `SSDCache::close`, it can read a count of the pool. -/
theorem step_read {poll after : PollPc Task} (alone : state.server.creators = [.closeSsdCache])
    (used : state.threadPool.pool.shutdown = .outside)
    (read : Polled.pollStep Polled.ssdCacheSync state.threadPool.pool poll = some after) :
    machine.step (state.pollAt poll) (.fetch none) = some (state.pollAt after) := by
  have allowed : (state.pollAt poll).fetches none = true :=
    decide_eq_true ⟨stands_of_alone alone, used⟩
  show (if (state.pollAt poll).fetches none then _ else none) = _
  rw [if_pos allowed]
  show Option.map _ (Option.map _ (Polled.pollStep _ state.threadPool.pool poll)) = _
  rw [read]
  rfl

/-- The loop of `SSDCache::sync` over an idle pool is left, and the deletion of the pool begins. -/
theorem sync_ends (sound : state.Sound) (alone : state.server.creators = [.closeSsdCache])
    (used : state.threadPool.pool.shutdown = .outside)
    (empty : state.threadPool.pool.scheduler = [])
    (inactive : state.threadPool.pool.activeWorkerCount = 0) (poll : PollPc Task) :
    (state.pollAt poll).Descends state.rank := by
  have own : Event.own (.fetch none : Event Worker Flusher Fetcher Task) = true := rfl
  have passed (scheduled started later : List Task) :
      (state.pollAt (.passed scheduled started later)).Descends state.rank := by
    have still : (state.pollAt (.passed scheduled started later)).Sound := ⟨sound.server,
      sound.flushSteady, sound.flushUnmissed, sound.fetchSteady, sound.fetchUnmissed⟩
    exact fetch_lowers still rfl alone (fun _ => rfl) (ThreadPool.step_delete used)
  have second (scheduled started : List Task) :
      (state.pollAt (.second scheduled started)).Descends state.rank := by
    have read : Polled.pollStep Polled.ssdCacheSync state.threadPool.pool
        (.second scheduled started) =
          some (.passed scheduled started state.threadPool.pool.started) := by
      apply if_neg
      show ¬ 0 < state.threadPool.pool.activeWorkerCount
      omega
    exact Machine.CanReach.step own (step_read alone used read) (passed _ _ _)
  cases poll with
  | passed => exact passed _ _ _
  | second => exact second _ _
  | first =>
    have read : Polled.pollStep Polled.ssdCacheSync state.threadPool.pool .first =
        some (.second (state.threadPool.pool.started ++ state.threadPool.pool.scheduler)
          state.threadPool.pool.started) := by
      apply if_neg
      show ¬ 0 < (state.threadPool.pool.scheduler.length : Int)
      simp [empty]
    exact Machine.CanReach.step own (step_read alone used read) (second _ _)

/-- While the thread stands in `SSDCache::close`, its loop can be left and the deletion of the pool
can go on. -/
theorem fetch_goes_on [Nonempty Fetcher] (sound : state.Sound)
    (alone : state.server.creators = [.closeSsdCache])
    (remains : state.threadPool.pool.shutdown ≠ .closed) :
    state.Descends state.rank := by
  by_cases settled : state.threadPool.pool.Settled
  · have idle := settled.idle sound.fetchSteady sound.fetchUnmissed remains
    exact sync_ends sound alone idle.1 idle.2.1 idle.2.2 state.threadPool.poll
  · rcases ThreadPool.exists_own_step settled with ⟨event, pool, own, moves⟩
    apply fetch_lowers sound (PoolEvent.deletes_of_own own) alone _ moves
    intro deletes
    rw [deletes] at own
    cases own

/-- While a thread of `CreateMogEntry` runs, a few steps of it, of what it closes and of the pools
lower the rank. -/
theorem goes_on [Nonempty Flusher] [Nonempty Fetcher] {pc : CreatePc} (sound : state.Sound)
    (alone : state.server.creators = [pc]) :
    state.Descends state.rank := by
  by_cases waiting : state.waits pc = true
  · cases pc with
    | closeWriteBuffer =>
      rcases flush_goes_on sound alone (of_decide_eq_true waiting) with
        ⟨event, next, own, reads, stepped⟩
      exact descends_of_step sound own reads stepped
    | closeSsdCache => exact fetch_goes_on sound alone (of_decide_eq_true waiting)
    | _ => cases waiting
  · rcases creator_goes_on sound alone (Bool.eq_false_of_not_eq_true waiting) with ⟨next, stepped⟩
    exact descends_of_step sound rfl rfl stepped

/-- The server while a thread of `CreateMogEntry` runs to its end and the workers stand still. -/
structure Resetting (workers : Worker → WorkerPc)
    (state : ServerPools Worker Flusher Fetcher Task) : Prop where
  /-- The server is sound. -/
  sound : state.Sound
  /-- The workers stand where they stood. -/
  still : state.server.workers = workers
  /-- `ready` is set at the end. -/
  ready : state.server.creators = [.unlock] ∨ state.server.creators = [] →
    state.server.db = some true

omit [DecidableEq Flusher] [DecidableEq Fetcher] in
/-- A statement of the thread keeps this. -/
theorem Resetting.creator {workers : Worker → WorkerPc} {thread : Nat} {server : Server Worker}
    (resetting : Resetting workers state)
    (moves : Server.machine.step state.server (.creator thread) = some server) :
    server.workers = workers ∧
      (server.creators = [.unlock] ∨ server.creators = [] → server.db = some true) := by
  rcases Option.bind_eq_some_iff.mp moves with ⟨pc, found, moved⟩
  have only := resetting.sound.server.only_thread found
  rw [only.1] at moved
  have alone := only.2.2.1
  by_cases ends : pc = .unlock
  · subst ends
    simp only [Server.creatorStep, Option.some.injEq] at moved
    subst moved
    exact ⟨resetting.still, fun _ => resetting.ready (Or.inl alone)⟩
  · have forward := Server.creatorStep_forward alone moved ends
    rcases forward with ⟨same, after, there, -, at_end⟩
    refine ⟨same.trans resetting.still, fun last => ?_⟩
    rw [there] at last
    rcases last with unlocks | gone
    · exact at_end (List.singleton_inj.mp unlocks)
    · cases gone

/-- Every step of the thread, of what it closes and of the pools keeps this. -/
theorem Resetting.step {workers : Worker → WorkerPc} (resetting : Resetting workers state)
    (own : event.own = true) (stepped : machine.step state event = some next) :
    Resetting workers next := by
  have occurs := step_occurs stepped
  have sound := occurs.sound resetting.sound
  cases occurs with
  | server event server moves =>
    cases event with
    | creator thread =>
      have kept := resetting.creator moves
      exact ⟨sound, kept.1, kept.2⟩
    | receive | worker => cases own
  | creates thread server stands moves =>
    have kept := resetting.creator moves
    exact ⟨sound, kept.1, kept.2⟩
  | flush | fetch | reads => exact ⟨sound, resetting.still, resetting.ready⟩

/-- A thread of `CreateMogEntry` can run to its end. -/
theorem thread_ends [Nonempty Flusher] [Nonempty Fetcher] {workers : Worker → WorkerPc}
    (resetting : Resetting workers state)
    (none_starting : ∀ worker, workers worker ≠ .createMog) :
    machine.CanReach (fun event => event.own = true)
      (fun final => Resetting workers final ∧ final.server.locked = false) state := by
  apply Machine.CanReach.of_rank (Resetting workers) rank _ resetting
  intro before here taken
  have reach : before.Descends before.rank := by
    cases here.sound.server.owner with
    | free unlocked => exact absurd unlocked taken
    | starting worker _ _ at_start =>
      rw [here.still] at at_start
      exact absurd at_start (none_starting worker)
    | running pc _ alone => exact goes_on here.sound alone
  exact reach.keeps (Resetting workers) (fun _ _ _ keeps own stepped => keeps.step own stepped) here

/-- The end of a reset by the steps of the thread, of what it closes and of the pools. -/
theorem released [Nonempty Flusher] [Nonempty Fetcher] {workers : Worker → WorkerPc}
    (resetting : Resetting workers state)
    (none_starting : ∀ worker, workers worker ≠ .createMog) :
    ∃ more final, machine.Along (fun state event => event.owns state) state more ∧
      machine.run state more = some final ∧
      final.server.locked = false ∧ final.server.resetFlag = false ∧
      final.server.closed = false ∧ final.server.db = some true ∧
      final.server.workers = workers := by
  rcases thread_ends resetting none_starting with ⟨more, final, own, later, ended, free⟩
  have settled := ended.sound.server.settled free
  have gone : final.server.creators = [] := by
    cases ended.sound.server.owner with
    | free _ none_running => exact none_running
    | starting _ locked | running _ locked => simp [locked] at free
  have owned : machine.Along (fun _ event => Event.own event = true) state more :=
    Machine.along_of_mem own state
  exact ⟨more, final, Machine.along_mono owned fun _ _ own => Event.owns_of_own own, later, free,
    settled.1, settled.2, ended.ready (Or.inr gone), ended.still⟩

/-- The second reset up to `WriteBuffer::close`, with a task in each pool. -/
def intoSecondReset : List (Event Unit Unit Unit Nat) :=
  [List.replicate 9 (.server (.creator 0)),
    [.flush (.schedule 7 none), .fetch (some (.schedule 8 none)), .server (.receive () .clean)],
    List.replicate 3 (.server (.worker () false)), List.replicate 3 (.server (.creator 0))].flatten

section Tasks

variable [DecidableEq Task]

/-- What holds of both pools while nobody schedules a task on a pool that is being deleted. -/
structure Quiet (state : ServerPools Worker Flusher Fetcher Task) : Prop where
  /-- The server is sound. -/
  sound : state.Sound
  /-- `flush_thread_pool` is deleted after its tasks. -/
  flushClosing : state.flushThreadPool.Closing
  /-- Every fetched flush is being executed or has been. -/
  flushAccounted : state.flushThreadPool.Accounted
  /-- `thread_pool` is deleted after its tasks. -/
  fetchClosing : state.threadPool.pool.Closing
  /-- Every fetched fetch is being executed or has been. -/
  fetchAccounted : state.threadPool.pool.Accounted
  /-- After `WriteBuffer::close` its pool has been deleted. -/
  flushed : state.server.closed = true → ∀ pc ∈ state.server.creators, pc.flushed = true →
    state.flushThreadPool.shutdown = .closed
  /-- After `SSDCache::close` its pool has been deleted. -/
  fetched : state.server.closed = true → ∀ pc ∈ state.server.creators, pc.fetched = true →
    state.threadPool.pool.shutdown = .closed

omit [DecidableEq Worker] [DecidableEq Flusher] [DecidableEq Fetcher] in
/-- The server starts quiet. -/
theorem initial_quiet : (initial : ServerPools Worker Flusher Fetcher Task).Quiet where
  sound := initial_sound
  flushClosing := ThreadPool.create_closing
  flushAccounted := ThreadPool.create_accounted
  fetchClosing := ThreadPool.create_closing
  fetchAccounted := ThreadPool.create_accounted
  flushed := fun shut => (by cases shut)
  fetched := fun shut => (by cases shut)

omit [DecidableEq Flusher] [DecidableEq Fetcher] in
/-- A statement of the server keeps the pools deleted that a reset has closed. -/
theorem Quiet.server {event : Server.Event Worker} {server : Server Worker} (quiet : state.Quiet)
    (moves : Server.machine.step state.server event = some server)
    (passes : ∀ thread pc, event = .creator thread → state.server.creators[thread]? = some pc →
      state.waits pc = false) (shut : server.closed = true) :
    (∀ pc ∈ server.creators, pc.flushed = true → state.flushThreadPool.shutdown = .closed) ∧
      ∀ pc ∈ server.creators, pc.fetched = true → state.threadPool.pool.shutdown = .closed := by
  cases event with
  | creator thread =>
    rcases Option.bind_eq_some_iff.mp moves with ⟨pc, found, moved⟩
    have only := quiet.sound.server.only_thread found
    have passed := passes thread pc rfl found
    rw [only.1] at moved
    have enters := Server.creatorStep_enters quiet.sound.server only.2.2.1 moved shut
    have inside := stands_of_alone only.2.2.1
    constructor
    · intro after there flushed
      rcases (enters after there).1 flushed with rfl | ⟨before, closed⟩
      · simpa [waits] using passed
      · exact quiet.flushed closed pc inside before
    · intro after there fetched
      rcases (enters after there).2 fetched with rfl | ⟨before, closed⟩
      · simpa [waits] using passed
      · exact quiet.fetched closed pc inside before
  | receive worker request =>
    rcases Server.receive_cases moves with ⟨-, rfl⟩
    exact ⟨quiet.flushed shut, quiet.fetched shut⟩
  | worker worker missed =>
    have enters := Server.workerStep_enters moves
    rw [enters.1] at shut
    constructor
    · intro pc there flushed
      rcases enters.2 pc there with before | rfl
      · exact quiet.flushed shut pc before flushed
      · cases flushed
    · intro pc there fetched
      rcases enters.2 pc there with before | rfl
      · exact quiet.fetched shut pc before fetched
      · cases fetched

/-- Every step keeps both pools quiet, if it schedules no task on a pool that is being deleted. -/
theorem Occurs.quiet (occurs : state.Occurs event next) (quiet : state.Quiet)
    (calm : state.Calm event) : next.Quiet := by
  have sound := occurs.sound quiet.sound
  cases occurs with
  | server event server moves passes =>
    have kept := quiet.server moves fun thread pc same found => (passes thread pc same found).1
    exact { quiet with
      sound
      flushed := fun shut => (kept shut).1
      fetched := fun shut => (kept shut).2 }
  | creates thread server stands moves =>
    have only := quiet.sound.server.only_thread stands
    have opening : server.creators = [.openReady] := by
      rcases Option.bind_eq_some_iff.mp moves with ⟨pc, found, moved⟩
      obtain rfl := Option.some.inj (stands.symm.trans found)
      simp only [Server.creatorStep, Server.creatorAt, only.1, only.2.2.1, List.set_cons_zero,
        Option.map_eq_some_iff] at moved
      rcases moved with ⟨ready, -, rfl⟩
      rfl
    exact {
      sound
      flushClosing := ThreadPool.create_closing
      flushAccounted := ThreadPool.create_accounted
      fetchClosing := ThreadPool.create_closing
      fetchAccounted := ThreadPool.create_accounted
      flushed := by simp [opening]
      fetched := by simp [opening] }
  | flush event pool allowed moves =>
    exact { quiet with
      sound
      flushClosing := moves.closing quiet.sound.flushSteady quiet.flushClosing calm
      flushAccounted := moves.accounted quiet.flushAccounted
      flushed := fun shut pc there after => moves.closed (quiet.flushed shut pc there after) }
  | fetch event pool allowed moves =>
    exact { quiet with
      sound
      fetchClosing := moves.closing quiet.sound.fetchSteady quiet.fetchClosing calm
      fetchAccounted := moves.accounted quiet.fetchAccounted
      fetched := fun shut pc there after => moves.closed (quiet.fetched shut pc there after) }
  | reads =>
    exact ⟨sound, quiet.flushClosing, quiet.flushAccounted, quiet.fetchClosing,
      quiet.fetchAccounted, quiet.flushed, quiet.fetched⟩

/-- In every run in which no call that a reset has overtaken schedules a task on a pool that is
being deleted: once a reset has left `WriteBuffer::close`, and until it has made the pools anew,
every flush that was scheduled has been executed once, and once it has left `SSDCache::close`, so
has every fetch. So no task runs while `mog::close` and `mog::open` remove the directories. -/
theorem tasks_done {events : List (Event Worker Flusher Fetcher Task)}
    (calm : machine.Along Calm initial events)
    (ran : machine.run initial events = some state) (shut : state.server.closed = true) :
    (∀ pc ∈ state.server.creators, pc.flushed = true → state.flushThreadPool.Done) ∧
      ∀ pc ∈ state.server.creators, pc.fetched = true → state.threadPool.pool.Done := by
  have quiet : state.Quiet := by
    apply Machine.run_invariant_along Quiet _ initial_quiet calm ran
    exact fun _ _ _ holds still stepped => (step_occurs stepped).quiet holds still
  constructor
  · intro pc there after
    exact quiet.flushClosing.done quiet.flushAccounted (quiet.flushed shut pc there after)
  · intro pc there after
    exact quiet.fetchClosing.done quiet.fetchAccounted (quiet.fetched shut pc there after)

/-- Both closes after that, by way of both tasks, and the start of `mog::open`. -/
def throughBothCloses : List (Event Unit Unit Unit Nat) :=
  [[.flush .delete, .flush .shutdown], List.replicate 3 (.flush (.worker ())),
    List.replicate 2 (.flush .shutdown), List.replicate 3 (.server (.creator 0)),
    List.replicate 3 (.fetch (some (.worker ()))),
    [.fetch none, .fetch none, .fetch (some .delete)],
    List.replicate 2 (.fetch (some .shutdown)), List.replicate 4 (.server (.creator 0))].flatten

/-- When `create` is next, the flush and the fetch have been executed. -/
theorem tasks_done_throughBothCloses : ∃ state : ServerPools Unit Unit Unit Nat,
    machine.run initial (intoSecondReset ++ throughBothCloses) = some state ∧
      state.server.creators = [.create] ∧ state.flushThreadPool.started = [7] ∧
      state.threadPool.pool.started = [8] ∧ state.flushThreadPool.Done ∧
      state.threadPool.pool.Done := by
  have executed : (machine.run initial (intoSecondReset ++ throughBothCloses)).map
      (fun state => (state.server.creators, state.flushThreadPool.started,
        state.threadPool.pool.started, state.server.closed)) =
      some ([.create], [7], [8], true) := by decide +kernel
  rcases Option.map_eq_some_iff.mp executed with ⟨state, ran, same⟩
  simp only [Prod.mk.injEq] at same
  rcases same with ⟨alone, flush, fetch, shut⟩
  have calm : machine.Along Calm initial (intoSecondReset ++ throughBothCloses) := by
    decide +kernel
  have inside := stands_of_alone alone
  have done := tasks_done calm ran shut
  exact ⟨state, ran, alone, flush, fetch, done.1 .create inside rfl, done.2 .create inside rfl⟩

end Tasks

/-- A call that a reset has overtaken schedules a flush while its pool is being deleted, after the
test for tasks that are left; both closes come to their end, and a worker fetches the task. -/
def lateFlush : List (Event Unit Unit Unit Nat) :=
  [List.replicate 9 (.server (.creator 0)),
    [.flush (.worker ()), .fetch (some (.worker ())), .server (.receive () .clean)],
    List.replicate 3 (.server (.worker () false)), List.replicate 3 (.server (.creator 0)),
    [.flush .delete, .flush .shutdown, .flush (.schedule 7 (some ())), .flush .shutdown],
    List.replicate 3 (.server (.creator 0)), [.fetch none, .fetch none, .fetch (some .delete)],
    List.replicate 2 (.fetch (some .shutdown)), List.replicate 4 (.server (.creator 0)),
    [.flush (.worker ())]].flatten

/-- Otherwise a flush that has not been executed can have been fetched when `create` is next, which
removes the directories. -/
theorem not_tasks_done_of_lateFlush : ∃ state : ServerPools Unit Unit Unit Nat,
    machine.run initial lateFlush = some state ∧ state.server.creators = [.create] ∧
      state.flushThreadPool.started = [7] ∧ state.flushThreadPool.finished = [] := by
  have executed : (machine.run initial lateFlush).map (fun state => (state.server.creators,
      state.flushThreadPool.started, state.flushThreadPool.finished)) =
      some ([.create], [7], []) := by decide +kernel
  rcases Option.map_eq_some_iff.mp executed with ⟨state, ran, same⟩
  simp only [Prod.mk.injEq] at same
  exact ⟨state, ran, same⟩

end ServerPools

end CudaDb
