import CudaDb.Lib.Machine

/-!
# The server's threads

The workers of `worker_routine` and the threads of `CreateMogEntry` share the pointer `DB`, the
flags `DB->ready` and `reset_flag`, and the mutex `mtx`. Each thread has a program counter that
names the statement it executes next, and one step executes one such statement. The stores
behind `DB` appear only through the steps that use them. The definitions follow `main.cpp`,
`mog::open`, `mog::close` and `mog::read_file`.
-/

namespace CudaDb

/-- What a client may send. -/
inductive Request
  /-- A message that starts with '!'. -/
  | clean
  /-- A path to read. -/
  | path
  deriving DecidableEq

/-- The statement of `worker_routine` that a worker executes next. -/
inductive WorkerPc
  /-- `socket.recv(&request)`. -/
  | recv
  /-- `DB->ready=false`, for a '!' request. -/
  | clearReady
  /-- `if(mtx.try_lock())`. -/
  | tryLock
  /-- `std::thread create_mog(CreateMogEntry)`, with the mutex held for the new thread. -/
  | createMog
  /-- `sleep(1)`, the mutex being taken. -/
  | sleep
  /-- `socket.send(tmp_reply)`. -/
  | sendOk
  /-- `if (reset_flag)`, for a path. -/
  | testResetFlag
  /-- `DB->read_file(...)` up to its test of `this->ready`. -/
  | testReady
  /-- The file is read directly. -/
  | readDirect
  /-- `this->read(...)`, the lookup in the stores. -/
  | lookup
  /-- `this->insert_file_with_copy(...)`. -/
  | insert
  /-- `socket.send(reply)`. -/
  | send
  deriving DecidableEq

/-- The statement of `CreateMogEntry` that its thread executes next. -/
inductive CreatePc
  /-- `reset_flag = true`. -/
  | setResetFlag
  /-- `if (DB != NULL)`. -/
  | testDb
  /-- `this->ready = false`, the start of `DB->close()`. -/
  | closeReady
  /-- `WriteBuffer::singleton().close()`. -/
  | closeWriteBuffer
  /-- `CpuCache::singleton().close()`. -/
  | closeCpuCache
  /-- `CentraIndex::singleton().close()`. -/
  | closeCentraIndex
  /-- `SSDCache::singleton().close()`. -/
  | closeSsdCache
  /-- `boost::filesystem::remove_all(ssd_cache_path)`, the end of `DB->close()`. -/
  | removeSsd
  /-- `if (first)`, with the creation of the entry. -/
  | testFirst
  /-- `DB->ready = false`. -/
  | clearReady
  /-- `DB->open(...)` up to the end of `create()`. -/
  | create
  /-- `this->ready = true`, the end of `DB->open(...)`. -/
  | openReady
  /-- `reset_flag = false`. -/
  | clearResetFlag
  /-- `DB->ready = true`. -/
  | setReady
  /-- `mtx.unlock()`. -/
  | unlock
  deriving DecidableEq

/-- The shared variables and the program counters. -/
structure Server (Worker : Type*) where
  /-- `DB`: null, or the flag `ready` of the entry that it points to. -/
  db : Option Bool
  /-- `reset_flag`. -/
  resetFlag : Bool
  /-- `first`. -/
  first : Bool
  /-- `mtx` is locked. -/
  locked : Bool
  /-- `DB->close()` has started and the `DB->open()` after it has not completed. -/
  closed : Bool
  /-- The threads that run `CreateMogEntry`. -/
  creators : List CreatePc
  /-- The workers. -/
  workers : Worker → WorkerPc

namespace Server

variable {Worker : Type*}

/-- `main` — the mutex is locked for the first thread, and no request has been received. -/
def initial : Server Worker where
  db := none
  resetFlag := false
  first := true
  locked := true
  closed := false
  creators := [.setResetFlag]
  workers := fun _ => .recv

variable [DecidableEq Worker]

/-- The worker goes on to another statement. -/
def workerAt (server : Server Worker) (worker : Worker) (pc : WorkerPc) : Server Worker :=
  { server with workers := Function.update server.workers worker pc }

/-- The thread goes on to another statement. -/
def creatorAt (server : Server Worker) (thread : Nat) (pc : CreatePc) : Server Worker :=
  { server with creators := server.creators.set thread pc }

/-- `DB->ready = value`, refused through a null pointer. -/
def assignReady (server : Server Worker) (value : Bool) : Option (Server Worker) :=
  server.db.map fun _ => { server with db := some value }

/-- The worker receives a request. -/
def receive (server : Server Worker) (worker : Worker) (request : Request) :
    Option (Server Worker) :=
  if server.workers worker = .recv then
    some (server.workerAt worker (if request = .clean then .clearReady else .testResetFlag))
  else none

/-- `worker_routine` — one statement of a worker that has received a request. Whether the lookup
finds nothing, so that the insert follows it, is up to the stores. -/
def workerStep (server : Server Worker) (worker : Worker) (missed : Bool) :
    Option (Server Worker) :=
  match server.workers worker with
  | .recv => none
  | .clearReady => (server.workerAt worker .tryLock).assignReady false
  | .tryLock =>
    if server.locked then some (server.workerAt worker .sleep)
    else some { server.workerAt worker .createMog with locked := true }
  | .createMog => some { server.workerAt worker .sendOk with
      creators := server.creators ++ [.setResetFlag] }
  | .sleep => some (server.workerAt worker .sendOk)
  | .sendOk => some (server.workerAt worker .recv)
  | .testResetFlag =>
    some (server.workerAt worker (if server.resetFlag then .readDirect else .testReady))
  | .testReady => server.db.map fun ready =>
      server.workerAt worker (if ready then .lookup else .readDirect)
  | .readDirect => some (server.workerAt worker .send)
  | .lookup => some (server.workerAt worker (if missed then .insert else .send))
  | .insert => some (server.workerAt worker .send)
  | .send => some (server.workerAt worker .recv)

/-- `CreateMogEntry` — one statement of a thread that stands at `pc`. In `WriteBuffer::close` and
`SSDCache::close` it waits for the tasks of their thread pools, which are not part of this state, so
how long it stands there is left open. -/
def creatorStep (server : Server Worker) (thread : Nat) : CreatePc → Option (Server Worker)
  | .setResetFlag => some { server.creatorAt thread .testDb with resetFlag := true }
  | .testDb =>
    some (server.creatorAt thread (if server.db = none then .testFirst else .closeReady))
  | .closeReady =>
    ({ server.creatorAt thread .closeWriteBuffer with closed := true }).assignReady false
  | .closeWriteBuffer => some (server.creatorAt thread .closeCpuCache)
  | .closeCpuCache => some (server.creatorAt thread .closeCentraIndex)
  | .closeCentraIndex => some (server.creatorAt thread .closeSsdCache)
  | .closeSsdCache => some (server.creatorAt thread .removeSsd)
  | .removeSsd => some (server.creatorAt thread .testFirst)
  | .testFirst =>
    -- The constructor of `mog` sets `ready` to false.
    if server.first then
      some { server.creatorAt thread .clearReady with first := false, db := some false }
    else some (server.creatorAt thread .clearReady)
  | .clearReady => (server.creatorAt thread .create).assignReady false
  | .create => server.db.map fun _ => server.creatorAt thread .openReady
  | .openReady =>
    ({ server.creatorAt thread .clearResetFlag with closed := false }).assignReady true
  | .clearResetFlag => some { server.creatorAt thread .setReady with resetFlag := false }
  | .setReady => (server.creatorAt thread .unlock).assignReady true
  | .unlock => some { server with locked := false, creators := server.creators.eraseIdx thread }

/-- One step of one thread. -/
inductive Event (Worker : Type*)
  /-- The worker receives the request. -/
  | receive (worker : Worker) (request : Request)
  /-- The worker executes its next statement. -/
  | worker (worker : Worker) (missed : Bool)
  /-- The thread of `CreateMogEntry` executes its next statement. -/
  | creator (thread : Nat)

/-- Any interleaving of the steps of all threads. -/
def machine : Machine (Server Worker) (Event Worker) where
  step server
    | .receive worker request => server.receive worker request
    | .worker worker missed => server.workerStep worker missed
    | .creator thread => (server.creators[thread]?).bind (server.creatorStep thread)

end Server

end CudaDb
