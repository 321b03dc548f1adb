import CudaDb.Model.Mog

/-!
# The workers of the server

The workers that `main` starts share one `mog`. Each of them calls `mog::read_file` for one
request after another, and the accesses of their calls interleave with each other and with the
flush and fetch tasks. The history of a run is the list of the values that `WriteBuffer::write`
accepted. `main` starts ten workers; here any type of workers may share a `mog`.
-/

namespace CudaDb

/-- A `mog` with the workers on it. -/
structure Fleet (Worker : Type*) (Db : Type*) where
  /-- The store. -/
  mog : Mog Db
  /-- The workers, with the value buffer of each. -/
  workers : Worker → Caller

namespace Fleet

variable {Worker : Type*} {Db : Type*}

/-- What can happen next. -/
inductive Event (Worker : Type*)
  /-- A worker that has answered its last request receives one and calls `mog::read_file`. -/
  | readFile (worker : Worker) (path : String)
  /-- The call of a worker goes on to its next access. -/
  | step (worker : Worker)
  /-- A flush thread flushes a scheduled block. -/
  | flush (blockId : Nat)
  /-- A thread of the SSD cache fetches a scheduled block. -/
  | fetch (blockId : Nat)

variable [DecidableEq Worker]

/-- The calls of the workers with the tasks in between. What a call does under a lock is one step,
and so is a whole flush and a whole fetch, of which the source locks only a part. -/
def machine (hash : String → UInt64) (leveldb : LevelDb Db) (config : MogConfig)
    (files : String → Option (List UInt8)) : Machine (Fleet Worker Db) (Event Worker) where
  step fleet
    | .readFile worker path =>
      if (fleet.workers worker).pc.atRest then
        let called := { fleet.workers worker with pc := Mog.begin (.readFile path) }
        some { fleet with workers := Function.update fleet.workers worker called }
      else none
    | .step worker =>
      (fleet.mog.step hash leveldb config files (fleet.workers worker)).map fun (mog, caller) =>
        { mog, workers := Function.update fleet.workers worker caller }
    | .flush blockId =>
      (fleet.mog.storage.runFlush hash leveldb blockId).map fun storage =>
        { fleet with mog := { fleet.mog with storage } }
    | .fetch blockId =>
      if .fetchTest blockId ∈ fleet.mog.tier.cache.threadPool then
        let fetched := Mog.fetch blockId fleet.mog.tier fleet.mog.storage.hdd
        some { fleet with mog := { fleet.mog with
          tier := { fetched with cache := { fetched.cache with
            threadPool := fetched.cache.threadPool.erase (.fetchTest blockId) } } } }
      else none

omit [DecidableEq Worker] in
/-- The value that a step has `WriteBuffer::write` accept. -/
def accepted (hash : String → UInt64) (fleet : Fleet Worker Db) : Event Worker →
    Option (List UInt8)
  | .step worker =>
    match (fleet.workers worker).pc with
    | .buffer _ (.locked key value) =>
      if (fleet.mog.storage.buffer.writeLocked hash key value).map Prod.fst = some 0 then some value
      else none
    | _ => none
  | _ => none

omit [DecidableEq Worker] in
/-- The history of the values that `WriteBuffer::write` accepted. -/
def noteAccepted (hash : String → UInt64) (values : List (List UInt8)) (fleet : Fleet Worker Db)
    (event : Event Worker) : List (List UInt8) :=
  (accepted hash fleet event).toList ++ values

omit [DecidableEq Worker] in
/-- A `mog` that has been opened, with workers that have made no call. -/
def start (leveldb : LevelDb Db) (config : MogConfig) (value : Worker → ByteMemory) :
    Fleet Worker Db where
  mog := (Mog.new leveldb).openDb leveldb config
  workers worker := { pc := .idle, value := value worker }

end Fleet

end CudaDb
