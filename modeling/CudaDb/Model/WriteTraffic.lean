import CudaDb.Model.Mog

/-!
# Writes and the tasks that make room for them

`WriteBuffer::write` waits until the buffer is below its limit and the SSD cache below its number
of blocks. Only background tasks lower what it waits for: a flush lowers `total_size`, and the
eviction in `SSDCache::fetch` lowers `block_num`. Here any number of threads call `write`, flushes
run as one step, and calls of `SSDCache::read` schedule fetches, which run step by step.
-/

namespace CudaDb

/-- The write buffer and the SSD cache with the threads that write. -/
structure WriteTraffic (Thread : Type*) (Db : Type*) where
  /-- The write buffer, the index and the files on the HDD. -/
  storage : Storage Db
  /-- The SSD cache and its files. -/
  tier : SsdTier
  /-- Where the call of `write` of each thread stands. -/
  writers : Thread → WriteBuffer.Pc

namespace WriteTraffic

variable {Thread : Type*} {Db : Type*}

/-- What can happen next. -/
inductive Event (Thread : Type*)
  /-- A thread whose last call has returned calls `WriteBuffer::write`. -/
  | write (thread : Thread) (key : String) (value : List UInt8)
  /-- The call of a thread goes one step on. -/
  | step (thread : Thread)
  /-- A flush thread flushes a scheduled block. -/
  | flush (blockId : Nat)
  /-- `SSDCache::read` is called. -/
  | read (info : IndexInfo)
  /-- A task of the SSD cache goes one step on. -/
  | task (task : SsdTask)

/-- Writes, reads and tasks in any order. -/
def machine [DecidableEq Thread] (hash : String → UInt64) (leveldb : LevelDb Db) :
    Machine (WriteTraffic Thread Db) (Event Thread) where
  step traffic
    | .write thread key value =>
      match traffic.writers thread with
      | .returned _ =>
        some { traffic with
          writers := Function.update traffic.writers thread (WriteBuffer.write key value) }
      | _ => none
    | .step thread =>
      (traffic.storage.buffer.step hash
          (traffic.tier.cache.blockNum ≥ traffic.tier.cache.maxBlockNum)
          (traffic.writers thread)).map fun (pc, buffer) =>
        { traffic with
          storage := { traffic.storage with buffer }
          writers := Function.update traffic.writers thread pc }
    | .flush blockId =>
      (traffic.storage.runFlush hash leveldb blockId).map fun storage => { traffic with storage }
    | .read info =>
      (traffic.tier.read info traffic.storage.hdd fun _ => 0).map fun (tier, _) =>
        { traffic with tier }
    | .task task =>
      if task ∈ traffic.tier.cache.threadPool then
        let (next, tier, hdd) := traffic.tier.runTask traffic.storage.hdd task
        some { traffic with
          tier := { tier with cache := { tier.cache with
            threadPool := tier.cache.threadPool.erase task ++ next.toList } }
          storage := { traffic.storage with hdd } }
      else none

/-- The stores of a `mog` that has been opened, and threads that have not written. -/
def start (leveldb : LevelDb Db) (config : MogConfig) : WriteTraffic Thread Db where
  storage := ((Mog.new leveldb).openDb leveldb config).storage
  tier := ((Mog.new leveldb).openDb leveldb config).tier
  writers _ := .returned 0

/-- No flush or fetch is scheduled or running. -/
def Quiet (traffic : WriteTraffic Thread Db) : Prop :=
  traffic.storage.buffer.flushThreadPool = [] ∧ traffic.tier.cache.threadPool = []

/-- Both waiting loops of `WriteBuffer::write` fall through. -/
def FallsThrough (traffic : WriteTraffic Thread Db) : Prop :=
  traffic.storage.buffer.totalSize ≤
    traffic.storage.buffer.maxPageNum * traffic.storage.buffer.pageSize ∧
  traffic.tier.cache.blockNum < traffic.tier.cache.maxBlockNum

end WriteTraffic

end CudaDb
