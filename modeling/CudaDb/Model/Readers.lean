import CudaDb.Lib.Machine
import CudaDb.Model.CpuCache

/-!
# The readers of the RAM cache

Any number of workers call `CpuCache::read` on one cache. A call looks its key up without the lock
of the cache; after a miss it asks the index, reads the SSD cache into its buffer and calls
`insert`, which takes the lock. Each of these is one step, and between the steps of one call those
of others may come. What the index and the SSD cache answer is chosen by the step, so they may
change as they like between the calls.
-/

namespace CudaDb

/-- Where a call of `CpuCache::read` stands. -/
inductive ReadPc
  /-- No call has been made. -/
  | idle
  /-- `cached_item.find(key)`. -/
  | find (key : String)
  /-- The copy of the slabs of the item found, under the lock. -/
  | copy (key : String)
  /-- `CentraIndex::singleton().get(...)`. -/
  | get (key : String)
  /-- `SSDCache::singleton().read(...)`. -/
  | readSsd (key : String) (info : IndexInfo)
  /-- `insert(...)`. -/
  | insert (key : String) (info : IndexInfo)
  /-- The call has returned. -/
  | returned (length : Nat)

/-- No call is being executed. -/
def ReadPc.atRest : ReadPc → Bool
  | .idle | .returned _ => true
  | _ => false

/-- The key and the index entry that the next access inserts. -/
def ReadPc.inserts : ReadPc → Option (String × IndexInfo)
  | .insert key info => some (key, info)
  | _ => none

/-- A worker with its value buffer. -/
structure ReadCall where
  /-- Where its call stands. -/
  pc : ReadPc
  /-- `value`. -/
  value : ByteMemory

/-- What a step meets outside the RAM cache. -/
structure Outside where
  /-- The answer of `CentraIndex::get`, none unless its length is `sizeof(IndexInfo)`. -/
  info : Option IndexInfo
  /-- The buffer that `SSDCache::read` leaves. -/
  value : ByteMemory

/-- One access of a call of `CpuCache::read`. -/
def CpuCache.readStep (outside : Outside) (cache : CpuCache) (call : ReadCall) :
    Option (CpuCache × ReadCall) :=
  match call.pc with
  | .idle | .returned _ => none
  | .find key =>
    some (cache, { call with pc := if key ∈ cache.cachedItem then .copy key else .get key })
  | .copy key =>
    (cache.cachedItem.lookup key).map fun item =>
      let (length, value) := cache.copyOut item call.value
      (cache, { pc := .returned length, value })
  | .get key =>
    match outside.info with
    | none => some (cache, { call with pc := .returned 0 })
    | some info => some (cache, { call with pc := .readSsd key info })
  | .readSsd key info => some (cache, { pc := .insert key info, value := outside.value })
  | .insert key info =>
    (cache.insert key info call.value).map fun cache =>
      (cache, { call with pc := .returned info.length })

/-- A RAM cache with the workers that read it. -/
structure Readers (Worker : Type*) where
  /-- The cache. -/
  cache : CpuCache
  /-- The workers. -/
  calls : Worker → ReadCall

namespace Readers

variable {Worker : Type*}

/-- What can happen next. -/
inductive Event (Worker : Type*)
  /-- A worker whose last call has returned calls `CpuCache::read`. -/
  | read (worker : Worker) (key : String) (value : ByteMemory)
  /-- The call of a worker goes on to its next access. -/
  | step (worker : Worker) (outside : Outside)

/-- The calls of the workers in any order of their steps. -/
def machine [DecidableEq Worker] : Machine (Readers Worker) (Event Worker) where
  step readers
    | .read worker key value =>
      if (readers.calls worker).pc.atRest then
        some { readers with
          calls := Function.update readers.calls worker { pc := .find key, value } }
      else none
    | .step worker outside =>
      (readers.cache.readStep outside (readers.calls worker)).map fun (cache, call) =>
        { cache, calls := Function.update readers.calls worker call }

/-- A cache whose memory has been allocated, after its construction or after `close`, with workers
that have made no call. -/
def start (pageSize pageNum : Nat) (cache : CpuCache) (value : Worker → ByteMemory) :
    Readers Worker where
  cache := (cache.close.initial pageSize pageNum).allocateMemory
  calls worker := { pc := .idle, value := value worker }

/-- The key and the index entry that an event inserts. -/
def inserts (readers : Readers Worker) : Event Worker → Option (String × IndexInfo)
  | .step worker _ => (readers.calls worker).pc.inserts
  | .read _ _ _ => none

end Readers

end CudaDb
