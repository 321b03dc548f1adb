import CudaDb.Model.GpuCache

/-!
# The readers of the GPU cache

Any number of threads call `GpuCache::read` while others insert. A read looks its key up before it
takes the lock, keeps the iterator it found, and copies through the iterator under the lock; an
insert holds the lock throughout and is one step. An iterator of `cached_item` points to a node of
the map, which dies with the entry: an entry made later under the same key is another node. The
nodes are told apart by the number of inserts that were accepted before their own.
-/

namespace CudaDb

/-- The bytes that an insert stores. -/
def GpuCache.InsertCall.bytes (call : GpuCache.InsertCall) : List UInt8 :=
  call.value.take call.length

/-- Where a call of `GpuCache::read` stands. -/
inductive GpuReadPc
  /-- No call has been made. -/
  | idle
  /-- The lookup has found a node; the copy under the lock comes next. -/
  | copy (key : String) (node : Nat) (value : ByteMemory)
  /-- The call has returned the length and left the buffer. -/
  | returned (key : String) (length : Nat) (value : ByteMemory)
  /-- The copy went through a node that was erased. -/
  | lost (key : String)

/-- No call is being executed. -/
def GpuReadPc.atRest : GpuReadPc → Bool
  | .idle | .returned _ _ _ => true
  | _ => false

/-- A GPU cache with the threads that read it. -/
structure GpuReaders (Worker : Type*) where
  /-- The cache. -/
  cache : GpuCache
  /-- The node of an entry, by its key. -/
  node : String → Nat
  /-- The accepted inserts so far, oldest first. -/
  inserted : List GpuCache.InsertCall
  /-- The threads. -/
  calls : Worker → GpuReadPc

namespace GpuReaders

variable {Worker : Type*}

/-- `cached_item.find(key)` — what the iterator found is, or a return of 0. -/
def find (readers : GpuReaders Worker) (key : String) (value : ByteMemory) : GpuReadPc :=
  if key ∈ readers.cache.cachedItem then .copy key (readers.node key) value
  else .returned key 0 value

/-- The copy through the iterator under the lock. -/
def copy (readers : GpuReaders Worker) (key : String) (node : Nat) (value : ByteMemory) :
    GpuReadPc :=
  match readers.cache.cachedItem.lookup key with
  | some item =>
    if readers.node key = node then
      .returned key item.length
        (SlabPool.gather 1024 readers.cache.pool.slabs item.slabs 0 value)
    else .lost key
  | none => .lost key

/-- What can happen next. -/
inductive Event (Worker : Type*)
  /-- A thread calls `read` and looks the key up. -/
  | find (worker : Worker) (key : String) (value : ByteMemory)
  /-- The call of a thread copies what it found and returns. -/
  | copy (worker : Worker)
  /-- A thread inserts a key that is not cached. -/
  | insert (call : GpuCache.InsertCall)

/-- The reads of the threads in any order of their steps, with inserts of keys that are not cached
in between. -/
def machine [DecidableEq Worker] : Machine (GpuReaders Worker) (Event Worker) where
  step readers
    | .find worker key value =>
      if (readers.calls worker).atRest then
        some { readers with
          calls := Function.update readers.calls worker (readers.find key value) }
      else none
    | .copy worker =>
      match readers.calls worker with
      | .copy key node value =>
        some { readers with
          calls := Function.update readers.calls worker (readers.copy key node value) }
      | _ => none
    | .insert call =>
      if call.key ∈ readers.cache.cachedItem then none
      else
        (readers.cache.insert call.key call.length call.value).map fun (cache, status) =>
          if status = 0 then
            { readers with
              cache
              node := Function.update readers.node call.key readers.inserted.length
              inserted := readers.inserted ++ [call] }
          else { readers with cache }

/-- An allocated cache and threads that have made no call. -/
def start (pageNum : Nat) (device : Nat → ByteMemory) : GpuReaders Worker where
  cache := (GpuCache.initial (1024 * 1024) pageNum device).allocateMemory
  node _ := 0
  inserted := []
  calls _ := .idle

end GpuReaders

end CudaDb
