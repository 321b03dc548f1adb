import CudaDb.Lib.Machine
import CudaDb.Lib.Table
import CudaDb.Lib.SlabPool
import CudaDb.Model.Slab

/-!
# The GPU cache

`GpuCache` keeps values in 1 KiB slabs of device memory, evicts whole values first in first
out, and hands the slabs it freed out again. `MogGpu` is the interface in front of the caches
of several devices. The definitions follow `GpuCache.cpp` and `mog_gpu.cpp`; a read of the front
of an empty queue and a call through a null cache pointer are `none`.
-/

namespace CudaDb

/-- `GPUCachedItem`; a default entry is what indexing `cached_item` by an absent key makes. -/
structure GPUCachedItem where
  /-- Length of the value in bytes. -/
  length : Nat
  /-- Type of the value; it is stored in `2 ^ lengthType` slabs. -/
  lengthType : Nat
  /-- The slabs that hold the value, in order. -/
  slabs : List Nat
  deriving DecidableEq, Inhabited

/-- The state of a `GpuCache`. -/
structure GpuCache where
  /-- Number of slabs on the device. -/
  slabNum : Nat
  /-- `slabs`, `free_slabs` and `free_slab_num`. -/
  pool : SlabPool
  /-- `cached_item`. -/
  cachedItem : Table String GPUCachedItem
  /-- `cached_item_queue`, the key to evict first in front. -/
  cachedItemQueue : List String

namespace GpuCache

/-- `GpuCache::initial` — the size of the cache, before any slab is allocated. The memory that
the device will hand out is `device`. -/
def initial (pageSize pageNum : Nat) (device : Nat → ByteMemory) : GpuCache where
  slabNum := pageNum * pageSize / 1024
  pool := { free := [], freeNum := 0, slabs := device }
  cachedItem := ∅
  cachedItemQueue := []

/-- `GpuCache::allocate_memory` — every slab is free, in ascending order. -/
def allocateMemory (cache : GpuCache) : GpuCache :=
  { cache with
    pool := { cache.pool with
      free := cache.pool.free ++ List.range' 0 cache.slabNum
      freeNum := cache.slabNum } }

/-- The slabs of an entry go to the back of the free queue and its count is credited. -/
def freeItem (pool : SlabPool) (item : GPUCachedItem) : SlabPool :=
  { pool with
    free := pool.free ++ item.slabs
    freeNum := pool.freeNum + 2 ^ item.lengthType }

/-- The eviction loop of `GpuCache::insert` — pop keys until `needed` slabs are free, skipping
`key` itself, which then has to be queued again. The entry that indexing by an absent key would
make is erased at once, so only its default value matters. -/
def evict (key : String) (needed : Int) :
    List String → GpuCache → Bool → Option (GpuCache × Bool)
  | [], _, _ => none
  | deletedItem :: queue, cache, pushFlag =>
    if deletedItem = key then evict key needed queue { cache with cachedItemQueue := queue } true
    else
      let freed := { cache with
        cachedItemQueue := queue
        pool := freeItem cache.pool (cache.cachedItem.slot deletedItem)
        cachedItem := cache.cachedItem.erase deletedItem }
      if freed.pool.freeNum ≥ needed then some (freed, pushFlag)
      else evict key needed queue freed pushFlag

/-- The first part of `GpuCache::insert` — an entry that `key` already has gives its slabs
back. The entry itself stays in `cached_item`, with its list of slabs. -/
def releaseOld (cache : GpuCache) (key : String) : GpuCache × Bool :=
  if key ∈ cache.cachedItem then
    ({ cache with pool := freeItem cache.pool (cache.cachedItem.slot key) }, false)
  else (cache, true)

/-- The second part of `GpuCache::insert` — evict when fewer than `needed` slabs are free. -/
def makeRoom (key : String) (needed : Int) (cache : GpuCache) (pushFlag : Bool) :
    Option (GpuCache × Bool) :=
  if cache.pool.freeNum < needed then evict key needed cache.cachedItemQueue cache pushFlag
  else some (cache, pushFlag)

/-- The last part of `GpuCache::insert` — record the new length, append a slab for each piece
of the value to the entry's list and queue the key if it is not queued. -/
def store (key : String) (length lengthType : Nat) (value : ByteMemory) (cache : GpuCache)
    (pushFlag : Bool) : Option GpuCache :=
  (SlabPool.fill 1024 value (2 ^ lengthType) 0 cache.pool).map fun (taken, pool) =>
    { cache with
      pool
      cachedItem := cache.cachedItem.insert key
        { length, lengthType, slabs := (cache.cachedItem.slot key).slabs ++ taken }
      cachedItemQueue :=
        if pushFlag then cache.cachedItemQueue ++ [key] else cache.cachedItemQueue }

/-- `GpuCache::insert` — the new state and the returned status. -/
def insert (cache : GpuCache) (key : String) (length : Nat) (value : ByteMemory) :
    Option (GpuCache × Int) :=
  let lengthType := slabType length
  if lengthType > 10 then some (cache, -1)
  else
    let (released, pushFlag) := cache.releaseOld key
    (makeRoom key (2 ^ lengthType) released pushFlag).bind fun (roomy, pushFlag) =>
      (store key length lengthType value roomy pushFlag).map fun stored => (stored, 0)

/-- `GpuCache::read` — the returned length and the buffer after the copies. -/
def read (cache : GpuCache) (key : String) (value : ByteMemory) : Nat × ByteMemory :=
  match cache.cachedItem.lookup key with
  | some item => (item.length, SlabPool.gather 1024 cache.pool.slabs item.slabs 0 value)
  | none => (0, value)

/-- The arguments of one `GpuCache::insert`. -/
structure InsertCall where
  /-- The key. -/
  key : String
  /-- The length of the value. -/
  length : Nat
  /-- The memory behind the value pointer. -/
  value : ByteMemory

/-- A cache under a sequence of inserts. -/
def machine : Machine GpuCache InsertCall where
  step cache call := (cache.insert call.key call.length call.value).map Prod.fst

end GpuCache

/-- The caches of `mog_gpu`, by device. -/
structure MogGpu where
  /-- `gpu_caches`; an absent device is a null pointer. -/
  gpuCaches : Table Int GpuCache

namespace MogGpu

/-- `mog_gpu::setup` — an initialised and allocated cache for every device in use. -/
def setup (pageNum : Nat) (memory : Int → Nat → ByteMemory) (devices : List Int) : MogGpu where
  gpuCaches := devices.foldl (fun caches device => caches.insert device
    (GpuCache.initial (1024 * 1024) pageNum (memory device)).allocateMemory) ∅

/-- `value.c_str()` — the bytes of the string, a terminating NUL, and then whatever follows. -/
def cStr (value : List UInt8) (beyond : ByteMemory) : ByteMemory := beyond.write (value ++ [0])

/-- `mog_gpu::insert` — insert into the device's cache and return 0 whatever that returned. -/
def insert (mog : MogGpu) (deviceId : Int) (key : String) (value : List UInt8)
    (beyond : ByteMemory) : Option (MogGpu × Int) :=
  (mog.gpuCaches.lookup deviceId).bind fun cache =>
    (cache.insert key value.length (cStr value beyond)).map fun (stored, _) =>
      ({ mog with gpuCaches := mog.gpuCaches.insert deviceId stored }, 0)

/-- `mog_gpu::read` — read from the device's cache. -/
def read (mog : MogGpu) (deviceId : Int) (key : String) (value : ByteMemory) :
    Option (Nat × ByteMemory) :=
  (mog.gpuCaches.lookup deviceId).map fun cache => cache.read key value

/-- The arguments of one `mog_gpu::insert`, with the memory after the string. -/
structure InsertCall where
  /-- The device. -/
  deviceId : Int
  /-- The key. -/
  key : String
  /-- The value. -/
  value : List UInt8
  /-- What lies in memory after the value's terminating NUL. -/
  beyond : ByteMemory

/-- The devices under a sequence of inserts. -/
def machine : Machine MogGpu InsertCall where
  step mog call := (mog.insert call.deviceId call.key call.value call.beyond).map Prod.fst

end MogGpu

end CudaDb
