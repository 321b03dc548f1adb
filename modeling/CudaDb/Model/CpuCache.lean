import CudaDb.Lib.Table
import CudaDb.Lib.SlabPool
import CudaDb.Model.Slab
import CudaDb.Model.CentraIndex

/-!
# The RAM cache

`CpuCache` keeps values that were read from disk in 1 KiB slabs. Unlike the GPU cache it never
evicts: a value for which too few slabs are free is not cached. The definitions follow
`CpuCache.cpp`; `CpuCache::read` is split at its accesses to the shared state and stands with
the other steps of a request.
-/

namespace CudaDb

/-- `CPUCachedItem`; a default entry is what indexing `cached_item` by an absent key makes. -/
structure CPUCachedItem where
  /-- Length of the value in bytes. -/
  length : Nat
  /-- Type of the value. -/
  lengthType : Nat
  /-- The slabs that hold the value, in order. -/
  slabs : List Nat
  deriving DecidableEq, Inhabited

/-- The state of a `CpuCache`. -/
structure CpuCache where
  /-- Number of slabs. -/
  slabNum : Nat
  /-- `slabs`, `free_slabs` and `free_slab_num`. -/
  pool : SlabPool
  /-- `cached_item`. -/
  cachedItem : Table String CPUCachedItem
  /-- `cached_item_queue`. -/
  cachedItemQueue : List String

namespace CpuCache

/-- The constructor of `CpuCache`. -/
def new : CpuCache where
  slabNum := 0
  pool := { free := [], freeNum := 0, slabs := fun _ _ => 0 }
  cachedItem := ∅
  cachedItemQueue := []

/-- `CpuCache::initial` — the size of the cache, before any slab is allocated. -/
def initial (pageSize pageNum : Nat) (cache : CpuCache) : CpuCache :=
  { cache with
    slabNum := pageNum * pageSize / 1024
    pool := { cache.pool with freeNum := 0 } }

/-- `CpuCache::allocate_memory` — every slab is free and filled with zeros. -/
def allocateMemory (cache : CpuCache) : CpuCache :=
  { cache with
    pool :=
      { free := cache.pool.free ++ List.range' 0 cache.slabNum
        freeNum := cache.slabNum
        slabs := fun _ _ => 0 } }

/-- `CpuCache::insert` — a slab for each piece of the value, if enough slabs are free. -/
def insert (key : String) (info : IndexInfo) (value : ByteMemory) (cache : CpuCache) :
    Option CpuCache :=
  if cache.pool.freeNum < 2 ^ info.lengthType then some cache
  else
    (SlabPool.fill 1024 value (2 ^ info.lengthType) 0 cache.pool).map fun (taken, pool) =>
      { cache with
        pool
        cachedItem := cache.cachedItem.insert key
          { length := info.length
            lengthType := info.lengthType
            slabs := (cache.cachedItem.slot key).slabs ++ taken }
        cachedItemQueue := cache.cachedItemQueue ++ [key] }

/-- `CpuCache::close` — no entry, no slab and no free slab; the counter stays. -/
def close (cache : CpuCache) : CpuCache :=
  { cache with
    pool := { cache.pool with free := [] }
    cachedItem := ∅
    cachedItemQueue := [] }

/-- The copy at the end of `CpuCache::read` — the returned length and the buffer after it. -/
def copyOut (item : CPUCachedItem) (cache : CpuCache) (value : ByteMemory) : Nat × ByteMemory :=
  (item.length, SlabPool.gather 1024 cache.pool.slabs item.slabs 0 value)

end CpuCache

end CudaDb
