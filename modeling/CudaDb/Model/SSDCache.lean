import CudaDb.Lib.Machine
import CudaDb.Lib.Table
import CudaDb.Lib.ByteMemory
import CudaDb.Model.CentraIndex

/-!
# The SSD cache

`SSDCache` keeps copies of block files on the SSD. New blocks are announced with their file on
the SSD and flushed to the HDD by a task; blocks that are read often are fetched from the HDD by
another; both evict the oldest copies when the SSD is full. The definitions follow
`SSDCache.cpp`. A task copies its file without the lock and then enters an exclusive section;
both are steps of it, and a task whose copy fails has no further effect.
-/

namespace CudaDb

/-- The block files of a directory, by the id that is the file's name. -/
abbrev Directory := Table Nat (List UInt8)

/-- `boost::filesystem::copy_file` — fails if the source is missing or the destination exists. -/
def copyFile (source destination : Directory) (blockId : Nat) : Option Directory :=
  if blockId ∈ destination then none
  else (source.lookup blockId).map fun file => destination.insert blockId file

/-- The tasks of `thread_pool`, by the step that they take next. -/
inductive SsdTask
  /-- `SSDCache::flush` from its start. -/
  | flushCopy (blockId : Nat)
  /-- `SSDCache::flush` from `flush_lock` on. -/
  | flushSection (blockId : Nat)
  /-- `SSDCache::fetch` from its start. -/
  | fetchTest (blockId : Nat)
  /-- `SSDCache::fetch` after its test of `block_num`. -/
  | fetchCopy (blockId : Nat)
  /-- `SSDCache::fetch` from `fetch_lock` on. -/
  | fetchSection (blockId : Nat)
  deriving DecidableEq

/-- The state of an `SSDCache`. -/
structure SSDCache where
  /-- `max_block_num`. -/
  maxBlockNum : Nat
  /-- `block_num`. -/
  blockNum : Int
  /-- `unsynced_block_id`, the announced blocks with the sizes of their files. -/
  unsyncedBlockId : Table Nat Nat
  /-- `cached_block_id`, the block to evict first in front. -/
  cachedBlockId : List Nat
  /-- `cached_block`, the cached blocks with the sizes of their files. -/
  cachedBlock : Table Nat Nat
  /-- `caching_block`. -/
  cachingBlock : Table Nat Nat
  /-- `read_record`, the blocks in ascending order with their numbers of reads. -/
  readRecord : List (Nat × Nat)
  /-- `read_num`. -/
  readNum : Nat
  /-- The tasks of `thread_pool` that have not ended. -/
  threadPool : List SsdTask

namespace SSDCache

/-- The constructor of `SSDCache`, with the number of blocks that `mog` sets. -/
def new (maxBlockNum : Nat) : SSDCache where
  maxBlockNum
  blockNum := 0
  unsyncedBlockId := ∅
  cachedBlockId := []
  cachedBlock := ∅
  cachingBlock := ∅
  readRecord := []
  readNum := 0
  threadPool := []

/-- `++read_record[block_id]`. -/
def bump (blockId : Nat) : List (Nat × Nat) → List (Nat × Nat)
  | [] => [(blockId, 1)]
  | (other, count) :: record =>
    if blockId < other then (blockId, 1) :: (other, count) :: record
    else if blockId = other then (other, count + 1) :: record
    else (other, count) :: bump blockId record

/-- `read_record_sta[difference].push_back(block_id)`. -/
def pushBucket (difference : Int) (blockId : Nat) : List (Int × List Nat) → List (Int × List Nat)
  | [] => [(difference, [blockId])]
  | (other, bucket) :: buckets =>
    if difference < other then (difference, [blockId]) :: (other, bucket) :: buckets
    else if difference = other then (other, bucket ++ [blockId]) :: buckets
    else (other, bucket) :: pushBucket difference blockId buckets

/-- `block_id_to_fetch` — the last block in `read_record_sta` that is not cached, or 0. -/
def blockIdToFetch (cache : SSDCache) (checkThreshold : Nat) : Nat :=
  let buckets := cache.readRecord.foldl (fun buckets (blockId, count) =>
    pushBucket (checkThreshold - count) blockId buckets) []
  (buckets.flatMap Prod.snd).foldl (fun chosen candidate =>
    if candidate ∈ cache.cachedBlock then chosen else candidate) 0

/-- The start of `SSDCache::read` — count the read, and after more than 50 of them schedule the
fetch of a block. -/
def noteRead (cache : SSDCache) (blockId : Nat) : SSDCache :=
  let counted := { cache with
    readRecord := bump blockId cache.readRecord
    readNum := cache.readNum + 1 }
  if counted.readNum > 50 then
    let fetched := counted.blockIdToFetch 50
    let scheduled :=
      if fetched ≠ 0 ∧ fetched ∉ counted.cachedBlock ∧ fetched ∉ counted.cachingBlock then
        { counted with
          cachingBlock := counted.cachingBlock.insert fetched 1
          threadPool := counted.threadPool ++ [.fetchTest fetched] }
      else counted
    { scheduled with readNum := 0, readRecord := [] }
  else counted

end SSDCache

/-- An SSD cache with the files under `ssd_path`. -/
structure SsdTier where
  /-- The state of the cache. -/
  cache : SSDCache
  /-- The block files on the SSD. -/
  ssd : Directory

namespace SsdTier

/-- The eviction loop of `SSDCache::flush` and `SSDCache::fetch` — until fewer than seven tenths
of the blocks are left. -/
def evictLoop : List Nat → SsdTier → SsdTier
  | [], tier => tier
  | deleted :: rest, tier =>
    if 10 * tier.cache.blockNum < 7 * tier.cache.maxBlockNum then tier
    else evictLoop rest {
      cache := { tier.cache with
        cachedBlock := tier.cache.cachedBlock.erase deleted
        cachedBlockId := rest
        blockNum := tier.cache.blockNum - 1 }
      ssd := tier.ssd.erase deleted }

/-- The eviction in both sections, made only when the SSD is full. -/
def evict (tier : SsdTier) : SsdTier :=
  if tier.cache.blockNum ≥ tier.cache.maxBlockNum then
    evictLoop tier.cache.cachedBlockId tier
  else tier

/-- The block is cached, newest. -/
def register (blockId targetFileSize : Nat) (tier : SsdTier) : SsdTier :=
  { tier with cache := { tier.cache with
    cachedBlockId := tier.cache.cachedBlockId ++ [blockId]
    cachedBlock := tier.cache.cachedBlock.insert blockId targetFileSize } }

/-- `SSDCache::flush` under its lock. -/
def flushSection (blockId : Nat) (tier : SsdTier) : SsdTier :=
  let targetFileSize := tier.cache.unsyncedBlockId.slot blockId
  (register blockId targetFileSize { tier with cache := { tier.cache with
    unsyncedBlockId := tier.cache.unsyncedBlockId.erase blockId } }).evict

/-- `SSDCache::fetch` under its lock; `file_size` fails if the copy is missing. -/
def fetchSection (blockId : Nat) (tier : SsdTier) : Option SsdTier :=
  (tier.ssd.lookup blockId).map fun file =>
    let registered := register blockId file.length tier
    let evicted := evict { registered with cache := { registered.cache with
      blockNum := registered.cache.blockNum + 1 } }
    { evicted with cache := { evicted.cache with
      cachingBlock := evicted.cache.cachingBlock.erase blockId } }

/-- One step of a task — what it does next, if it goes on, and the state after it. -/
def runTask (tier : SsdTier) (hdd : Directory) : SsdTask → Option SsdTask × SsdTier × Directory
  | .flushCopy blockId =>
    match copyFile tier.ssd hdd blockId with
    | some copied => (some (.flushSection blockId), tier, copied)
    | none => (none, tier, hdd)
  | .flushSection blockId => (none, tier.flushSection blockId, hdd)
  | .fetchTest blockId =>
    if tier.cache.blockNum < tier.cache.maxBlockNum then (some (.fetchCopy blockId), tier, hdd)
    else (none, tier, hdd)
  | .fetchCopy blockId =>
    match copyFile hdd tier.ssd blockId with
    | some copied => (some (.fetchSection blockId), { tier with ssd := copied }, hdd)
    | none => (none, tier, hdd)
  | .fetchSection blockId => (none, (tier.fetchSection blockId).getD tier, hdd)

/-- `SSDCache::new_block` — announce a block and schedule its flush; `file_size` fails if its file
is missing. -/
def newBlock (blockId : Nat) (tier : SsdTier) : Option SsdTier :=
  (tier.ssd.lookup blockId).map fun file =>
    { tier with cache := { tier.cache with
      unsyncedBlockId := tier.cache.unsyncedBlockId.insert blockId file.length
      blockNum := tier.cache.blockNum + 1
      threadPool := tier.cache.threadPool ++ [.flushCopy blockId] } }

/-- `SSDCache::read` — the returned length and the buffer after the read; `none` where `fopen`
finds no file. -/
def read (info : IndexInfo) (tier : SsdTier) (hdd : Directory) (value : ByteMemory) :
    Option (SsdTier × Nat × ByteMemory) :=
  let noted := { tier with cache := tier.cache.noteRead info.blockId }
  let directory :=
    if info.blockId ∈ noted.cache.cachedBlock ∨ info.blockId ∈ noted.cache.unsyncedBlockId then
      noted.ssd
    else hdd
  (directory.lookup info.blockId).map fun file =>
    (noted, info.length, value.write ((file.drop info.offset).take info.length))

/-! ## Any interleaving -/

/-- The cache, both directories, and the blocks that were announced. -/
structure World where
  /-- The cache and the SSD. -/
  tier : SsdTier
  /-- The block files on the HDD. -/
  hdd : Directory
  /-- The blocks announced by `new_block` so far. -/
  announced : List Nat

/-- What can happen next. -/
inductive Event
  /-- The file of a block is put on the SSD, to be announced later. -/
  | placeSsd (blockId : Nat)
  /-- The file of a block is put on the HDD. -/
  | placeHdd (blockId : Nat)
  /-- `new_block` is called, for the first time for this block. -/
  | newBlock (blockId : Nat)
  /-- A task goes one step on. -/
  | task (task : SsdTask)
  /-- `read` is called. -/
  | read (info : IndexInfo)

/-- The calls and the tasks over block files whose contents never change. A block is announced at
most once, with its file on the SSD and none on the HDD. -/
def machine (content : Nat → List UInt8) : Machine World Event where
  step world
    | .placeSsd blockId =>
      if blockId ∈ world.tier.ssd then none
      else some { world with
        tier := { world.tier with ssd := world.tier.ssd.insert blockId (content blockId) } }
    | .placeHdd blockId =>
      if blockId ∈ world.hdd then none
      else some { world with hdd := world.hdd.insert blockId (content blockId) }
    | .newBlock blockId =>
      if blockId ∈ world.announced ∨ blockId ∈ world.hdd then none
      else (world.tier.newBlock blockId).map fun tier =>
        { world with tier, announced := blockId :: world.announced }
    | .task task =>
      if task ∈ world.tier.cache.threadPool then
        let (next, tier, hdd) := world.tier.runTask world.hdd task
        some { world with
          tier := { tier with cache := { tier.cache with
            threadPool := tier.cache.threadPool.erase task ++ next.toList } }
          hdd }
      else none
    | .read info =>
      (world.tier.read info world.hdd fun _ => 0).map fun (tier, _) => { world with tier }

/-- Empty directories and an empty cache. -/
def start (maxBlockNum : Nat) : World where
  tier := { cache := SSDCache.new maxBlockNum, ssd := ∅ }
  hdd := ∅
  announced := []

end SsdTier

end CudaDb
