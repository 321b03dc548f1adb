import CudaDb.Lib.Machine
import CudaDb.Lib.Table
import CudaDb.Lib.ByteMemory
import CudaDb.Model.Slab
import CudaDb.Model.CentraIndex

/-!
# The write buffer

`WriteBuffer` keeps accepted values in memory by the hash of their key, packs them in order of
arrival into blocks, and flushes each block to a file of its own, recording in the index where
the values went. The definitions follow `WriteBuffer.cpp`; `hash` is `std::hash<std::string>`.
The two waiting loops of `write` and the loops of `sync` are steps of a program counter, since
the flush threads run between them; what `write` does under its lock is one step, and so is a
flush.
-/

namespace CudaDb

/-- `kv_info`; `value_length` is the number of bytes of the value. -/
structure KvInfo where
  /-- The full key. -/
  key : String
  /-- The bytes of the value. -/
  value : List UInt8
  /-- `value_length_type`, the slab type of the value. -/
  valueLengthType : Nat
  deriving DecidableEq, Inhabited

/-- The state of a `WriteBuffer`. -/
structure WriteBuffer where
  /-- `page_size`, in bytes. -/
  pageSize : Nat
  /-- `page_per_block`. -/
  pagePerBlock : Nat
  /-- `max_page_num`. -/
  maxPageNum : Nat
  /-- `latest_block_id`. -/
  latestBlockId : Nat
  /-- `kv_list`, the hashes that are in no block yet, oldest first. -/
  kvList : List UInt64
  /-- `kv_store`. -/
  kvStore : Table UInt64 KvInfo
  /-- `blocks`. -/
  blocks : Table Nat (List KvInfo)
  /-- `total_size_without_block`. -/
  totalSizeWithoutBlock : Int
  /-- `total_size`. -/
  totalSize : Int
  /-- The blocks whose flush is scheduled in `flush_thread_pool` and has not run. -/
  flushThreadPool : List Nat

namespace WriteBuffer

/-- The constructor of `WriteBuffer`. -/
def new : WriteBuffer where
  pageSize := 0
  pagePerBlock := 0
  maxPageNum := 0
  latestBlockId := 0
  kvList := []
  kvStore := ∅
  blocks := ∅
  totalSizeWithoutBlock := 0
  totalSize := 0
  flushThreadPool := []

/-- `WriteBuffer::initial` — the sizes and counters; `int64_t(1.2 * page_num)` is exact. -/
def initial (buffer : WriteBuffer) (pageSize pagePerBlock pageNum : Nat) : WriteBuffer :=
  { buffer with
    pageSize
    pagePerBlock
    maxPageNum := 12 * pageNum / 10
    latestBlockId := 0
    totalSizeWithoutBlock := 0
    totalSize := 0
    flushThreadPool := [] }

/-- `page_per_block*1024*1024`, the size of a full block. -/
def blockCapacity (buffer : WriteBuffer) : Nat := buffer.pagePerBlock * 1024 * 1024

/-- The new entry of `WriteBuffer::write` in `kv_store`, in `kv_list` and in both totals. -/
def store (hash : String → UInt64) (key : String) (value : List UInt8) (buffer : WriteBuffer) :
    WriteBuffer :=
  let targetSlabType := slabType value.length
  { buffer with
    kvStore := buffer.kvStore.insert (hash key) { key, value, valueLengthType := targetSlabType }
    kvList := buffer.kvList ++ [hash key]
    totalSize := buffer.totalSize + slabSize targetSlabType
    totalSizeWithoutBlock := buffer.totalSizeWithoutBlock + slabSize targetSlabType }

/-- One iteration of a packing loop, with the front of `kv_list` in hand: if it fits, it moves to
the newest block, and the new size of the block is returned. -/
def packFront (buffer : WriteBuffer) (newBlockSize : Nat) (tempHashedKey : UInt64)
    (rest : List UInt64) : WriteBuffer × Option Nat :=
  let touched := { buffer with kvStore := buffer.kvStore.touch tempHashedKey }
  let info := buffer.kvStore.slot tempHashedKey
  let size := newBlockSize + slabSize info.valueLengthType
  if size > buffer.blockCapacity then (touched, none)
  else
    ({ touched with
      kvList := rest
      blocks := buffer.blocks.insert buffer.latestBlockId
        (buffer.blocks.slot buffer.latestBlockId ++ [info])
      totalSizeWithoutBlock := buffer.totalSizeWithoutBlock - slabSize info.valueLengthType },
    some size)

/-- The packing loop of `WriteBuffer::write`, which takes the front without a test. -/
def packLoop : List UInt64 → Nat → WriteBuffer → Option WriteBuffer
  | [], _, _ => none
  | tempHashedKey :: rest, newBlockSize, buffer =>
    match buffer.packFront newBlockSize tempHashedKey rest with
    | (packed, none) => some packed
    | (packed, some size) => packLoop rest size packed

/-- `++latest_block_id`. -/
def openBlock (buffer : WriteBuffer) : WriteBuffer :=
  { buffer with latestBlockId := buffer.latestBlockId + 1 }

/-- `flush_thread_pool->schedule` of a flush of the newest block. -/
def schedule (buffer : WriteBuffer) : WriteBuffer :=
  { buffer with flushThreadPool := buffer.flushThreadPool ++ [buffer.latestBlockId] }

/-- `WriteBuffer::write` under its lock — the returned status and the new state; `none` where the
packing loop takes the front of an empty queue. -/
def writeLocked (hash : String → UInt64) (key : String) (value : List UInt8)
    (buffer : WriteBuffer) : Option (Int × WriteBuffer) :=
  if hash key ∈ buffer.kvStore then some (-1, buffer)
  else
    let stored := buffer.store hash key value
    if stored.totalSizeWithoutBlock > stored.blockCapacity then
      (packLoop stored.kvList 0 stored.openBlock).map fun packed => (0, packed.schedule)
    else some (0, stored)

/-- `WriteBuffer::read` — the returned length and the buffer after the copy. -/
def read (hash : String → UInt64) (key : String) (buffer : WriteBuffer) (value : ByteMemory) :
    Nat × ByteMemory :=
  match buffer.kvStore.lookup (hash key) with
  | some target => (target.value.length, value.write target.value)
  | none => (0, value)

/-- Where a call of `write` or `sync` stands. -/
inductive Pc
  /-- `while (total_size > max_page_num * page_size)`. -/
  | waitTotal (key : String) (value : List UInt8)
  /-- `while (block_num >= max_block_num)`, on the SSD cache. -/
  | waitSsd (key : String) (value : List UInt8)
  /-- The part of `write` under the lock. -/
  | locked (key : String) (value : List UInt8)
  /-- The test of the outer loop of `sync`. -/
  | syncOuter
  /-- The test of the inner loop of `sync`. -/
  | syncInner (newBlockSize : Nat)
  /-- The loop of `sync` that waits for the flush threads. -/
  | syncDrain
  /-- The call has returned. -/
  | returned (status : Int)

/-- `WriteBuffer::write` — the test before the loops. -/
def write (key : String) (value : List UInt8) : Pc :=
  if value.length > slabSize 10 then .returned (-1) else .waitTotal key value

/-- `WriteBuffer::sync` — from its start. -/
def sync : Pc := .syncOuter

/-- One step of a call; a waiting loop has no step while its condition holds. The second one asks
the SSD cache whether `block_num >= max_block_num`. -/
def step (hash : String → UInt64) (ssdFull : Bool) (buffer : WriteBuffer) :
    Pc → Option (Pc × WriteBuffer)
  | .waitTotal key value =>
    if buffer.totalSize > buffer.maxPageNum * buffer.pageSize then none
    else some (.waitSsd key value, buffer)
  | .waitSsd key value => if ssdFull then none else some (.locked key value, buffer)
  | .locked key value =>
    (buffer.writeLocked hash key value).map fun (status, written) => (.returned status, written)
  | .syncOuter =>
    if buffer.kvList = [] then some (.syncDrain, buffer) else some (.syncInner 0, buffer.openBlock)
  | .syncInner newBlockSize =>
    match buffer.kvList with
    | [] => some (.syncOuter, buffer.schedule)
    | tempHashedKey :: rest =>
      match buffer.packFront newBlockSize tempHashedKey rest with
      | (packed, none) => some (.syncOuter, packed.schedule)
      | (packed, some size) => some (.syncInner size, packed)
  | .syncDrain => if buffer.flushThreadPool = [] then some (.returned 0, buffer) else none
  | .returned _ => none

end WriteBuffer

/-- The write buffer with what its flushes write to. -/
structure Storage (Db : Type*) where
  /-- The write buffer. -/
  buffer : WriteBuffer
  /-- The database of the index. -/
  db : Db
  /-- The block files under `hdd_path`. -/
  hdd : Table Nat (List UInt8)

namespace Storage

variable {Db : Type*}

/-- The local variables of `WriteBuffer::flush`, with the index and `kv_store`. -/
structure Flushing (Db : Type*) where
  /-- `fout`, as the bytes written so far. -/
  fout : List UInt8
  /-- `offset`. -/
  offset : Nat
  /-- `flushed_size`. -/
  flushedSize : Int
  /-- The database of the index. -/
  db : Db
  /-- `kv_store`. -/
  kvStore : Table UInt64 KvInfo

/-- One iteration of the loop of `WriteBuffer::flush`. -/
def flushEntry (hash : String → UInt64) (leveldb : LevelDb Db) (blockId : Nat)
    (flushing : Flushing Db) (entry : KvInfo) : Flushing Db where
  fout := flushing.fout ++ entry.value
  offset := flushing.offset + entry.value.length
  flushedSize := flushing.flushedSize + slabSize entry.valueLengthType
  db := leveldb.put flushing.db entry.key (.info {
    blockId
    offset := flushing.offset
    length := entry.value.length
    lengthType := entry.valueLengthType })
  kvStore := flushing.kvStore.erase (hash entry.key)

/-- `WriteBuffer::flush` — write the file of the block anew, and forget the block. -/
def flush (hash : String → UInt64) (leveldb : LevelDb Db) (blockId : Nat)
    (storage : Storage Db) : Storage Db :=
  let flushing := (storage.buffer.blocks.slot blockId).foldl (flushEntry hash leveldb blockId)
    { fout := [], offset := 0, flushedSize := 0, db := storage.db
      kvStore := storage.buffer.kvStore }
  { buffer := { storage.buffer with
      kvStore := flushing.kvStore
      blocks := storage.buffer.blocks.erase blockId
      totalSize := storage.buffer.totalSize - flushing.flushedSize }
    db := flushing.db
    hdd := storage.hdd.insert blockId flushing.fout }

/-- A thread of `flush_thread_pool` runs a scheduled flush. -/
def runFlush (hash : String → UInt64) (leveldb : LevelDb Db) (blockId : Nat)
    (storage : Storage Db) : Option (Storage Db) :=
  if blockId ∈ storage.buffer.flushThreadPool then
    some (({ storage with buffer := { storage.buffer with
      flushThreadPool := storage.buffer.flushThreadPool.erase blockId } }).flush hash leveldb blockId)
  else none

/-- The bytes that a record denotes: `length` bytes at `offset` of the file of its block. -/
def slice (hdd : Table Nat (List UInt8)) (info : IndexInfo) : Option (List UInt8) :=
  (hdd.lookup info.blockId).bind fun file =>
    if info.offset + info.length ≤ file.length then
      some ((file.drop info.offset).take info.length)
    else none

/-- A storage after `mog::create`. -/
def initial (leveldb : LevelDb Db) (pageSize pagePerBlock pageNum : Nat) : Storage Db where
  buffer := WriteBuffer.new.initial pageSize pagePerBlock pageNum
  db := CentraIndex.setup leveldb
  hdd := ∅

/-! ## Calls on the write buffer -/

/-- A storage with its caller, who makes one call after another. -/
structure Session (Db : Type*) where
  /-- The storage. -/
  storage : Storage Db
  /-- Where the caller stands. -/
  pc : WriteBuffer.Pc

/-- What can happen next. -/
inductive Event
  /-- The caller, whose last call has returned, calls `WriteBuffer::write`. -/
  | write (key : String) (value : List UInt8)
  /-- The caller, whose last call has returned, calls `WriteBuffer::sync`. -/
  | sync
  /-- The caller's call goes one step on. -/
  | step (ssdFull : Bool)
  /-- A flush thread flushes the block. -/
  | flush (blockId : Nat)

/-- The calls with the scheduled flushes in between. -/
def machine (hash : String → UInt64) (leveldb : LevelDb Db) : Machine (Session Db) Event where
  step session
    | .write key value =>
      match session.pc with
      | .returned _ => some { session with pc := WriteBuffer.write key value }
      | _ => none
    | .sync =>
      match session.pc with
      | .returned _ => some { session with pc := WriteBuffer.sync }
      | _ => none
    | .step ssdFull =>
      (session.storage.buffer.step hash ssdFull session.pc).map fun (pc, buffer) =>
        { storage := { session.storage with buffer }, pc }
    | .flush blockId =>
      (session.storage.runFlush hash leveldb blockId).map fun storage => { session with storage }

/-- The caller before the first call, on a fresh storage. -/
def start (leveldb : LevelDb Db) (pageSize pagePerBlock pageNum : Nat) : Session Db where
  storage := initial leveldb pageSize pagePerBlock pageNum
  pc := .returned 0

end Storage

end CudaDb
