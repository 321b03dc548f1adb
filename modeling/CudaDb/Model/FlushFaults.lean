import CudaDb.Model.WriteBuffer

/-!
# A flush with failures

For every entry of a block `WriteBuffer::flush` writes its bytes, puts its record into the index
and erases it from `kv_store`. It looks at the result of none of these calls: a put that returns
-1 leaves the record that the key had, a file that does not open swallows every write, and a write
that fails leaves part of the file and a stream whose later writes do nothing. `flushWith` is
`flush` under a pattern of such failures.
-/

namespace CudaDb

/-- What fails during one flush; the entries of the block are counted from 0. -/
structure FlushFaults where
  /-- `fout` does not open its file. -/
  openFails : Bool
  /-- `CentraIndex::put` returns -1 for the entry. -/
  putFails : Nat → Bool
  /-- `fout.write` fails for the entry; so many bytes of the file are there then. -/
  writeFails : Nat → Option Nat

/-- Nothing fails. -/
def FlushFaults.never : FlushFaults where
  openFails := false
  putFails _ := false
  writeFails _ := none

namespace Storage

variable {Db : Type*}

/-- The local variables of a flush with failures. -/
structure FaultyFlushing (Db : Type*) extends Flushing Db where
  /-- The stream is bad. -/
  bad : Bool
  /-- `key_num`, the number of entries gone through. -/
  keyNum : Nat

/-- `fout.write` — the file and the state of the stream after it. -/
def writeWith (failed : Option Nat) (bad : Bool) (fout value : List UInt8) : List UInt8 × Bool :=
  if bad then (fout, true)
  else
    match failed with
    | none => (fout ++ value, false)
    | some kept => ((fout ++ value).take kept, true)

/-- One iteration of the loop of `WriteBuffer::flush` under the failures. -/
def flushEntryWith (hash : String → UInt64) (leveldb : LevelDb Db) (faults : FlushFaults)
    (blockId : Nat) (flushing : FaultyFlushing Db) (entry : KvInfo) : FaultyFlushing Db :=
  let (fout, bad) :=
    writeWith (faults.writeFails flushing.keyNum) flushing.bad flushing.fout entry.value
  { fout
    bad
    offset := flushing.offset + entry.value.length
    flushedSize := flushing.flushedSize + slabSize entry.valueLengthType
    db :=
      if faults.putFails flushing.keyNum then flushing.db
      else leveldb.put flushing.db entry.key (.info {
        blockId
        offset := flushing.offset
        length := entry.value.length
        lengthType := entry.valueLengthType })
    kvStore := flushing.kvStore.erase (hash entry.key)
    keyNum := flushing.keyNum + 1 }

/-- The loop of `WriteBuffer::flush` under the failures. -/
def flushEntriesWith (hash : String → UInt64) (leveldb : LevelDb Db) (faults : FlushFaults)
    (blockId : Nat) (storage : Storage Db) : FaultyFlushing Db :=
  (storage.buffer.blocks.slot blockId).foldl (flushEntryWith hash leveldb faults blockId)
    { fout := []
      bad := faults.openFails
      offset := 0
      flushedSize := 0
      db := storage.db
      kvStore := storage.buffer.kvStore
      keyNum := 0 }

/-- `WriteBuffer::flush` under the failures; the old file is removed before `fout` opens. -/
def flushWith (hash : String → UInt64) (leveldb : LevelDb Db) (faults : FlushFaults)
    (blockId : Nat) (storage : Storage Db) : Storage Db :=
  let flushing := flushEntriesWith hash leveldb faults blockId storage
  { buffer := { storage.buffer with
      kvStore := flushing.kvStore
      blocks := storage.buffer.blocks.erase blockId
      totalSize := storage.buffer.totalSize - flushing.flushedSize }
    db := flushing.db
    hdd :=
      if faults.openFails then storage.hdd.erase blockId
      else storage.hdd.insert blockId flushing.fout }

/-- A thread of `flush_thread_pool` runs a scheduled flush under the failures. -/
def runFlushWith (hash : String → UInt64) (leveldb : LevelDb Db) (faults : FlushFaults)
    (blockId : Nat) (storage : Storage Db) : Option (Storage Db) :=
  if blockId ∈ storage.buffer.flushThreadPool then
    some (({ storage with buffer := { storage.buffer with
      flushThreadPool := storage.buffer.flushThreadPool.erase blockId } }).flushWith hash leveldb
        faults blockId)
  else none

/-- What a reader of the file finds for a record: `length` bytes from `offset` on, as far as the
file reaches. -/
def fileBytes (hdd : Table Nat (List UInt8)) (info : IndexInfo) : Option (List UInt8) :=
  (hdd.lookup info.blockId).map fun file => (file.drop info.offset).take info.length

/-- What is read from the disk for a key. -/
def readDisk (leveldb : LevelDb Db) (storage : Storage Db) (key : String) : Option (List UInt8) :=
  (CentraIndex.getInfo leveldb storage.db key).bind (fileBytes storage.hdd)

/-- What can happen next where flushes may fail. -/
inductive FaultyEvent
  /-- An event without failures. -/
  | sound (event : Event)
  /-- A flush thread flushes the block under the failures. -/
  | flush (faults : FlushFaults) (blockId : Nat)

/-- The calls on the write buffer with flushes that may fail in between. -/
def faultyMachine (hash : String → UInt64) (leveldb : LevelDb Db) :
    Machine (Session Db) FaultyEvent where
  step session
    | .sound event => (machine hash leveldb).step session event
    | .flush faults blockId =>
      (session.storage.runFlushWith hash leveldb faults blockId).map fun storage =>
        { session with storage }

end Storage

end CudaDb
