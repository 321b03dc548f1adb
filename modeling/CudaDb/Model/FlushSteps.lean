import CudaDb.Model.Mog
import CudaDb.Model.FlushFaults

/-!
# A flush step by step

`WriteBuffer::flush` opens the file of its block, and then, for every entry, gives the bytes to the
stream, puts the record into the index and erases the entry from `kv_store`. What the stream has
been given is seen by other readers of the file only as far as the stream has written it out, and
all of it once the stream is closed. Readers that have found nothing in the write buffer go on to
the RAM cache, the index and the files meanwhile, and the threads of the SSD cache copy files. The
lock that the flush holds covers none of these.
-/

namespace CudaDb

/-- The statement of `WriteBuffer::flush` that the flush thread executes next. -/
inductive FlushPc
  /-- `std::ofstream fout(fout_name)`, after an old file was removed. -/
  | openFile
  /-- `write_lock`, and the start of the loop. -/
  | lock
  /-- The test of the loop, with the entries that are left, and `fout.write` of the first one; or
  `fout.close()` and the rest of the function. -/
  | write (entries : List KvInfo)
  /-- `CentraIndex::singleton().put(...)` for the entry and `kv_store.erase`, before the others. -/
  | put (entry : KvInfo) (entries : List KvInfo)
  /-- The flush has ended. -/
  | ended
  deriving DecidableEq

/-- The entry whose record is put next. -/
def FlushPc.putting : FlushPc → Option KvInfo
  | .put entry _ => some entry
  | _ => none

/-- The block whose file the task of a fetch copies next. -/
def SsdTask.copying : SsdTask → Option Nat
  | .fetchCopy blockId => some blockId
  | _ => none

/-- The key and the record that are inserted into the RAM cache next. -/
def MogPc.caching : MogPc → Option (String × IndexInfo)
  | .insertItem _ key info => some (key, info)
  | _ => none

/-- The local variables of `WriteBuffer::flush`. -/
structure FlushFrame where
  /-- `block_id`. -/
  blockId : Nat
  /-- Where the flush stands. -/
  pc : FlushPc
  /-- The bytes that `fout` has been given. -/
  fout : List UInt8
  /-- `offset`. -/
  offset : Nat
  /-- `flushed_size`. -/
  flushedSize : Int

/-- A `mog` with a flush that is being executed and the readers that have passed
`WriteBuffer::read`. The files of `mog.storage.hdd` are as other readers see them. -/
structure FlushRace (Thread Db : Type*) where
  /-- The store. -/
  mog : Mog Db
  /-- The flush. -/
  flush : FlushFrame
  /-- The readers. -/
  readers : Thread → Caller

/-- What can happen next. -/
inductive FlushEvent (Thread : Type*)
  /-- The flush executes its next statement. -/
  | flush
  /-- The stream writes out what it was given, up to so many bytes of the file. -/
  | drain (count : Nat)
  /-- The reader makes its next access. -/
  | reader (thread : Thread)
  /-- A task of the SSD cache takes its next step. -/
  | task (task : SsdTask)

namespace FlushRace

variable {Thread Db : Type*}

/-- The file of the block as other readers see it. -/
def visible (race : FlushRace Thread Db) : List UInt8 :=
  (race.mog.storage.hdd.lookup race.flush.blockId).getD []

/-- The file of the block is seen with these bytes. -/
def expose (bytes : List UInt8) (race : FlushRace Thread Db) : FlushRace Thread Db :=
  { race with mog := { race.mog with storage := { race.mog.storage with
    hdd := race.mog.storage.hdd.insert race.flush.blockId bytes } } }

/-- `WriteBuffer::flush` — the statement at `pc`. -/
def flushStep (hash : String → UInt64) (leveldb : LevelDb Db) (race : FlushRace Thread Db) :
    FlushPc → Option (FlushRace Thread Db)
  | .openFile => some { race.expose [] with flush := { race.flush with pc := .lock } }
  | .lock => some { race with flush := { race.flush with
      pc := .write (race.mog.storage.buffer.blocks.slot race.flush.blockId) } }
  | .write (entry :: entries) => some { race with flush := { race.flush with
      pc := .put entry entries
      fout := race.flush.fout ++ entry.value
      flushedSize := race.flush.flushedSize + slabSize entry.valueLengthType } }
  | .put entry entries => some { race with
      mog := { race.mog with storage := { race.mog.storage with
        buffer := { race.mog.storage.buffer with
          kvStore := race.mog.storage.buffer.kvStore.erase (hash entry.key) }
        db := leveldb.put race.mog.storage.db entry.key (.info {
          blockId := race.flush.blockId
          offset := race.flush.offset
          length := entry.value.length
          lengthType := entry.valueLengthType }) } }
      flush := { race.flush with
        pc := .write entries
        offset := race.flush.offset + entry.value.length } }
  | .write [] => some { race with
      mog := { race.mog with storage := { race.mog.storage with
        buffer := { race.mog.storage.buffer with
          blocks := race.mog.storage.buffer.blocks.erase race.flush.blockId
          totalSize := race.mog.storage.buffer.totalSize - race.flush.flushedSize }
        hdd := race.mog.storage.hdd.insert race.flush.blockId race.flush.fout } }
      flush := { race.flush with pc := .ended } }
  | .ended => none

/-- The stream is open. -/
def streaming : FlushPc → Bool
  | .openFile | .ended => false
  | _ => true

/-- Any interleaving of one flush with the readers and the tasks of the SSD cache. -/
def machine [DecidableEq Thread] (hash : String → UInt64) (leveldb : LevelDb Db)
    (config : MogConfig) (files : String → Option (List UInt8)) :
    Machine (FlushRace Thread Db) (FlushEvent Thread) where
  step race
    | .flush => race.flushStep hash leveldb race.flush.pc
    | .drain count =>
      if streaming race.flush.pc ∧ race.visible.length ≤ count then
        some (race.expose (race.flush.fout.take count))
      else none
    | .reader thread =>
      (race.mog.step hash leveldb config files (race.readers thread)).map fun (mog, caller) =>
        { race with mog, readers := Function.update race.readers thread caller }
    | .task task =>
      if task ∈ race.mog.tier.cache.threadPool then
        let (next, tier, hdd) := race.mog.tier.runTask race.mog.storage.hdd task
        some { race with mog := { race.mog with
          storage := { race.mog.storage with hdd }
          tier := { tier with cache := { tier.cache with
            threadPool := tier.cache.threadPool.erase task ++ next.toList } } } }
      else none

/-- A flush thread takes the flush of the block from its pool, while the readers have found nothing
in the write buffer for their keys. -/
def start (blockId : Nat) (mog : Mog Db) (key : Thread → String) (value : Thread → ByteMemory) :
    FlushRace Thread Db where
  mog := { mog with storage := { mog.storage with buffer := { mog.storage.buffer with
    flushThreadPool := mog.storage.buffer.flushThreadPool.erase blockId } } }
  flush := { blockId, pc := .openFile, fout := [], offset := 0, flushedSize := 0 }
  readers thread := { pc := .findItem .caller (key thread), value := value thread }

/-- The condition on a step. A record is put when the bytes of its value have been written out; the
file of the block is copied when all of it has; and a key that is cached in RAM is inserted again
only with a value of the same length. -/
def InTime (race : FlushRace Thread Db) : FlushEvent Thread → Prop
  | .flush => ∀ entry ∈ race.flush.pc.putting,
    entry.value = [] ∨ race.flush.offset + entry.value.length ≤ race.visible.length
  | .task task => ∀ blockId ∈ task.copying, blockId = race.flush.blockId →
    blockId ∈ race.mog.storage.hdd → blockId ∉ race.mog.tier.ssd → race.flush.pc = .ended ∨
      race.visible = (race.mog.storage.buffer.blocks.slot blockId).flatMap KvInfo.value
  | .reader thread => ∀ insertion ∈ (race.readers thread).pc.caching,
    ∀ item ∈ race.mog.ram.cachedItem.lookup insertion.1, item.length = insertion.2.length
  | .drain _ => True

instance (race : FlushRace Thread Db) : DecidablePred race.InTime
  | .flush => inferInstanceAs (Decidable (∀ entry ∈ race.flush.pc.putting, _ ∨ _))
  | .task task => inferInstanceAs (Decidable (∀ blockId ∈ task.copying, _ → _ → _ → _ ∨ _))
  | .reader thread => inferInstanceAs (Decidable (∀ insertion ∈
    (race.readers thread).pc.caching, ∀ item ∈ race.mog.ram.cachedItem.lookup insertion.1, _ = _))
  | .drain _ => inferInstanceAs (Decidable True)

end FlushRace

end CudaDb
