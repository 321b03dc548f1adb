import CudaDb.Verif.MogInvariant

/-!
# What a read answers

A read goes from the write buffer to the RAM cache and from there to the index and the block
files; flushes and fetches run between its accesses. Let some values be right for each key. If
the RAM cache holds right values, and the disk holds them for every key that the buffer has no
bytes for, then a read delivers what is buffered, a right value, or nothing where there is
nothing.
-/

namespace CudaDb

/-- Who is reading which key, in the accesses of `mog::read`. -/
def MogPc.reading : MogPc → Option (Reader × String)
  | .readBuffer reader key | .findItem reader key | .copyItem reader key | .getIndex reader key
  | .readSsd reader key _ | .insertItem reader key _ => some (reader, key)
  | _ => none

namespace Mog

variable {Db : Type*} {hash : String → UInt64} {leveldb : LevelDb Db} {config : MogConfig}
  {files : String → Option (List UInt8)} {mog next : Mog Db} {caller after : Caller}
  {right : String → List UInt8 → Prop} {key : String}

/-- No bytes are buffered under the hash of the key. -/
def Missed (hash : String → UInt64) (mog : Mog Db) (key : String) : Prop :=
  ∀ info, mog.storage.buffer.kvStore.lookup (hash key) = some info → info.value = []

/-- What a read knows where it stands. -/
def Reading (hash : String → UInt64) (right : String → List UInt8 → Prop) (mog : Mog Db)
    (value : ByteMemory) : MogPc → Prop
  | .findItem _ key => mog.Missed hash key
  | .copyItem _ key => key ∈ mog.ram.cachedItem
  | .getIndex _ key => mog.Missed hash key ∧ key ∉ mog.ram.cachedItem
  | .readSsd _ key info => key ∉ mog.ram.cachedItem ∧ info.lengthType = slabType info.length ∧
      ∃ bytes, right key bytes ∧ Storage.slice mog.storage.hdd info = some bytes
  | .insertItem _ key info => key ∉ mog.ram.cachedItem ∧
      info.lengthType = slabType info.length ∧
      ∃ bytes, right key bytes ∧ bytes.length = info.length ∧ value.StartsWith bytes
  | _ => True

/-- The disk holds a right value for the key, if anything, when the buffer has no bytes for it. -/
def DiskHolds (hash : String → UInt64) (leveldb : LevelDb Db)
    (right : String → List UInt8 → Prop) (mog : Mog Db) (key : String) : Prop :=
  ∀ info, mog.Missed hash key → CentraIndex.getInfo leveldb mog.storage.db key = some info →
    ∃ bytes, right key bytes ∧ Storage.slice mog.storage.hdd info = some bytes

/-- The values that a read of the key may deliver. -/
inductive Answer (hash : String → UInt64) (leveldb : LevelDb Db)
    (right : String → List UInt8 → Prop) (mog : Mog Db) (key : String) : List UInt8 → Prop
  /-- A right value, from the RAM cache or from disk. -/
  | held (value : List UInt8) (own : right key value) : Answer hash leveldb right mog key value
  /-- The value buffered under the hash of the key. -/
  | buffered (info : KvInfo)
      (found : mog.storage.buffer.kvStore.lookup (hash key) = some info) :
      Answer hash leveldb right mog key info.value
  /-- Nothing, where neither the buffer nor the index has bytes for the key. -/
  | absent (missed : mog.Missed hash key)
      (unknown : CentraIndex.getInfo leveldb mog.storage.db key = none) :
      Answer hash leveldb right mog key []

/-- What an access of a read does. -/
structure ReadStep (hash : String → UInt64) (leveldb : LevelDb Db)
    (right : String → List UInt8 → Prop) (mog next : Mog Db) (after : Caller) (reader : Reader)
    (key : String) : Prop where
  /-- The buffer, the index and the HDD stay. -/
  storage : next.storage = mog.storage
  /-- The RAM cache goes on holding right values. -/
  ram : next.ram.Holds right
  /-- The read goes on, or it delivers an answer. -/
  outcome : (after.pc.reading = some (reader, key) ∧ Reading hash right next after.value after.pc) ∨
    ∃ value, Answer hash leveldb right mog key value ∧
      after.pc = afterRead reader key value.length ∧ after.value.StartsWith value

/-- A record denotes the same bytes in a directory with more files. -/
theorem slice_extends {hdd later : Directory} (grown : SsdTier.Extends hdd later)
    {info : IndexInfo} {bytes : List UInt8} (read : Storage.slice hdd info = some bytes) :
    Storage.slice later info = some bytes := by
  obtain ⟨file, found, inside⟩ := Option.bind_eq_some_iff.mp read
  exact Option.bind_eq_some_iff.mpr ⟨file, grown _ _ found, inside⟩

/-- `SSDCache::read` delivers the bytes that the record denotes on the HDD, wherever it reads
them. -/
theorem readSsd_delivers {tier later : SsdTier} {hdd : Directory} (coherent : tier.Coherent hdd)
    (synced : ∀ blockId, blockId ∉ tier.cache.unsyncedBlockId) {info : IndexInfo}
    {bytes : List UInt8} (slice : Storage.slice hdd info = some bytes) {value read : ByteMemory}
    {length : Nat} (served : tier.read info hdd value = some (later, length, read)) :
    read.StartsWith bytes := by
  obtain ⟨file, found, inside⟩ := Option.bind_eq_some_iff.mp slice
  obtain ⟨source, there, same⟩ := Option.map_eq_some_iff.mp served
  obtain ⟨-, written⟩ := Prod.mk.inj same
  obtain ⟨-, written⟩ := Prod.mk.inj written
  have fits : (file.drop info.offset).take info.length = bytes := by
    split at inside
    · exact Option.some.inj inside
    · cases inside
  have file_eq : source = file := by
    dsimp only at there
    obtain ⟨-, cached, unsynced⟩ := SSDCache.noteRead_maps tier.cache info.blockId
    split at there
    · next listed =>
      rw [cached, unsynced] at listed
      have queued := (coherent.queued info.blockId).mpr
        (listed.resolve_right (synced info.blockId))
      obtain ⟨both, here, copy⟩ := coherent.cached info.blockId queued
      rw [here] at there
      rw [copy] at found
      exact (Option.some.inj there).symm.trans (Option.some.inj found)
    · exact Option.some.inj (there.symm.trans found)
  rw [← written, file_eq, fits]
  exact ByteMemory.write_startsWith value bytes

/-- An access of a read delivers an answer or goes on knowing what it must. -/
theorem step_reading (opened : mog.Opened hash leveldb caller.pc) (ram : mog.ram.Holds right)
    (disk : mog.DiskHolds hash leveldb right key)
    (knows : Reading hash right mog caller.value caller.pc) {reader : Reader}
    (reads : caller.pc.reading = some (reader, key))
    (stepped : mog.step hash leveldb config files caller = some (next, after)) :
    ReadStep hash leveldb right mog next after reader key := by
  obtain ⟨pc, value⟩ := caller
  cases step_access stepped with
  | bufferHit _ _ info found =>
    obtain ⟨rfl, rfl⟩ := Prod.mk.inj (Option.some.inj reads)
    exact ⟨rfl, ram, Or.inr ⟨info.value, Answer.buffered info found, rfl,
      ByteMemory.write_startsWith value info.value⟩⟩
  | bufferMiss _ _ missed =>
    obtain ⟨rfl, rfl⟩ := Prod.mk.inj (Option.some.inj reads)
    exact ⟨rfl, ram, Or.inl ⟨rfl, missed⟩⟩
  | itemFound _ _ cached =>
    obtain ⟨rfl, rfl⟩ := Prod.mk.inj (Option.some.inj reads)
    exact ⟨rfl, ram, Or.inl ⟨rfl, cached⟩⟩
  | itemMissed _ _ uncached =>
    obtain ⟨rfl, rfl⟩ := Prod.mk.inj (Option.some.inj reads)
    exact ⟨rfl, ram, Or.inl ⟨rfl, knows, uncached⟩⟩
  | itemCopied _ _ item found =>
    obtain ⟨rfl, rfl⟩ := Prod.mk.inj (Option.some.inj reads)
    obtain ⟨bytes, own, length, starts⟩ := CpuCache.copyOut_holds ram found value
    refine ⟨rfl, ram, Or.inr ⟨bytes, Answer.held bytes own, ?_, starts⟩⟩
    rw [length]
  | indexMissed _ _ unknown =>
    obtain ⟨rfl, rfl⟩ := Prod.mk.inj (Option.some.inj reads)
    exact ⟨rfl, ram, Or.inr ⟨[], Answer.absent knows.1 unknown, rfl,
      ByteMemory.startsWith_nil value⟩⟩
  | indexFound _ _ info found =>
    obtain ⟨rfl, rfl⟩ := Prod.mk.inj (Option.some.inj reads)
    have typed := (opened.storage.indexed _ info found).2.2.1
    exact ⟨rfl, ram, Or.inl ⟨rfl, knows.2, typed, disk info knows.1 found⟩⟩
  | ssdRead _ _ info tier length read served =>
    obtain ⟨rfl, rfl⟩ := Prod.mk.inj (Option.some.inj reads)
    obtain ⟨uncached, typed, bytes, own, slice⟩ := knows
    have delivered := readSsd_delivers opened.tier opened.synced slice served
    exact ⟨rfl, ram, Or.inl ⟨rfl, uncached, typed, bytes, own, Storage.slice_length slice,
      delivered⟩⟩
  | itemInserted _ _ info cache inserted =>
    obtain ⟨rfl, rfl⟩ := Prod.mk.inj (Option.some.inj reads)
    obtain ⟨uncached, typed, bytes, own, length, starts⟩ := knows
    have fits : bytes.length ≤ 2 ^ info.lengthType * 1024 := by
      rw [typed, length]
      exact length_le_slab info.length
    refine ⟨rfl, CpuCache.insert_holds opened.ram ram uncached starts length fits own inserted,
      Or.inr ⟨bytes, Answer.held bytes own, ?_, starts⟩⟩
    rw [length]
  | _ => cases reads

/-- After the return of `mog::read` nothing more is known of the stores. -/
theorem reading_afterRead (reader : Reader) (length : Nat) (value : ByteMemory) :
    Reading hash right mog value (afterRead reader key length) := by
  unfold afterRead
  cases reader with
  | caller => trivial
  | file path => dsimp only; split <;> trivial

/-! ## The other accesses -/

/-- What an access outside a read does. -/
structure OtherStep (hash : String → UInt64) (right : String → List UInt8 → Prop)
    (mog next : Mog Db) (caller after : Caller) : Prop where
  /-- The RAM cache stays. -/
  ram : next.ram = mog.ram
  /-- The index stays. -/
  db : next.storage.db = mog.storage.db
  /-- The files on the HDD stay. -/
  hdd : next.storage.hdd = mog.storage.hdd
  /-- A read that starts knows nothing yet. -/
  reading : Reading hash right next after.value after.pc
  /-- The write buffer stays, or a call of it takes a step. -/
  buffer : next.storage.buffer = mog.storage.buffer ∨
    ∃ writer pc later ssdFull, caller.pc = .buffer writer pc ∧ after.pc = .buffer writer later ∧
      mog.storage.buffer.step hash ssdFull pc = some (later, next.storage.buffer)

/-- An access outside a read touches no store but the write buffer. -/
theorem step_other (right : String → List UInt8 → Prop) (no_read : caller.pc.reading = none)
    (stepped : mog.step hash leveldb config files caller = some (next, after)) :
    OtherStep hash right mog next caller after := by
  obtain ⟨pc, value⟩ := caller
  cases step_access stepped with
  | bufferHit | bufferMiss | itemFound | itemMissed | itemCopied | indexMissed | indexFound
  | ssdRead | itemInserted => cases no_read
  | bufferStep writer inner later buffer taken =>
    exact ⟨rfl, rfl, rfl, trivial, Or.inr ⟨writer, inner, later, _, rfl, rfl, taken⟩⟩
  | bufferReturned writer status =>
    refine ⟨rfl, rfl, rfl, ?_, Or.inl rfl⟩
    cases writer <;> trivial
  | _ => exact ⟨rfl, rfl, rfl, trivial, Or.inl rfl⟩

/-! ## Tasks during a read -/

/-- A flush only adds a file to the HDD of an open `mog`. -/
theorem runFlush_extends {pc : MogPc} {storage : Storage Db} {blockId : Nat}
    (opened : mog.Opened hash leveldb pc)
    (ran : mog.storage.runFlush hash leveldb blockId = some storage) :
    SsdTier.Extends mog.storage.hdd storage.hdd := by
  obtain ⟨scheduled, rfl⟩ := Storage.runFlush_eq_some.mp ran
  have member := Storage.mem_pendingAt scheduled pc.bufferPc
  have fresh : blockId ∉ mog.storage.hdd := fun old => (opened.flushed blockId old).2 member
  rw [Storage.flush_hdd]
  exact SsdTier.extends_insert fresh _

/-- A flush keeps what a read knows. -/
theorem runFlush_reading {pc : MogPc} {value : ByteMemory} {storage : Storage Db} {blockId : Nat}
    (opened : mog.Opened hash leveldb pc) (knows : Reading hash right mog value pc)
    (ran : mog.storage.runFlush hash leveldb blockId = some storage) :
    Reading hash right { mog with storage } value pc := by
  have missed (key : String) (before : mog.Missed hash key) :
      Missed hash { mog with storage } key :=
    fun info found => before info (Storage.runFlush_kvStore ran found)
  cases pc with
  | findItem reader key => exact missed key knows
  | getIndex reader key => exact ⟨missed key knows.1, knows.2⟩
  | readSsd reader key info =>
    obtain ⟨uncached, typed, bytes, own, slice⟩ := knows
    exact ⟨uncached, typed, bytes, own, slice_extends (runFlush_extends opened ran) slice⟩
  | _ => exact knows

/-- `ready` is nothing to a read. -/
theorem reading_withReady {pc : MogPc} {value : ByteMemory}
    (knows : Reading hash right mog value pc) (ready : Bool) :
    Reading hash right { mog with ready } value pc := by
  cases pc <;> exact knows

/-- A task of the SSD cache keeps what a read knows. -/
theorem fetch_reading {pc : MogPc} {value : ByteMemory} (knows : Reading hash right mog value pc)
    (tier : SsdTier) : Reading hash right { mog with tier } value pc := by
  cases pc <;> exact knows

end Mog

end CudaDb
