import CudaDb.Verif.MogAccess
import CudaDb.Verif.BufferFlush
import CudaDb.Verif.SsdInvariant
import CudaDb.Verif.RamSlabs

/-!
# The stores of an open and of a closed mog

While a `mog` is open its four stores are coherent, each in its own way and with one another: the
files on the HDD are of flushed blocks, and the SSD mirrors some of them. After `close` they are
empty, which is all that `open` relies on. Every step, task and reset keeps this.
-/

namespace CudaDb

/-- The call of the write buffer that a call is in. -/
def MogPc.bufferPc : MogPc → WriteBuffer.Pc
  | .buffer _ pc => pc
  | _ => .returned 0

/-- The accesses of `read_file` that touch no store. -/
def MogPc.outside : MogPc → Bool
  | .idle | .testReady _ | .readDirect _ | .done _ _ => true
  | _ => false

namespace Mog

variable {Db : Type*} {hash : String → UInt64} {leveldb : LevelDb Db} {config : MogConfig}
  {files : String → Option (List UInt8)} {mog next : Mog Db} {caller after : Caller} {pc : MogPc}

/-- The blocks that are to be flushed or are being filled. -/
def pendingAt (mog : Mog Db) (pc : MogPc) : List Nat := mog.storage.buffer.pendingAt pc.bufferPc

/-- The invariant of an open `mog` whose caller stands at `pc`. -/
structure Opened (hash : String → UInt64) (leveldb : LevelDb Db) (mog : Mog Db) (pc : MogPc) :
    Prop where
  /-- The write buffer, the index and the block files are coherent. -/
  storage : mog.storage.Coherent hash leveldb (mog.pendingAt pc)
  /-- The value of a call in the write buffer is short. -/
  short : pc.bufferPc.Short
  /-- The files on the HDD are of flushed blocks. -/
  flushed : ∀ blockId ∈ mog.storage.hdd, mog.storage.buffer.Settled (mog.pendingAt pc) blockId
  /-- The slabs of the RAM cache are partitioned. -/
  ram : mog.ram.Partition
  /-- The SSD mirrors files of the HDD. -/
  tier : mog.tier.Coherent mog.storage.hdd
  /-- No block was announced to the SSD cache. -/
  synced : ∀ blockId, blockId ∉ mog.tier.cache.unsyncedBlockId

/-- A closed `mog`, or one that was never opened. -/
structure Cleared (mog : Mog Db) : Prop where
  /-- `ready` is clear. -/
  ready : mog.ready = false
  /-- No entry is buffered. -/
  kvStore : mog.storage.buffer.kvStore = ∅
  /-- No entry is packed. -/
  blocks : mog.storage.buffer.blocks = ∅
  /-- No entry is queued. -/
  kvList : mog.storage.buffer.kvList = []
  /-- No flush is scheduled. -/
  flushThreadPool : mog.storage.buffer.flushThreadPool = []
  /-- No value is cached. -/
  cachedItem : mog.ram.cachedItem = ∅
  /-- No slab is free. -/
  free : mog.ram.pool.free = []
  /-- No block is announced. -/
  unsyncedBlockId : mog.tier.cache.unsyncedBlockId = ∅
  /-- No block is cached. -/
  cachedBlock : mog.tier.cache.cachedBlock = ∅
  /-- No block is queued. -/
  cachedBlockId : mog.tier.cache.cachedBlockId = []
  /-- No task is scheduled. -/
  threadPool : mog.tier.cache.threadPool = []

/-- A new `mog` is cleared. -/
theorem new_cleared (leveldb : LevelDb Db) : (new leveldb).Cleared := by
  constructor <;> rfl

/-- Opening a cleared `mog`. -/
theorem openDb_opened (cleared : mog.Cleared) (leveldb : LevelDb Db) (config : MogConfig)
    (at_rest : pc.outside = true) : (mog.openDb leveldb config).Opened hash leveldb pc := by
  have idle : pc.bufferPc = .returned 0 := by
    cases pc <;> first | rfl | cases at_rest
  have nothing : (mog.openDb leveldb config).pendingAt pc = [] := by
    rw [pendingAt, idle]
    rfl
  refine ⟨?_, by rw [idle]; exact nofun, fun _ member => absurd member Finmap.notMem_empty, ?_, ?_,
    ?_⟩
  · rw [nothing]
    exact Storage.opened_coherent cleared.kvStore cleared.blocks cleared.kvList leveldb _ _ _ ∅
  · exact CpuCache.allocateMemory_partition cleared.cachedItem cleared.free _ _
  · have queue : (mog.openDb leveldb config).tier.cache.cachedBlockId = [] := cleared.cachedBlockId
    have cached : (mog.openDb leveldb config).tier.cache.cachedBlock = ∅ := cleared.cachedBlock
    have unsynced : (mog.openDb leveldb config).tier.cache.unsyncedBlockId = ∅ :=
      cleared.unsyncedBlockId
    refine ⟨by rw [queue]; exact List.nodup_nil, fun blockId => ?_, fun blockId member => ?_,
      fun blockId member => ?_⟩
    · rw [queue, cached]
      exact iff_of_false List.not_mem_nil Finmap.notMem_empty
    · rw [queue] at member
      exact absurd member List.not_mem_nil
    · rw [unsynced] at member
      exact absurd member Finmap.notMem_empty
  · intro blockId member
    have unsynced : (mog.openDb leveldb config).tier.cache.unsyncedBlockId = ∅ :=
      cleared.unsyncedBlockId
    rw [unsynced] at member
    exact Finmap.notMem_empty member

/-- Flushing blocks of an empty buffer leaves it empty. -/
theorem flush_empty (hash : String → UInt64) (leveldb : LevelDb Db) (blockIds : List Nat)
    (storage : Storage Db)
    (kvStore : storage.buffer.kvStore = ∅) (blocks : storage.buffer.blocks = ∅)
    (kvList : storage.buffer.kvList = []) :
    let flushed :=
      blockIds.foldl (fun storage blockId => storage.flush hash leveldb blockId) storage
    flushed.buffer.kvStore = ∅ ∧ flushed.buffer.blocks = ∅ ∧ flushed.buffer.kvList = [] := by
  induction blockIds generalizing storage with
  | nil => exact ⟨kvStore, blocks, kvList⟩
  | cons blockId blockIds ih =>
    have none_stored : storage.entriesOf blockId = [] := by
      rw [Storage.entriesOf, blocks]
      rfl
    refine ih _ ?_ ?_ kvList
    · rw [Storage.flush_kvStore, none_stored]
      exact kvStore
    · change storage.buffer.blocks.erase blockId = ∅
      rw [blocks]
      exact Table.erase_of_notMem Finmap.notMem_empty

/-- Closing a `mog` clears it, whatever its state. -/
theorem closeDb_cleared (hash : String → UInt64) (leveldb : LevelDb Db) (mog : Mog Db) :
    (mog.closeDb hash leveldb).Cleared := by
  have emptied := flush_empty hash leveldb mog.storage.buffer.flushThreadPool
    { mog.storage with buffer := { mog.storage.buffer with
      kvStore := ∅
      blocks := ∅
      kvList := [] } } rfl rfl rfl
  exact ⟨rfl, emptied.1, emptied.2.1, emptied.2.2, rfl, rfl, rfl, rfl, rfl, rfl, rfl⟩

/-- `ready` is not part of what holds of an open `mog`. -/
theorem Opened.withReady (opened : mog.Opened hash leveldb pc) (ready : Bool) :
    ({ mog with ready } : Mog Db).Opened hash leveldb pc :=
  ⟨opened.storage, opened.short, opened.flushed, opened.ram, opened.tier, opened.synced⟩

/-- In a closed session `ready` can only be cleared. -/
theorem Cleared.withReady {session : Session Db} (cleared : session.mog.Cleared)
    (closed : session.opened = false) {ready : Bool}
    (allowed : ready = false ∨ session.opened = true) :
    ({ session.mog with ready } : Mog Db).Cleared := by
  have off : ready = false := allowed.resolve_right fun opened => by
    rw [closed] at opened
    cases opened
  exact { cleared with ready := off }

/-! ## Tasks -/

/-- A flush thread keeps an open `mog`. -/
theorem runFlush_opened {storage : Storage Db} {blockId : Nat} (opened : mog.Opened hash leveldb pc)
    (ran : mog.storage.runFlush hash leveldb blockId = some storage) :
    ({ mog with storage } : Mog Db).Opened hash leveldb pc := by
  obtain ⟨coherent, settled, -⟩ := Storage.runFlush_kept opened.storage ran
  obtain ⟨scheduled, same⟩ := Storage.runFlush_eq_some.mp ran
  have member := Storage.mem_pendingAt scheduled pc.bufferPc
  have fresh : blockId ∉ mog.storage.hdd := fun old => (opened.flushed blockId old).2 member
  have hdd : storage.hdd =
      mog.storage.hdd.insert blockId ((mog.storage.entriesOf blockId).flatMap KvInfo.value) := by
    rw [same, Storage.flush_hdd]
  refine ⟨coherent, opened.short, fun other inside => ?_, opened.ram, ?_, opened.synced⟩
  · change other ∈ storage.hdd at inside
    rw [hdd, Finmap.mem_insert] at inside
    rcases inside with rfl | old
    · have taken := opened.storage.withPool (mog.storage.buffer.flushThreadPool.erase other)
      have now := (Storage.flush_settled leveldb taken.buffer member other).mpr (Or.inr rfl)
      rw [pendingAt, ← Storage.pendingAt_erase scheduled] at now
      rw [pendingAt]
      subst same
      exact now
    · exact settled other (opened.flushed other old)
  · change mog.tier.Coherent storage.hdd
    rw [hdd]
    exact opened.tier.extends (SsdTier.Extends.refl _) (SsdTier.extends_insert fresh _)

/-- A fetch with nothing between its steps leaves the tier alone or registers the copy of a file of
the HDD. -/
theorem fetch_cases {tier : SsdTier} {hdd : Directory} (coherent : tier.Coherent hdd)
    (synced : ∀ blockId, blockId ∉ tier.cache.unsyncedBlockId) (blockId : Nat) :
    fetch blockId tier hdd = tier ∨
      ∃ file evicted, blockId ∉ tier.ssd ∧ hdd.lookup blockId = some file ∧
        SsdTier.Registered hdd blockId { tier with ssd := tier.ssd.insert blockId file } evicted ∧
        fetch blockId tier hdd = { evicted with cache := { evicted.cache with
          cachingBlock := evicted.cache.cachingBlock.erase blockId } } := by
  unfold fetch
  split
  · cases copy : copyFile hdd tier.ssd blockId with
    | none => exact Or.inl rfl
    | some ssd =>
      obtain ⟨absent, file, found, rfl⟩ := SsdTier.copyFile_eq_some.mp copy
      have here : (tier.ssd.insert blockId file).lookup blockId = some file :=
        Finmap.lookup_insert _
      have grown := coherent.extends (SsdTier.extends_insert absent file) (SsdTier.Extends.refl hdd)
      have unqueued : blockId ∉ tier.cache.cachedBlockId := by
        intro queued
        obtain ⟨old, there, -⟩ := coherent.cached blockId queued
        exact absent (Finmap.mem_iff.mpr ⟨old, there⟩)
      have registered := SsdTier.register_evict grown unqueued (synced blockId)
        ⟨file, here, found⟩ file.length (tier.cache.blockNum + 1)
      refine Or.inr ⟨file, _, absent, found, registered, ?_⟩
      dsimp only
      rw [SsdTier.fetchSection, here, Option.map_some, Option.getD_some]
      rfl
  · exact Or.inl rfl

/-- A fetch with nothing between its steps keeps the tier coherent. -/
theorem fetch_coherent {tier : SsdTier} {hdd : Directory} (coherent : tier.Coherent hdd)
    (synced : ∀ blockId, blockId ∉ tier.cache.unsyncedBlockId) (blockId : Nat) :
    (fetch blockId tier hdd).Coherent hdd ∧
      (fetch blockId tier hdd).cache.unsyncedBlockId = tier.cache.unsyncedBlockId := by
  rcases fetch_cases coherent synced blockId with
    same | ⟨file, evicted, -, -, registered, fetched⟩
  · rw [same]
    exact ⟨coherent, rfl⟩
  · rw [fetched]
    exact ⟨⟨registered.coherent.nodup, registered.coherent.queued, registered.coherent.cached,
      registered.coherent.unsynced⟩, registered.unsynced⟩

/-- A scheduled fetch keeps an open `mog`. -/
theorem fetch_opened (opened : mog.Opened hash leveldb pc) (blockId : Nat) (pool : List SsdTask) :
    ({ mog with tier := { fetch blockId mog.tier mog.storage.hdd with
      cache := { (fetch blockId mog.tier mog.storage.hdd).cache with threadPool := pool } } } :
        Mog Db).Opened hash leveldb pc := by
  obtain ⟨coherent, same⟩ := fetch_coherent opened.tier opened.synced blockId
  refine ⟨opened.storage, opened.short, opened.flushed, opened.ram,
    ⟨coherent.nodup, coherent.queued, coherent.cached, coherent.unsynced⟩, fun other member => ?_⟩
  have listed : other ∈ (fetch blockId mog.tier mog.storage.hdd).cache.unsyncedBlockId := member
  rw [same] at listed
  exact opened.synced other listed

/-! ## Accesses -/

/-- An open `mog` stays so when its caller moves without touching what is pending. -/
theorem Opened.move (opened : mog.Opened hash leveldb pc) {target : MogPc}
    (pending : mog.pendingAt target = mog.pendingAt pc) (short : target.bufferPc.Short) :
    mog.Opened hash leveldb target := by
  obtain ⟨storage, -, flushed, ram, tier, synced⟩ := opened
  rw [← pending] at storage flushed
  exact ⟨storage, short, flushed, ram, tier, synced⟩

/-- A call that has returned from `mog::read` is in no call of the write buffer. -/
@[simp] theorem bufferPc_afterRead (reader : Reader) (key : String) (length : Nat) :
    (afterRead reader key length).bufferPc = .returned 0 := by
  unfold afterRead
  cases reader with
  | caller => rfl
  | file path => dsimp only; split <;> rfl

/-- A call that has returned from the write buffer is in no call of it. -/
@[simp] theorem bufferPc_afterWrite (writer : Writer) (status : Int) :
    (afterWrite writer status).bufferPc = .returned 0 := by
  cases writer <;> rfl

/-- Between two calls of the write buffer only the pool is pending. -/
theorem Opened.moveIdle (opened : mog.Opened hash leveldb pc) {target : MogPc} {status : Int}
    (before : pc.bufferPc = .returned status) (idle : target.bufferPc = .returned 0) :
    mog.Opened hash leveldb target := by
  refine opened.move ?_ (by rw [idle]; exact nofun)
  rw [pendingAt, pendingAt, before, idle]
  rfl

/-- A call starts in an open `mog`. -/
theorem begin_opened (call : MogCall) (opened : mog.Opened hash leveldb pc)
    (rest : pc.atRest = true) : mog.Opened hash leveldb (begin call) := by
  have idle : pc.bufferPc = .returned 0 := by
    cases pc <;> first | rfl | cases rest
  have pending : mog.pendingAt pc = mog.storage.buffer.flushThreadPool := by
    rw [pendingAt, idle]
    rfl
  cases call with
  | read key | readFile path => exact opened.moveIdle idle rfl
  | sync =>
    refine opened.move (by rw [pending]; rfl) ?_
    intro key value call
    cases call
  | write key value =>
    refine opened.move ?_ fun _ _ call => (WriteBuffer.write_call call).2.2
    rw [pending]
    exact WriteBuffer.pendingAt_write _ key value

/-- Counting a read keeps the tier coherent. -/
theorem noteRead_coherent {tier : SsdTier} {hdd : Directory} (coherent : tier.Coherent hdd)
    (blockId : Nat) : SsdTier.Coherent { tier with cache := tier.cache.noteRead blockId } hdd := by
  obtain ⟨queue, cached, unsynced⟩ := SSDCache.noteRead_maps tier.cache blockId
  refine ⟨?_, ?_, ?_, ?_⟩
  · rw [queue]
    exact coherent.nodup
  · rw [queue, cached]
    exact coherent.queued
  · rw [queue]
    exact coherent.cached
  · rw [queue, unsynced]
    exact coherent.unsynced

/-- Every access of a call keeps an open `mog`. -/
theorem step_opened (opened : mog.Opened hash leveldb caller.pc)
    (stepped : mog.step hash leveldb config files caller = some (next, after)) :
    next.Opened hash leveldb after.pc := by
  obtain ⟨pc, value⟩ := caller
  cases step_access stepped with
  | ready | unready | directNothing | directFile | bufferMiss | itemFound | itemMissed | indexFound
  | fileNothing | fileRead | uncached | synced => exact opened.moveIdle rfl rfl
  | bufferHit | itemCopied | indexMissed =>
    exact opened.moveIdle rfl (bufferPc_afterRead _ _ _)
  | ssdRead reader key info tier length read served =>
    obtain ⟨file, -, noted⟩ := Option.map_eq_some_iff.mp served
    obtain ⟨rfl, -⟩ := Prod.mk.inj noted
    have moved : mog.Opened hash leveldb (.insertItem reader key info) := opened.moveIdle rfl rfl
    refine ⟨moved.storage, moved.short, moved.flushed, moved.ram,
      noteRead_coherent moved.tier info.blockId, fun blockId member => ?_⟩
    have listed : blockId ∈ (mog.tier.cache.noteRead info.blockId).unsyncedBlockId := member
    rw [(SSDCache.noteRead_maps _ _).2.2] at listed
    exact opened.synced blockId listed
  | itemInserted reader key info ram inserted =>
    have moved : mog.Opened hash leveldb (afterRead reader key info.length) :=
      opened.moveIdle rfl (bufferPc_afterRead reader key _)
    exact ⟨moved.storage, moved.short, moved.flushed, CpuCache.insert_partition moved.ram inserted,
      moved.tier, moved.synced⟩
  | admitted path key buffer =>
    refine opened.move ?_ fun _ _ call => (WriteBuffer.write_call call).2.2
    rw [pendingAt, pendingAt]
    exact WriteBuffer.pendingAt_write _ key buffer
  | bufferStep writer inner later buffer taken =>
    obtain ⟨kept, -⟩ := WriteBuffer.step_kept opened.storage.buffer opened.short taken
    refine ⟨⟨kept.coherent, fun key info found => ?_⟩,
      fun key value call => opened.short key value (WriteBuffer.step_call taken call),
      fun blockId inside => kept.settled blockId (opened.flushed blockId inside),
      opened.ram, opened.tier, opened.synced⟩
    obtain ⟨settled, rest⟩ := opened.storage.indexed key info found
    exact ⟨kept.settled _ settled, rest⟩
  | bufferReturned writer status => exact opened.moveIdle rfl (bufferPc_afterWrite writer status)
  | charged path buffer =>
    have moved : mog.Opened hash leveldb (.done (.readFile path) buffer.length) :=
      opened.moveIdle rfl rfl
    exact ⟨moved.storage, moved.short, moved.flushed, moved.ram, moved.tier, moved.synced⟩

end Mog

end CudaDb
