import CudaDb.Model.WriteTraffic
import CudaDb.Lib.Threads
import CudaDb.Verif.SsdCounters
import CudaDb.Verif.BufferPacking

/-!
# When every write can proceed

With no task left, what is in the buffer is what waits for a block, and a block is packed as soon
as more waits than fits into one; so the buffer holds up to one full block, and the first loop of
`write` falls through exactly if a block is no larger than the limit of the buffer. The SSD cache
evicts whenever its number of blocks reaches its limit, so the second loop falls through exactly
if that limit is not 0, which it is if a block is larger than the SSD cache.
-/

namespace CudaDb

/-! ## The SSD cache -/

namespace SsdTier

variable {tier : SsdTier} {hdd : Directory} {blockId : Nat}

/-- `block_num` counts the queued blocks and stays below its limit, unless the limit is 0; only
fetches are scheduled. -/
structure Counted (maxBlockNum : Nat) (tier : SsdTier) : Prop where
  /-- The limit is the one that was set. -/
  limit : tier.cache.maxBlockNum = maxBlockNum
  /-- `block_num` is the number of queued blocks. -/
  counted : tier.cache.blockNum = tier.cache.cachedBlockId.length
  /-- There is room for another block. -/
  room : 0 < maxBlockNum → tier.cache.blockNum < maxBlockNum
  /-- Every scheduled task is a fetch. -/
  fetches : ∀ task ∈ tier.cache.threadPool, ∃ blockId,
    task = .fetchTest blockId ∨ task = .fetchCopy blockId ∨ task = .fetchSection blockId

/-- The eviction leaves room for another block. -/
theorem evict_counted {maxBlockNum : Nat} (limit : tier.cache.maxBlockNum = maxBlockNum)
    (counted : tier.cache.blockNum = tier.cache.cachedBlockId.length)
    (fetches : ∀ task ∈ tier.cache.threadPool, ∃ blockId,
      task = .fetchTest blockId ∨ task = .fetchCopy blockId ∨ task = .fetchSection blockId) :
    tier.evict.Counted maxBlockNum := by
  have evicted := evict_evicted tier
  have same := evicted.limit.trans limit
  have balance := evicted.counted
  have later : tier.evict.cache.blockNum = tier.evict.cache.cachedBlockId.length := by omega
  refine ⟨same, later, fun positive => ?_, ?_⟩
  · rcases evicted.room with room | empty
    · rw [same] at room
      exact room
    · rw [later, empty, List.length_nil]
      omega
  · rw [evicted.threadPool]
    exact fetches

/-- The section of a fetch leaves room for another block. -/
theorem fetchSection_counted {maxBlockNum : Nat} (before : tier.Counted maxBlockNum)
    (blockId : Nat) : ((tier.fetchSection blockId).getD tier).Counted maxBlockNum := by
  unfold fetchSection
  cases found : tier.ssd.lookup blockId with
  | none => exact before
  | some file =>
    have grown : tier.cache.blockNum + 1 =
        ((tier.cache.cachedBlockId ++ [blockId]).length : Int) := by
      rw [before.counted, List.length_append, List.length_singleton]
      omega
    have evicted : (evict { register blockId file.length tier with
        cache := { (register blockId file.length tier).cache with
          blockNum := tier.cache.blockNum + 1 } }).Counted maxBlockNum :=
      evict_counted before.limit grown before.fetches
    exact ⟨evicted.limit, evicted.counted, evicted.room, evicted.fetches⟩

/-- A fetch may leave the pool or go on as a fetch. -/
theorem Counted.goes_on {maxBlockNum : Nat} (after : tier.Counted maxBlockNum) (task : SsdTask)
    {next : Option SsdTask} (fetch : ∀ later ∈ next, ∃ blockId,
      later = .fetchTest blockId ∨ later = .fetchCopy blockId ∨ later = .fetchSection blockId) :
    SsdTier.Counted maxBlockNum { tier with cache := { tier.cache with
      threadPool := tier.cache.threadPool.erase task ++ next.toList } } := by
  refine ⟨after.limit, after.counted, after.room, fun other member => ?_⟩
  rcases List.mem_append.mp member with old | new
  · exact after.fetches other (List.mem_of_mem_erase old)
  · exact fetch other (Option.mem_toList.mp new)

/-- A step of a task keeps the count. -/
theorem runTask_counted {maxBlockNum : Nat} (before : tier.Counted maxBlockNum) {task : SsdTask}
    (inside : task ∈ tier.cache.threadPool) {next : Option SsdTask} {after : SsdTier}
    {later : Directory} (ran : tier.runTask hdd task = (next, after, later)) :
    SsdTier.Counted maxBlockNum { after with cache := { after.cache with
      threadPool := after.cache.threadPool.erase task ++ next.toList } } := by
  obtain ⟨blockId, rfl | rfl | rfl⟩ := before.fetches task inside
  · unfold runTask at ran
    dsimp only at ran
    split at ran
    · cases ran
      exact before.goes_on _ fun other same =>
        ⟨blockId, Or.inr (Or.inl (Option.some.inj same).symm)⟩
    · cases ran
      exact before.goes_on _ fun other same => by cases same
  · unfold runTask at ran
    dsimp only at ran
    split at ran
    · next ssd _ =>
      cases ran
      have copied : SsdTier.Counted maxBlockNum { tier with ssd } :=
        ⟨before.limit, before.counted, before.room, before.fetches⟩
      exact copied.goes_on _ fun other same =>
        ⟨blockId, Or.inr (Or.inr (Option.some.inj same).symm)⟩
    · cases ran
      exact before.goes_on _ fun other same => by cases same
  · cases ran
    exact (fetchSection_counted before blockId).goes_on _ fun other same => by cases same

/-- Counting a read schedules a fetch at most. -/
theorem noteRead_counted {maxBlockNum : Nat} (before : tier.Counted maxBlockNum) (blockId : Nat) :
    SsdTier.Counted maxBlockNum { tier with cache := tier.cache.noteRead blockId } := by
  obtain ⟨readRecord, readNum, same | ⟨fetched, -, same⟩⟩ :=
    SSDCache.noteRead_cases tier.cache blockId
  · rw [same]
    exact ⟨before.limit, before.counted, before.room, before.fetches⟩
  · rw [same]
    refine ⟨before.limit, before.counted, before.room, fun task member => ?_⟩
    rcases List.mem_append.mp member with old | new
    · exact before.fetches task old
    · exact ⟨fetched, Or.inl (List.mem_singleton.mp new)⟩

end SsdTier

/-! ## The write buffer -/

namespace WriteBuffer

variable {hash : String → UInt64} {buffer next : WriteBuffer} {pending : List Nat}

/-- With nothing pending, what is stored is what is waiting. -/
theorem Coherent.total_of_quiet (coherent : buffer.Coherent hash []) :
    buffer.totalSize = buffer.totalSizeWithoutBlock := by
  have blocks := coherent.no_blocks
  have queued := coherent.queued
  have none_packed : blockHashes hash buffer.blocks = 0 := by
    rw [blocks]
    rfl
  rw [none_packed, add_zero] at queued
  rw [coherent.total, coherent.waiting, Table.total_eq_sum_slot, ← queued, Multiset.map_coe,
    Multiset.sum_coe]

end WriteBuffer

/-! ## Runs -/

namespace WriteTraffic

variable {Thread : Type*} [DecidableEq Thread] {Db : Type*} {hash : String → UInt64}
  {leveldb : LevelDb Db} {config : MogConfig} {traffic next : WriteTraffic Thread Db}
  {event : Event Thread}

/-- A call of `write` that has returned or carries a short value. -/
def Writing (pc : WriteBuffer.Pc) : Prop :=
  (∃ status, pc = .returned status) ∨
    ∃ key value, pc.call = some (key, value) ∧ value.length ≤ slabSize 10

/-- What holds in every run. -/
structure Sized (hash : String → UInt64) (config : MogConfig) (traffic : WriteTraffic Thread Db) :
    Prop where
  /-- The buffer is coherent. -/
  buffer : traffic.storage.buffer.Coherent hash traffic.storage.buffer.flushThreadPool
  /-- The threads write. -/
  writers : ∀ thread, Writing (traffic.writers thread)
  /-- No more than a block is waiting. -/
  waiting : traffic.storage.buffer.totalSizeWithoutBlock ≤ traffic.storage.buffer.blockCapacity
  /-- The sizes are those of the configuration. -/
  sizes : ({ WriteBuffer.new with
      pageSize := config.pageSize
      pagePerBlock := config.pagePerBlock
      maxPageNum := 12 * config.bufferPageNum / 10 } : WriteBuffer).SameSizes traffic.storage.buffer
  /-- The SSD cache is counted. -/
  tier : traffic.tier.Counted (config.ssdPageNum / config.pagePerBlock)

/-- A call of `write` starts as one. -/
theorem writing_write (key : String) (value : List UInt8) :
    Writing (WriteBuffer.write key value) := by
  unfold WriteBuffer.write
  by_cases long : value.length > slabSize 10
  · rw [if_pos long]
    exact Or.inl ⟨-1, rfl⟩
  · rw [if_neg long]
    exact Or.inr ⟨key, value, rfl, Nat.le_of_not_lt long⟩

/-- What a step of a call of `write` keeps. -/
theorem step_writing {buffer stored : WriteBuffer} {pc after : WriteBuffer.Pc} {ssdFull : Bool}
    (coherent : buffer.Coherent hash buffer.flushThreadPool) (writing : Writing pc)
    (enough : slabSize 10 ≤ buffer.blockCapacity)
    (few : buffer.totalSizeWithoutBlock ≤ buffer.blockCapacity)
    (taken : buffer.step hash ssdFull pc = some (after, stored)) :
    Writing after ∧ stored.Coherent hash stored.flushThreadPool ∧
      buffer.SameSizes stored ∧ stored.totalSizeWithoutBlock ≤ stored.blockCapacity := by
  obtain ⟨status, rfl⟩ | ⟨key, value, call, short⟩ := writing
  · cases taken
  have goes_on : Writing after := by
    rcases WriteBuffer.step_write call taken with still | ⟨-, status, returned⟩
    · exact Or.inr ⟨key, value, still, short⟩
    · exact Or.inl ⟨status, returned⟩
  have short_call : pc.Short := fun own bytes same => by
    obtain ⟨-, rfl⟩ := Prod.mk.inj (Option.some.inj (call.symm.trans same))
    exact short
  have pending : buffer.pendingAt pc = buffer.flushThreadPool := by
    cases pc with
    | syncInner size => cases call
    | _ => rfl
  have later : stored.pendingAt after = stored.flushThreadPool := by
    obtain ⟨status, rfl⟩ | ⟨_, _, still, -⟩ := goes_on
    · rfl
    · cases after with
      | syncInner size => cases still
      | _ => rfl
  obtain ⟨sizes, less⟩ := WriteBuffer.step_waiting ⟨_, coherent, List.Subset.refl _⟩ short_call
    enough few taken
  rw [← pending] at coherent
  have kept := (WriteBuffer.step_kept coherent short_call taken).1.coherent
  rw [later] at kept
  refine ⟨goes_on, kept, sizes, ?_⟩
  unfold WriteBuffer.blockCapacity at less ⊢
  rw [sizes.pagePerBlock]
  exact less

/-- Every event keeps the sizes, if a block has at least one page. -/
theorem step_sized (page : 1 ≤ config.pagePerBlock) (sized : traffic.Sized hash config)
    (stepped : (machine hash leveldb).step traffic event = some next) :
    next.Sized hash config := by
  obtain ⟨buffer, writers, waiting, sizes, tier⟩ := sized
  cases event with
  | write thread key value =>
    simp only [machine] at stepped
    split at stepped
    · obtain rfl := Option.some.inj stepped
      exact ⟨buffer, Threads.forall_update Writing (writing_write key value) writers, waiting,
        sizes, tier⟩
    · cases stepped
  | step thread =>
    obtain ⟨⟨pc, stored⟩, taken, rfl⟩ := Option.map_eq_some_iff.mp stepped
    have enough : slabSize 10 ≤ traffic.storage.buffer.blockCapacity := by
      have pages := sizes.pagePerBlock
      dsimp only at pages
      unfold WriteBuffer.blockCapacity
      rw [pages]
      have size : slabSize 10 = 1024 * 1024 := rfl
      omega
    obtain ⟨goes_on, coherent, same, few⟩ :=
      step_writing buffer (writers thread) enough waiting taken
    exact ⟨coherent, Threads.forall_update Writing goes_on writers, few,
      ⟨same.pageSize.trans sizes.pageSize, same.pagePerBlock.trans sizes.pagePerBlock,
        same.maxPageNum.trans sizes.maxPageNum⟩, tier⟩
  | flush blockId =>
    obtain ⟨storage, ran, rfl⟩ := Option.map_eq_some_iff.mp stepped
    obtain ⟨-, rfl⟩ := Storage.runFlush_eq_some.mp ran
    have taken := buffer.withPool (traffic.storage.buffer.flushThreadPool.erase blockId)
    have flushed : (Storage.flush hash leveldb blockId { traffic.storage with
        buffer := { traffic.storage.buffer with
          flushThreadPool := traffic.storage.buffer.flushThreadPool.erase blockId } }).buffer.Coherent
        hash (traffic.storage.buffer.flushThreadPool.erase blockId) :=
      Storage.flush_buffer leveldb blockId taken
    exact ⟨flushed, writers, waiting, ⟨sizes.pageSize, sizes.pagePerBlock, sizes.maxPageNum⟩, tier⟩
  | read info =>
    obtain ⟨⟨noted, length, value⟩, served, rfl⟩ := Option.map_eq_some_iff.mp stepped
    obtain ⟨file, -, same⟩ := Option.map_eq_some_iff.mp served
    obtain ⟨rfl, -⟩ := Prod.mk.inj same
    exact ⟨buffer, writers, waiting, sizes, SsdTier.noteRead_counted tier info.blockId⟩
  | task task =>
    simp only [machine] at stepped
    split at stepped
    · next inside =>
      cases ran : traffic.tier.runTask traffic.storage.hdd task with
      | mk again rest =>
        obtain ⟨after, hdd⟩ := rest
        rw [ran] at stepped
        obtain rfl := Option.some.inj stepped
        exact ⟨buffer, writers, waiting, sizes, SsdTier.runTask_counted tier inside ran⟩
    · cases stepped

omit [DecidableEq Thread] in
/-- The stores start with the sizes of the configuration. -/
theorem start_sized (leveldb : LevelDb Db) (config : MogConfig) :
    (start leveldb config : WriteTraffic Thread Db).Sized hash config where
  buffer := WriteBuffer.initial_coherent rfl rfl rfl _ _ _
  writers _ := Or.inl ⟨0, rfl⟩
  waiting := Int.natCast_nonneg _
  sizes := ⟨rfl, rfl, rfl⟩
  tier := ⟨rfl, rfl, fun positive => Int.natCast_pos.mpr positive, fun _ member => by cases member⟩

omit [DecidableEq Thread] in
/-- With no task left both loops fall through, if a block fits into the buffer and into the SSD
cache. -/
theorem Sized.fallsThrough (sized : traffic.Sized hash config) (quiet : traffic.Quiet)
    (pages : config.pageSize = 1024 * 1024) (page : 1 ≤ config.pagePerBlock)
    (buffer_fits : config.pagePerBlock ≤ 12 * config.bufferPageNum / 10)
    (ssd_fits : config.pagePerBlock ≤ config.ssdPageNum) : traffic.FallsThrough := by
  obtain ⟨coherent, -, waiting, sizes, tier⟩ := sized
  have pool := quiet.1
  rw [pool] at coherent
  have total := coherent.total_of_quiet
  have capacity : traffic.storage.buffer.blockCapacity ≤
      traffic.storage.buffer.maxPageNum * traffic.storage.buffer.pageSize := by
    rw [WriteBuffer.blockCapacity, sizes.pageSize, sizes.pagePerBlock, sizes.maxPageNum]
    dsimp only
    rw [pages, Nat.mul_assoc]
    exact Nat.mul_le_mul_right _ buffer_fits
  constructor
  · rw [total]
    exact waiting.trans (by exact_mod_cast capacity)
  · rw [tier.limit]
    exact tier.room (Nat.div_pos ssd_fits page)

/-! ## Filling the buffer -/

/-- A value of 1 MiB. -/
def largest : List UInt8 := List.replicate (2 ^ 20) 0

/-- Its length is that of the largest slab. -/
theorem largest_length : largest.length = 2 ^ 20 := List.length_replicate

/-- It takes the largest slab type. -/
theorem slabType_largest : slabType largest.length = 10 := by
  have upper : slabType largest.length ≤ 10 := slabType_le_ten.mpr (by rw [largest_length]; decide)
  have lower : ¬ slabType largest.length ≤ 9 := by
    rw [slabType_le_iff, largest_length]
    decide
  omega

/-- It takes the largest slab. -/
theorem slabSize_largest : slabSize (slabType largest.length) = 2 ^ 20 := by
  rw [slabType_largest]
  decide

/-- A thread writes one largest value under the key. -/
def fillOne (thread : Thread) (key : String) : List (Event Thread) :=
  [.write thread key largest, .step thread, .step thread, .step thread]

/-- So many largest values are waiting under some of the hashes, and nothing else is. -/
structure Filled (config : MogConfig) (thread : Thread) (count : Nat) (hashes : List UInt64)
    (traffic : WriteTraffic Thread Db) : Prop where
  /-- What is stored. -/
  total : traffic.storage.buffer.totalSize = count * 2 ^ 20
  /-- What is waiting. -/
  waiting : traffic.storage.buffer.totalSizeWithoutBlock = count * 2 ^ 20
  /-- The hashes in use. -/
  store : ∀ hashed ∈ traffic.storage.buffer.kvStore, hashed ∈ hashes
  /-- The sizes are those of the configuration. -/
  sizes : ({ WriteBuffer.new with
      pageSize := config.pageSize
      pagePerBlock := config.pagePerBlock
      maxPageNum := 12 * config.bufferPageNum / 10 } : WriteBuffer).SameSizes traffic.storage.buffer
  /-- No task is left. -/
  quiet : traffic.Quiet
  /-- The SSD cache has room. -/
  room : traffic.tier.cache.blockNum < traffic.tier.cache.maxBlockNum
  /-- The thread can write. -/
  writer : ∃ status, traffic.writers thread = .returned status

omit [DecidableEq Thread] in
/-- The first loop falls through while the buffer is not above its limit. -/
theorem Filled.below_limit {thread : Thread} {count : Nat} {hashes : List UInt64}
    (filled : traffic.Filled config thread count hashes) (pages : config.pageSize = 1024 * 1024) :
    traffic.storage.buffer.totalSize ≤
        traffic.storage.buffer.maxPageNum * traffic.storage.buffer.pageSize ↔
      count ≤ 12 * config.bufferPageNum / 10 := by
  rw [filled.total, filled.sizes.maxPageNum, filled.sizes.pageSize]
  dsimp only
  rw [pages]
  generalize 12 * config.bufferPageNum / 10 = limit
  omega

omit [DecidableEq Thread] in
/-- Under the lock another largest value is stored, if the block is not full. -/
theorem Filled.locked {thread : Thread} {count : Nat} {hashes : List UInt64} {key : String}
    (filled : traffic.Filled config thread count hashes) (fits : count + 1 ≤ config.pagePerBlock)
    (fresh : hash key ∉ hashes) :
    traffic.storage.buffer.writeLocked hash key largest =
      some (0, traffic.storage.buffer.store hash key largest) := by
  have absent : hash key ∉ traffic.storage.buffer.kvStore := fun present =>
    fresh (filled.store _ present)
  have room : ¬ (traffic.storage.buffer.store hash key largest).totalSizeWithoutBlock >
      (traffic.storage.buffer.store hash key largest).blockCapacity := by
    change ¬ traffic.storage.buffer.totalSizeWithoutBlock + slabSize (slabType largest.length) >
      (traffic.storage.buffer.pagePerBlock * 1024 * 1024 : Nat)
    rw [filled.waiting, slabSize_largest, filled.sizes.pagePerBlock]
    dsimp only
    omega
  rw [WriteBuffer.writeLocked, if_neg absent]
  exact if_neg room

/-- Another largest value is accepted while the buffer is not above its limit and the block is not
full. -/
theorem fill_step {thread : Thread} {count : Nat} {hashes : List UInt64} {key : String}
    (filled : traffic.Filled config thread count hashes) (pages : config.pageSize = 1024 * 1024)
    (below : count ≤ 12 * config.bufferPageNum / 10) (fits : count + 1 ≤ config.pagePerBlock)
    (fresh : hash key ∉ hashes) :
    ∃ next, (machine hash leveldb).run traffic (fillOne thread key) = some next ∧
      next.Filled config thread (count + 1) (hash key :: hashes) := by
  have under : ¬ traffic.storage.buffer.totalSize >
      traffic.storage.buffer.maxPageNum * traffic.storage.buffer.pageSize :=
    not_lt.mpr ((filled.below_limit pages).mpr below)
  have free : ¬ (traffic.tier.cache.blockNum ≥ traffic.tier.cache.maxBlockNum) :=
    not_le.mpr filled.room
  have stored := filled.locked fits fresh
  have short : ¬ largest.length > slabSize 10 := by
    rw [largest_length]
    decide
  have called : WriteBuffer.write key largest = .waitTotal key largest := if_neg short
  obtain ⟨status, idle⟩ := filled.writer
  refine ⟨{ traffic with
    storage := { traffic.storage with buffer := traffic.storage.buffer.store hash key largest }
    writers := Function.update traffic.writers thread (.returned 0) }, ?_, ?_⟩
  · unfold fillOne
    simp only [Machine.run, machine, idle, called, WriteBuffer.step, Function.update_self,
      if_neg under, free, decide_false, Option.map_some, Option.bind_some, stored,
      Function.update_idem, Bool.false_eq_true, if_false]
  · refine ⟨?_, ?_, ?_, ?_, filled.quiet, filled.room, 0, Function.update_self ..⟩
    · change traffic.storage.buffer.totalSize + slabSize (slabType largest.length) = _
      rw [filled.total, slabSize_largest]
      omega
    · change traffic.storage.buffer.totalSizeWithoutBlock + slabSize (slabType largest.length) = _
      rw [filled.waiting, slabSize_largest]
      omega
    · intro hashed present
      rcases Finmap.mem_insert.mp present with rfl | old
      · exact List.mem_cons_self
      · exact List.mem_cons_of_mem _ (filled.store hashed old)
    · exact ⟨filled.sizes.pageSize, filled.sizes.pagePerBlock, filled.sizes.maxPageNum⟩

/-- Largest values under keys with distinct hashes are accepted until the buffer is above its
limit. -/
theorem fill_run {thread : Thread} (pages : config.pageSize = 1024 * 1024) (keys : List String)
    {count : Nat} {hashes : List UInt64} (filled : traffic.Filled config thread count hashes)
    (below : count + keys.length ≤ 12 * config.bufferPageNum / 10 + 1)
    (fits : count + keys.length ≤ config.pagePerBlock)
    (distinct : (keys.map hash ++ hashes).Nodup) :
    ∃ events next, (machine hash leveldb).run traffic events = some next ∧
      ∃ hashes, next.Filled config thread (count + keys.length) hashes := by
  induction keys generalizing traffic count hashes with
  | nil => exact ⟨[], traffic, rfl, hashes, filled⟩
  | cons key keys ih =>
    rw [List.length_cons] at below fits
    rw [List.map_cons, List.cons_append] at distinct
    have fresh : hash key ∉ hashes := fun used =>
      (List.nodup_cons.mp distinct).1 (List.mem_append_right _ used)
    have others : (keys.map hash ++ hash key :: hashes).Nodup :=
      (List.perm_middle.nodup_iff).mpr distinct
    have one : ∃ next, (machine hash leveldb).run traffic (fillOne thread key) = some next ∧
        next.Filled config thread (count + 1) (hash key :: hashes) :=
      fill_step filled pages (by omega) (by omega) fresh
    obtain ⟨middle, first, more⟩ := one
    obtain ⟨events, next, rest, last, full⟩ := ih more (by omega) (by omega) others
    refine ⟨fillOne thread key ++ events, next,
      Machine.run_append.mpr ⟨middle, first, rest⟩, last, ?_⟩
    rw [List.length_cons, show count + (keys.length + 1) = count + 1 + keys.length by omega]
    exact full

/-- In every state of a run in which no task is left, both loops of `write` fall through. -/
def Proceeds (Thread : Type*) [DecidableEq Thread] (hash : String → UInt64) (leveldb : LevelDb Db)
    (config : MogConfig) : Prop :=
  ∀ events (final : WriteTraffic Thread Db),
    (machine hash leveldb).run (start leveldb config) events = some final →
      final.Quiet → final.FallsThrough

/-- A block fits into the buffer and into the SSD cache. -/
def BlockFits (config : MogConfig) : Prop :=
  config.pagePerBlock ≤ 12 * config.bufferPageNum / 10 ∧ config.pagePerBlock ≤ config.ssdPageNum

/-- The hash takes more values than the buffer has pages. -/
def Spread (hash : String → UInt64) (config : MogConfig) : Prop :=
  ∃ keys : List String, keys.length = 12 * config.bufferPageNum / 10 + 1 ∧ (keys.map hash).Nodup

/-- If a block fits, every admitted write can proceed. -/
theorem proceeds_of_blockFits (pages : config.pageSize = 1024 * 1024)
    (page : 1 ≤ config.pagePerBlock) (fits : BlockFits config) :
    Proceeds Thread hash leveldb config := by
  intro events final ran quiet
  have sized := Machine.run_invariant _
    (fun _ _ _ holds stepped => step_sized page holds stepped) (start_sized leveldb config) ran
  exact sized.fallsThrough quiet pages page fits.1 fits.2

/-- If every admitted write can proceed, a block fits. -/
theorem blockFits_of_proceeds [Inhabited Thread] (pages : config.pageSize = 1024 * 1024)
    (spread : Spread hash config)
    (proceeds : Proceeds Thread hash leveldb config) : BlockFits config := by
  have room : 0 < config.ssdPageNum / config.pagePerBlock :=
    Int.natCast_pos.mp (proceeds [] _ rfl ⟨rfl, rfl⟩).2
  have ssd_fits : config.pagePerBlock ≤ config.ssdPageNum := (Nat.div_pos_iff.mp room).2
  refine ⟨?_, ssd_fits⟩
  by_contra larger
  obtain ⟨keys, count, distinct⟩ := spread
  have empty : (start leveldb config : WriteTraffic Thread Db).Filled config default 0 [] :=
    ⟨rfl, rfl, fun _ member => absurd member Finmap.notMem_empty, ⟨rfl, rfl, rfl⟩, ⟨rfl, rfl⟩,
      Int.natCast_pos.mpr room, 0, rfl⟩
  have run : ∃ events final, (machine hash leveldb).run (start leveldb config) events = some final ∧
      ∃ hashes, final.Filled config default (0 + keys.length) hashes :=
    fill_run pages keys empty (by omega) (by omega) (by rw [List.append_nil]; exact distinct)
  obtain ⟨events, final, ran, hashes, full⟩ := run
  have falls := (full.below_limit pages).mp (proceeds events final ran full.quiet).1
  omega

/-- For every configuration that `initial_para` accepts, every number of threads and a hash that
takes enough values: both loops of `write` fall through in every state of every run in which no
task is left, exactly if `Block_Size` is at most 1.2 times the buffer in MiB, rounded down, and at
most the SSD cache in MiB. -/
theorem proceeds_iff_blockFits [Inhabited Thread]
    {ramCacheSize ssdCacheSize hddCacheSize blockSize bufferSize : Nat} (page : 0 < blockSize)
    (spread : Spread hash
      (.initialPara ramCacheSize ssdCacheSize hddCacheSize blockSize bufferSize)) :
    Proceeds Thread hash leveldb
        (.initialPara ramCacheSize ssdCacheSize hddCacheSize blockSize bufferSize) ↔
      blockSize ≤ 12 * (bufferSize * 1024) / 10 ∧ blockSize ≤ ssdCacheSize * 1024 := by
  constructor
  · intro proceeds
    exact blockFits_of_proceeds rfl spread proceeds
  · intro fits
    exact proceeds_of_blockFits rfl page fits

/-- The hash of the length of a key takes every number of values up to the words. -/
theorem lengthHash_spread {count : Nat} (words : count ≤ 2 ^ 64) :
    ∃ keys : List String, keys.length = count ∧ (keys.map Storage.lengthHash).Nodup := by
  refine ⟨(List.range count).map fun length => String.ofList (List.replicate length 'a'), ?_, ?_⟩
  · rw [List.length_map, List.length_range]
  · rw [List.map_map]
    apply List.Nodup.map_on _ List.nodup_range
    intro first small second less same
    have lengths : first.toUInt64 = second.toUInt64 := by
      simpa [Storage.lengthHash] using same
    have words := congrArg UInt64.toNat lengths
    have bound := List.mem_range.mp small
    have bound' := List.mem_range.mp less
    simp only [Nat.toUInt64, UInt64.toNat_ofNat'] at words
    omega

/-- With the default sizes every admitted write can proceed. -/
theorem proceeds_default : Proceeds (Fin 10) Storage.lengthHash LevelDb.table
    (.initialPara 1 1 1 64 1) :=
  (proceeds_iff_blockFits (by decide) (lengthHash_spread (by decide))).mpr (by decide)

/-- With blocks larger than the SSD cache the second loop waits for ever from the start, and with
blocks larger than the buffer the first loop does after some writes. -/
theorem not_proceeds_large_block :
    ((start LevelDb.table (.initialPara 1 1 1 1025 1) : WriteTraffic (Fin 10) _).Quiet ∧
      ¬ (start LevelDb.table (.initialPara 1 1 1 1025 1) : WriteTraffic (Fin 10) _).FallsThrough) ∧
    ¬ Proceeds (Fin 10) Storage.lengthHash LevelDb.table (.initialPara 1 2 1 2000 1) := by
  refine ⟨⟨⟨rfl, rfl⟩, fun falls => ?_⟩, fun proceeds => ?_⟩
  · have room : (0 : Int) < ((1 * 1024 / 1025 : Nat) : Int) := falls.2
    exact absurd room (by decide)
  · have fits := blockFits_of_proceeds rfl (lengthHash_spread (by decide)) proceeds
    exact absurd fits.1 (by decide)

end WriteTraffic

end CudaDb
