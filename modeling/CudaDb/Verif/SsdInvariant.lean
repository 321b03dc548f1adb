import CudaDb.Model.SSDCache

/-!
# The bookkeeping of the SSD

The maps of `SSDCache`, its queue and the two directories agree: what is cached is queued once and
mirrored on both disks, and what is announced and not yet flushed has its file on the SSD and is
not queued. Registering a mirrored block keeps this, whatever the eviction after it removes.
-/

namespace CudaDb

namespace SSDCache

/-- Counting a read changes the record of the reads, and may schedule the fetch of a block that
was not marked as being cached. -/
theorem noteRead_cases (cache : SSDCache) (blockId : Nat) :
    ∃ readRecord readNum, cache.noteRead blockId = { cache with readRecord, readNum } ∨
      ∃ fetched, fetched ∉ cache.cachingBlock ∧ cache.noteRead blockId = { cache with
        readRecord
        readNum
        cachingBlock := cache.cachingBlock.insert fetched 1
        threadPool := cache.threadPool ++ [.fetchTest fetched] } := by
  unfold noteRead
  dsimp only
  split
  · split
    · next chosen => exact ⟨_, _, Or.inr ⟨_, chosen.2.2, rfl⟩⟩
    · exact ⟨_, _, Or.inl rfl⟩
  · exact ⟨_, _, Or.inl rfl⟩

/-- Counting a read changes neither the queue nor the blocks that are cached or unsynced. -/
theorem noteRead_maps (cache : SSDCache) (blockId : Nat) :
    (cache.noteRead blockId).cachedBlockId = cache.cachedBlockId ∧
    (cache.noteRead blockId).cachedBlock = cache.cachedBlock ∧
    (cache.noteRead blockId).unsyncedBlockId = cache.unsyncedBlockId := by
  obtain ⟨_, _, same | ⟨_, _, same⟩⟩ := noteRead_cases cache blockId
  all_goals rw [same]; exact ⟨rfl, rfl, rfl⟩

end SSDCache

namespace SsdTier

variable {tier : SsdTier} {hdd : Directory} {blockId : Nat}

/-- The block has the same file in both directories. -/
def Mirrored (ssd hdd : Directory) (blockId : Nat) : Prop :=
  ∃ file, ssd.lookup blockId = some file ∧ hdd.lookup blockId = some file

/-- The bookkeeping invariant. -/
structure Coherent (tier : SsdTier) (hdd : Directory) : Prop where
  /-- No block is queued twice. -/
  nodup : tier.cache.cachedBlockId.Nodup
  /-- The queued blocks are the cached ones. -/
  queued : ∀ blockId, blockId ∈ tier.cache.cachedBlockId ↔ blockId ∈ tier.cache.cachedBlock
  /-- A queued block is mirrored. -/
  cached : ∀ blockId ∈ tier.cache.cachedBlockId, Mirrored tier.ssd hdd blockId
  /-- An unsynced block is on the SSD and not queued. -/
  unsynced : ∀ blockId ∈ tier.cache.unsyncedBlockId,
    blockId ∈ tier.ssd ∧ blockId ∉ tier.cache.cachedBlockId

/-- A new cache is coherent. -/
theorem new_coherent (maxBlockNum : Nat) (hdd : Directory) :
    Coherent { cache := SSDCache.new maxBlockNum, ssd := ∅ } hdd where
  nodup := List.nodup_nil
  queued := fun _ => iff_of_false List.not_mem_nil Finmap.notMem_empty
  cached := fun _ member => absurd member List.not_mem_nil
  unsynced := fun _ member => absurd member Finmap.notMem_empty

/-- Every file of the first directory is in the second. -/
def Extends (before after : Directory) : Prop :=
  ∀ blockId file, before.lookup blockId = some file → after.lookup blockId = some file

/-- A directory extends itself. -/
theorem Extends.refl (directory : Directory) : Extends directory directory := fun _ _ => id

/-- A new file extends a directory. -/
theorem extends_insert {directory : Directory} (absent : blockId ∉ directory) (file : List UInt8) :
    Extends directory (directory.insert blockId file) := by
  intro other found lookup
  have apart : other ≠ blockId := by
    intro same
    rw [same, Finmap.lookup_eq_none.mpr absent] at lookup
    cases lookup
  rw [Table.lookup_insert_if, if_neg apart]
  exact lookup

/-- A block that is in a directory is in every extension. -/
theorem Extends.mem {before after : Directory} (grown : Extends before after)
    (inside : blockId ∈ before) : blockId ∈ after := by
  obtain ⟨file, found⟩ := Finmap.mem_iff.mp inside
  exact Finmap.mem_iff.mpr ⟨file, grown blockId file found⟩

/-- A directory still extends another one with a copy of one of its files. -/
theorem Extends.copied {before after : Directory} (grown : Extends before after)
    {file : List UInt8} (source : after.lookup blockId = some file) :
    Extends (before.insert blockId file) after := by
  intro other copy found
  rw [Table.lookup_insert_if] at found
  by_cases same : other = blockId
  · rw [if_pos same] at found
    obtain rfl := Option.some.inj found
    rw [same]
    exact source
  · rw [if_neg same] at found
    exact grown other copy found

/-- A mirrored block stays so in larger directories. -/
theorem Mirrored.extends {ssd ssd' hdd' : Directory} (mirrored : Mirrored ssd hdd blockId)
    (left : Extends ssd ssd') (right : Extends hdd hdd') : Mirrored ssd' hdd' blockId := by
  obtain ⟨file, here, there⟩ := mirrored
  exact ⟨file, left _ _ here, right _ _ there⟩

/-- What a successful copy does. -/
theorem copyFile_eq_some {source destination copied : Directory} :
    copyFile source destination blockId = some copied ↔
      blockId ∉ destination ∧ ∃ file, source.lookup blockId = some file ∧
        copied = destination.insert blockId file := by
  unfold copyFile
  split
  · next present => simp [present]
  · next absent => simp [absent, eq_comm]

/-- The tier stays coherent when files are added. -/
theorem Coherent.extends {ssd hdd' : Directory} (coherent : tier.Coherent hdd)
    (left : Extends tier.ssd ssd) (right : Extends hdd hdd') :
    Coherent { tier with ssd } hdd' where
  nodup := coherent.nodup
  queued := coherent.queued
  cached := fun blockId member => (coherent.cached blockId member).extends left right
  unsynced := fun blockId member =>
    ⟨left.mem (coherent.unsynced blockId member).1, (coherent.unsynced blockId member).2⟩

/-! ## Eviction -/

/-- The tier after the blocks `removed` have been evicted. -/
def drop (tier : SsdTier) (removed kept : List Nat) (blockNum : Int) : SsdTier where
  cache := { tier.cache with
    cachedBlock := tier.cache.cachedBlock.eraseAll removed
    cachedBlockId := kept
    blockNum }
  ssd := tier.ssd.eraseAll removed

/-- Evicting nothing changes nothing. -/
theorem drop_nothing (tier : SsdTier) :
    tier.drop [] tier.cache.cachedBlockId tier.cache.blockNum = tier := rfl

/-- The eviction loop removes a prefix of the queue. -/
theorem evictLoop_eq_drop {queue : List Nat} (start : tier.cache.cachedBlockId = queue) :
    ∃ removed kept blockNum, queue = removed ++ kept ∧
      evictLoop queue tier = tier.drop removed kept blockNum := by
  induction queue generalizing tier with
  | nil =>
    have nothing := tier.drop_nothing
    rw [start] at nothing
    exact ⟨[], [], tier.cache.blockNum, rfl, nothing.symm⟩
  | cons deleted rest ih =>
    rw [evictLoop]
    by_cases low : 10 * tier.cache.blockNum < 7 * tier.cache.maxBlockNum
    · refine ⟨[], deleted :: rest, tier.cache.blockNum, rfl, ?_⟩
      rw [if_pos low, ← start, drop_nothing]
    · rw [if_neg low]
      obtain ⟨removed, kept, blockNum, split, evicted⟩ := @ih {
        cache := { tier.cache with
          cachedBlock := tier.cache.cachedBlock.erase deleted
          cachedBlockId := rest
          blockNum := tier.cache.blockNum - 1 }
        ssd := tier.ssd.erase deleted } rfl
      exact ⟨deleted :: removed, kept, blockNum, by rw [split, List.cons_append], evicted⟩

/-- The eviction removes a prefix of the queue, which may be empty. -/
theorem evict_eq_drop (tier : SsdTier) : ∃ removed kept blockNum,
    tier.cache.cachedBlockId = removed ++ kept ∧ tier.evict = tier.drop removed kept blockNum := by
  unfold evict
  split
  · exact evictLoop_eq_drop rfl
  · exact ⟨[], tier.cache.cachedBlockId, tier.cache.blockNum, rfl, rfl⟩

/-- Evicting a prefix of the queue keeps the tier coherent. -/
theorem drop_coherent (coherent : tier.Coherent hdd) {removed kept : List Nat}
    (split : tier.cache.cachedBlockId = removed ++ kept) (blockNum : Int) :
    (tier.drop removed kept blockNum).Coherent hdd := by
  have nodup := coherent.nodup
  rw [split, List.nodup_append] at nodup
  obtain ⟨-, distinct, apart⟩ := nodup
  have kept_apart : ∀ blockId ∈ kept, blockId ∉ removed :=
    fun blockId member gone => apart blockId gone blockId member rfl
  refine ⟨distinct, fun blockId => ?_, fun blockId member => ?_, fun blockId member => ?_⟩
  · change blockId ∈ kept ↔ blockId ∈ tier.cache.cachedBlock.eraseAll removed
    rw [Finmap.mem_iff, Table.lookup_eraseAll]
    have before := coherent.queued blockId
    rw [split, List.mem_append, Finmap.mem_iff] at before
    by_cases gone : blockId ∈ removed
    · rw [if_pos gone]
      refine iff_of_false (fun member => kept_apart blockId member gone) ?_
      rintro ⟨size, found⟩
      cases found
    · rw [if_neg gone, ← before]
      exact ⟨Or.inr, fun either => either.resolve_left gone⟩
  · obtain ⟨file, here, there⟩ :=
      coherent.cached blockId (split ▸ List.mem_append_right _ member)
    refine ⟨file, ?_, there⟩
    rw [drop, Table.lookup_eraseAll, if_neg (kept_apart blockId member)]
    exact here
  · obtain ⟨inside, outside⟩ := coherent.unsynced blockId member
    rw [split, List.mem_append, not_or] at outside
    refine ⟨?_, outside.2⟩
    rw [drop, Finmap.mem_iff, Table.lookup_eraseAll, if_neg outside.1]
    exact Finmap.mem_iff.mp inside

/-! ## Registering a block -/

/-- What registering a block and evicting does to the tier. -/
structure Registered (hdd : Directory) (blockId : Nat) (before after : SsdTier) : Prop where
  /-- The tier stays coherent. -/
  coherent : after.Coherent hdd
  /-- The other maps stay. -/
  unsynced : after.cache.unsyncedBlockId = before.cache.unsyncedBlockId
  /-- The marks of blocks being cached stay. -/
  caching : after.cache.cachingBlock = before.cache.cachingBlock
  /-- The tasks stay. -/
  threadPool : after.cache.threadPool = before.cache.threadPool
  /-- The record of the reads stays. -/
  readRecord : after.cache.readRecord = before.cache.readRecord
  /-- Only queued blocks and the new one can be queued. -/
  queue : ∀ other ∈ after.cache.cachedBlockId,
    other ∈ before.cache.cachedBlockId ∨ other = blockId
  /-- The files of all others stay. -/
  files : ∀ other, other ∉ before.cache.cachedBlockId → other ≠ blockId →
    after.ssd.lookup other = before.ssd.lookup other
  /-- A file that goes is mirrored; the others stay. -/
  removed : ∀ other, after.ssd.lookup other = before.ssd.lookup other ∨
    after.ssd.lookup other = none ∧ Mirrored before.ssd hdd other

/-- Registering a mirrored block that is neither queued nor unsynced, with any count of blocks,
and then evicting. -/
theorem register_evict (coherent : tier.Coherent hdd) (fresh : blockId ∉ tier.cache.cachedBlockId)
    (synced : blockId ∉ tier.cache.unsyncedBlockId) (mirrored : Mirrored tier.ssd hdd blockId)
    (size : Nat) (blockNum : Int) :
    Registered hdd blockId tier (evict { register blockId size tier with
      cache := { (register blockId size tier).cache with blockNum } }) := by
  have registered : Coherent { register blockId size tier with
      cache := { (register blockId size tier).cache with blockNum } } hdd := by
    refine ⟨?_, fun other => ?_, fun other member => ?_, fun other member => ?_⟩
    · refine List.nodup_append.mpr ⟨coherent.nodup, List.nodup_singleton _, ?_⟩
      intro old member new single same
      exact fresh ((List.mem_singleton.mp single) ▸ same ▸ member)
    · change other ∈ tier.cache.cachedBlockId ++ [blockId] ↔
        other ∈ tier.cache.cachedBlock.insert blockId size
      rw [List.mem_append, List.mem_singleton, Finmap.mem_insert, coherent.queued other]
      exact or_comm
    · rcases List.mem_append.mp member with old | new
      · exact coherent.cached other old
      · rw [List.mem_singleton.mp new]
        exact mirrored
    · obtain ⟨inside, outside⟩ := coherent.unsynced other member
      refine ⟨inside, fun queued => ?_⟩
      rcases List.mem_append.mp queued with old | new
      · exact outside old
      · exact synced ((List.mem_singleton.mp new) ▸ member)
  obtain ⟨removed, kept, count, split, evicted⟩ := evict_eq_drop { register blockId size tier with
      cache := { (register blockId size tier).cache with blockNum } }
  have queue : ∀ other ∈ removed ++ kept, other ∈ tier.cache.cachedBlockId ∨ other = blockId := by
    intro other member
    rw [← split] at member
    rcases List.mem_append.mp member with old | new
    · exact Or.inl old
    · exact Or.inr (List.mem_singleton.mp new)
  rw [evicted]
  refine ⟨drop_coherent registered split count, rfl, rfl, rfl, rfl, ?_, ?_, ?_⟩
  · exact fun other member => queue other (List.mem_append_right _ member)
  · intro other unqueued apart
    have stays : other ∉ removed := by
      intro gone
      rcases queue other (List.mem_append_left _ gone) with old | new
      · exact unqueued old
      · exact apart new
    rw [drop, Table.lookup_eraseAll, if_neg stays]
    rfl
  · intro other
    rw [drop, Table.lookup_eraseAll]
    by_cases gone : other ∈ removed
    · refine Or.inr ⟨if_pos gone, ?_⟩
      rcases queue other (List.mem_append_left _ gone) with old | rfl
      · exact coherent.cached other old
      · exact mirrored
    · exact Or.inl (if_neg gone)

/-- Registering and evicting add no file to the SSD. -/
theorem Registered.files_extend {before after : SsdTier} {files : Directory}
    (registered : Registered hdd blockId before after) (mirrored : Extends before.ssd files) :
    Extends after.ssd files := by
  intro other file found
  rcases registered.removed other with kept | gone
  · exact mirrored other file (kept.symm.trans found)
  · rw [gone.1] at found
    cases found

end SsdTier

end CudaDb
