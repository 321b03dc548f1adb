import CudaDb.Verif.SsdTransparent

/-!
# The count of the blocks on the SSD

`block_num` is the number of unsynced blocks and queued ones. The eviction takes as much off the
count as off the queue, and it goes on until the count is below its limit or nothing is left to
evict; so after each section there is room for another block or the queue is empty.
-/

namespace CudaDb.SsdTier

variable {content : Nat → List UInt8} {tier before after : SsdTier} {world next : World}
  {blockId maxBlockNum : Nat} {hdd : Directory}

/-! ## Eviction -/

/-- What an eviction does to the counts. -/
structure Evicted (before after : SsdTier) : Prop where
  /-- What is counted beyond the queue stays. -/
  counted : after.cache.blockNum - after.cache.cachedBlockId.length =
    before.cache.blockNum - before.cache.cachedBlockId.length
  /-- The limit stays. -/
  limit : after.cache.maxBlockNum = before.cache.maxBlockNum
  /-- The unsynced blocks stay. -/
  unsynced : after.cache.unsyncedBlockId = before.cache.unsyncedBlockId
  /-- The tasks stay. -/
  threadPool : after.cache.threadPool = before.cache.threadPool
  /-- The record of the reads stays. -/
  readRecord : after.cache.readRecord = before.cache.readRecord
  /-- There is room for another block, or nothing is left to evict. -/
  room : after.cache.blockNum < after.cache.maxBlockNum ∨ after.cache.cachedBlockId = []

/-- The eviction loop stops below its limit, or with nothing left. -/
theorem evictLoop_evicted {queue : List Nat} (front : tier.cache.cachedBlockId = queue) :
    tier.Evicted (evictLoop queue tier) := by
  induction queue generalizing tier with
  | nil => exact ⟨rfl, rfl, rfl, rfl, rfl, Or.inr front⟩
  | cons deleted rest ih =>
    rw [evictLoop]
    by_cases low : 10 * tier.cache.blockNum < 7 * tier.cache.maxBlockNum
    · rw [if_pos low]
      exact ⟨rfl, rfl, rfl, rfl, rfl, Or.inl (by omega)⟩
    · rw [if_neg low]
      have later := @ih {
        cache := { tier.cache with
          cachedBlock := tier.cache.cachedBlock.erase deleted
          cachedBlockId := rest
          blockNum := tier.cache.blockNum - 1 }
        ssd := tier.ssd.erase deleted } rfl
      refine ⟨?_, later.limit, later.unsynced, later.threadPool, later.readRecord,
        later.room⟩
      rw [later.counted, front, List.length_cons]
      dsimp only
      omega

/-- The eviction leaves room for another block, or nothing to evict. -/
theorem evict_evicted (tier : SsdTier) : tier.Evicted tier.evict := by
  unfold evict
  by_cases full : tier.cache.blockNum ≥ tier.cache.maxBlockNum
  · rw [if_pos full]
    exact evictLoop_evicted rfl
  · rw [if_neg full]
    exact ⟨rfl, rfl, rfl, rfl, rfl, Or.inl (not_le.mp full)⟩

/-! ## The count -/

/-- The limit is the one that was set, and the count is that of the unsynced and the queued
blocks. -/
structure Counts (maxBlockNum : Nat) (tier : SsdTier) : Prop where
  /-- The limit. -/
  limit : tier.cache.maxBlockNum = maxBlockNum
  /-- The count. -/
  counted : tier.cache.blockNum =
    tier.cache.unsyncedBlockId.keys.card + tier.cache.cachedBlockId.length

/-- An eviction keeps the count. -/
theorem Counts.evicted (counts : before.Counts maxBlockNum) (evicted : before.Evicted after) :
    after.Counts maxBlockNum := by
  refine ⟨evicted.limit.trans counts.limit, ?_⟩
  have same := evicted.counted
  have counted := counts.counted
  rw [evicted.unsynced]
  omega

/-- Registering a block that is counted already, and evicting, keeps the count. -/
theorem register_counts (limit : tier.cache.maxBlockNum = maxBlockNum) {blockNum : Int}
    (counted : blockNum = tier.cache.unsyncedBlockId.keys.card +
      (tier.cache.cachedBlockId.length + 1)) (size : Nat) :
    (evict { register blockId size tier with
      cache := { (register blockId size tier).cache with blockNum } }).Counts maxBlockNum := by
  have queue : (tier.cache.cachedBlockId ++ [blockId]).length =
      tier.cache.cachedBlockId.length + 1 := List.length_append
  have registered : Counts maxBlockNum { register blockId size tier with
      cache := { (register blockId size tier).cache with blockNum } } := by
    refine ⟨limit, ?_⟩
    change blockNum = (tier.cache.unsyncedBlockId.keys.card : Int) +
      (tier.cache.cachedBlockId ++ [blockId]).length
    rw [queue, counted]
    rfl
  exact registered.evicted (evict_evicted _)

/-- The section of a flush moves its block from the unsynced ones to the queue. -/
theorem flushSection_counts (coherent : world.Coherent content)
    (counts : world.tier.Counts maxBlockNum)
    (inside : .flushSection blockId ∈ world.tier.cache.threadPool) :
    (world.tier.flushSection blockId).Counts maxBlockNum := by
  have alive := coherent.flushing blockId (mem_kind SsdTask.flushes inside rfl)
  have listed : blockId ∈ world.tier.cache.unsyncedBlockId.keys := Finmap.mem_keys.mpr alive
  have fewer := Finset.card_erase_add_one listed
  have counted := counts.counted
  refine @register_counts (world.tier.synced blockId) blockId maxBlockNum counts.limit
    world.tier.cache.blockNum ?_ _
  change world.tier.cache.blockNum =
    ((world.tier.cache.unsyncedBlockId.erase blockId).keys.card : Int) +
      (world.tier.cache.cachedBlockId.length + 1)
  rw [Finmap.keys_erase]
  omega

/-- The section of a fetch counts its block. -/
theorem fetchSection_counts (counts : tier.Counts maxBlockNum) :
    ((tier.fetchSection blockId).getD tier).Counts maxBlockNum := by
  unfold fetchSection
  cases found : tier.ssd.lookup blockId with
  | none => exact counts
  | some file =>
    have counted := counts.counted
    have evicted := @register_counts tier blockId maxBlockNum counts.limit
      (tier.cache.blockNum + 1) (by omega) file.length
    exact ⟨evicted.limit, evicted.counted⟩

/-- A step of a task keeps the count. -/
theorem runTask_counts (coherent : world.Coherent content)
    (counts : world.tier.Counts maxBlockNum) {task : SsdTask}
    (inside : task ∈ world.tier.cache.threadPool) :
    (world.tier.runTask world.hdd task).2.1.Counts maxBlockNum := by
  cases task with
  | flushCopy blockId | fetchTest blockId =>
    unfold runTask
    dsimp only
    split <;> exact counts
  | fetchCopy blockId =>
    unfold runTask
    dsimp only
    split
    · exact ⟨counts.limit, counts.counted⟩
    · exact counts
  | flushSection blockId => exact flushSection_counts coherent counts inside
  | fetchSection blockId => exact fetchSection_counts counts

/-- Every step keeps the count. -/
theorem step_counts {event : Event} (coherent : world.Coherent content)
    (counts : world.tier.Counts maxBlockNum)
    (stepped : (machine content).step world event = some next) :
    next.tier.Counts maxBlockNum := by
  cases event with
  | placeSsd blockId | placeHdd blockId =>
    simp only [machine] at stepped
    split at stepped
    · cases stepped
    · obtain rfl := Option.some.inj stepped
      exact ⟨counts.limit, counts.counted⟩
  | newBlock blockId =>
    simp only [machine] at stepped
    split at stepped
    · cases stepped
    next fresh =>
    obtain ⟨tier, announced, rfl⟩ := Option.map_eq_some_iff.mp stepped
    obtain ⟨file, -, rfl⟩ := Option.map_eq_some_iff.mp announced
    have unlisted : blockId ∉ world.tier.cache.unsyncedBlockId := fun member =>
      fresh (Or.inl (coherent.unsynced blockId member))
    refine ⟨counts.limit, ?_⟩
    have more : (world.tier.cache.unsyncedBlockId.insert blockId file.length).keys.card =
        world.tier.cache.unsyncedBlockId.keys.card + 1 := by
      have keys : (world.tier.cache.unsyncedBlockId.insert blockId file.length).keys =
          insert blockId world.tier.cache.unsyncedBlockId.keys := by
        ext other
        rw [Finmap.mem_keys, Finmap.mem_insert, Finset.mem_insert, Finmap.mem_keys]
      rw [keys]
      exact Finset.card_insert_of_notMem fun member => unlisted (Finmap.mem_keys.mp member)
    have counted := counts.counted
    dsimp only
    rw [more]
    push_cast
    omega
  | task task =>
    by_cases inside : task ∈ world.tier.cache.threadPool
    · have later := runTask_counts coherent counts inside
      simp only [machine, if_pos inside, Option.some.injEq] at stepped
      subst stepped
      exact ⟨later.limit, later.counted⟩
    · simp [machine, if_neg inside] at stepped
  | read info =>
    obtain ⟨⟨tier, delivered⟩, served, rfl⟩ := Option.map_eq_some_iff.mp stepped
    obtain ⟨file, -, same⟩ := Option.map_eq_some_iff.mp served
    obtain ⟨rfl, -⟩ := Prod.mk.inj same
    obtain ⟨queue, -, unsynced⟩ := SSDCache.noteRead_maps world.tier.cache info.blockId
    have limit : (world.tier.cache.noteRead info.blockId).maxBlockNum =
        world.tier.cache.maxBlockNum ∧ (world.tier.cache.noteRead info.blockId).blockNum =
        world.tier.cache.blockNum := by
      obtain ⟨_, _, same | ⟨_, _, same⟩⟩ := SSDCache.noteRead_cases world.tier.cache info.blockId
      all_goals rw [same]; exact ⟨rfl, rfl⟩
    refine ⟨limit.1.trans counts.limit, ?_⟩
    dsimp only
    rw [limit.2, unsynced, queue]
    exact counts.counted

/-- In every run the invariant and the count hold. -/
theorem run_counts {events : List Event}
    (ran : (machine content).run (start maxBlockNum) events = some world) :
    world.Coherent content ∧ world.tier.Counts maxBlockNum :=
  Machine.run_invariant (fun world => world.Coherent content ∧ world.tier.Counts maxBlockNum)
    (fun _ _ _ holds stepped =>
      ⟨step_coherent holds.1 stepped, step_counts holds.1 holds.2 stepped⟩)
    ⟨start_coherent maxBlockNum, rfl, rfl⟩ ran

/-- What the bookkeeping of the SSD is meant to be. -/
structure Bookkept (tier : SsdTier) : Prop where
  /-- No block is queued twice. -/
  nodup : tier.cache.cachedBlockId.Nodup
  /-- The queue lists the cached blocks. -/
  queued : ∀ blockId, blockId ∈ tier.cache.cachedBlockId ↔ blockId ∈ tier.cache.cachedBlock
  /-- No unsynced block is cached. -/
  disjoint : ∀ blockId ∈ tier.cache.unsyncedBlockId, blockId ∉ tier.cache.cachedBlock
  /-- `block_num` is the number of unsynced and of queued blocks. -/
  counted : tier.cache.blockNum =
    tier.cache.unsyncedBlockId.keys.card + tier.cache.cachedBlockId.length
  /-- It is not negative. -/
  nonneg : 0 ≤ tier.cache.blockNum
  /-- Every one of these blocks has its file on the SSD. -/
  files : ∀ blockId, blockId ∈ tier.cache.unsyncedBlockId ∨ blockId ∈ tier.cache.cachedBlock →
    blockId ∈ tier.ssd

/-- A coherent and counted tier is kept as it should be. -/
theorem Coherent.bookkept (coherent : tier.Coherent hdd) (counts : tier.Counts maxBlockNum) :
    tier.Bookkept where
  nodup := coherent.nodup
  queued := coherent.queued
  disjoint := fun blockId member cached =>
    (coherent.unsynced blockId member).2 ((coherent.queued blockId).mpr cached)
  counted := counts.counted
  nonneg := by
    rw [counts.counted]
    omega
  files := by
    rintro blockId (unsynced | cached)
    · exact (coherent.unsynced blockId unsynced).1
    · obtain ⟨file, here, -⟩ := coherent.cached blockId ((coherent.queued blockId).mpr cached)
      exact Finmap.mem_iff.mpr ⟨file, here⟩

/-- The tasks whose next step is a section. -/
def SectionOf (blockId : Nat) (task : SsdTask) : Prop :=
  task = .flushSection blockId ∨ task = .fetchSection blockId

/-- A section leaves room for another block, or nothing to evict. -/
theorem section_room (coherent : world.Coherent content) {task : SsdTask}
    (section_next : SectionOf blockId task)
    (stepped : (machine content).step world (.task task) = some next) :
    next.tier.cache.blockNum < next.tier.cache.maxBlockNum ∨
      next.tier.cache.cachedBlockId = [] := by
  by_cases inside : task ∈ world.tier.cache.threadPool
  · simp only [machine, if_pos inside, Option.some.injEq] at stepped
    subst stepped
    rcases section_next with rfl | rfl
    · exact (evict_evicted _).room
    · obtain ⟨⟨file, here, -⟩, -, -⟩ := coherent.fetchCopied blockId inside
      simp only [runTask, fetchSection, here, Option.map_some, Option.getD_some]
      exact (evict_evicted _).room
  · simp [machine, if_neg inside] at stepped

/-- In every state of every interleaving the bookkeeping is right, and after the section of a flush
or a fetch there is room for another block or nothing left to evict. -/
theorem bookkept_along {events : List Event}
    (ran : (machine content).run (start maxBlockNum) events = some world) :
    world.tier.Bookkept ∧ world.tier.cache.maxBlockNum = maxBlockNum ∧
    ∀ (blockId : Nat) (task : SsdTask) (next : World), SectionOf blockId task →
      (machine content).step world (.task task) = some next →
      next.tier.cache.blockNum < next.tier.cache.maxBlockNum ∨
        next.tier.cache.cachedBlockId = [] := by
  obtain ⟨coherent, counts⟩ := run_counts ran
  exact ⟨coherent.tier.bookkept counts, counts.limit,
    fun _ _ _ section_next stepped => section_room coherent section_next stepped⟩

/-- After a flush into an SSD of one block the block is evicted and nothing is counted. -/
theorem bookkept_flushAndEvict :
    ∃ world, (machine fun _ => [1, 2, 3]).run (start 1) flushAndEvict = some world ∧
      world.tier.Bookkept ∧ world.tier.cache.blockNum = 0 := by
  have executed : ∃ world, (machine fun _ => [1, 2, 3]).run (start 1) flushAndEvict = some world ∧
      world.tier.cache.blockNum = 0 := ⟨_, rfl, rfl⟩
  obtain ⟨world, ran, counted⟩ := executed
  exact ⟨world, ran, (bookkept_along ran).1, counted⟩

end CudaDb.SsdTier
