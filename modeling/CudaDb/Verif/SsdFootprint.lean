import CudaDb.Verif.WriteProgress

/-!
# The files on the SSD

`WriteBuffer::flush` writes a block straight to the HDD and does not announce it, so every file on
the SSD was copied there by a fetch. Such a file belongs to a queued block or to a fetch between its
copy and its section, and it leaves the SSD as its block leaves the queue: no copy is forgotten. So
the files are as many as `block_num` counts and fetches have copied, and `block_num` stays below its
limit.
-/

namespace CudaDb

/-- The block of a fetch that has copied its file and comes to its section next. -/
def SsdTask.copied : SsdTask → Option Nat
  | .fetchSection blockId => some blockId
  | _ => none

namespace SsdTier

variable {content : Nat → List UInt8} {tier : SsdTier} {world next : World}
  {blockId maxBlockNum : Nat}

/-- An eviction keeps no file of a block that leaves the queue, and adds no file. -/
theorem evict_keeps (tier : SsdTier) (kept : blockId ∈ tier.evict.ssd) :
    blockId ∈ tier.ssd ∧
      (blockId ∈ tier.cache.cachedBlockId → blockId ∈ tier.evict.cache.cachedBlockId) := by
  obtain ⟨removed, left, blockNum, split, evicted⟩ := evict_eq_drop tier
  rw [evicted] at kept ⊢
  obtain ⟨file, found⟩ := Finmap.mem_iff.mp kept
  have lookup : (tier.ssd.eraseAll removed).lookup blockId = some file := found
  rw [Table.lookup_eraseAll] at lookup
  by_cases gone : blockId ∈ removed
  · rw [if_pos gone] at lookup
    cases lookup
  · rw [if_neg gone] at lookup
    refine ⟨Finmap.mem_iff.mpr ⟨file, lookup⟩, fun queued => ?_⟩
    rw [split] at queued
    exact (List.mem_append.mp queued).resolve_left gone

/-- The rest of the server puts no file on the SSD. -/
def Event.unplaced : Event → Bool
  | .placeSsd _ => false
  | _ => true

/-- What holds where only fetches put files on the SSD. -/
structure World.Accounted (maxBlockNum : Nat) (world : World) : Prop where
  /-- The queued blocks are counted, and only fetches are scheduled. -/
  counted : world.tier.Counted maxBlockNum
  /-- No block was announced. -/
  unsynced : ∀ blockId, blockId ∉ world.tier.cache.unsyncedBlockId
  /-- A file on the SSD is of a queued block, or of a fetch that has copied it. -/
  owned : ∀ blockId ∈ world.tier.ssd, blockId ∈ world.tier.cache.cachedBlockId ∨
    .fetchSection blockId ∈ world.tier.cache.threadPool

/-- Every file on the SSD is on the HDD. -/
theorem World.Accounted.mirrored (accounted : world.Accounted maxBlockNum)
    (coherent : world.Coherent content) (present : blockId ∈ world.tier.ssd) :
    Mirrored world.tier.ssd world.hdd blockId := by
  rcases accounted.owned blockId present with queued | copied
  · exact coherent.tier.cached blockId queued
  · exact (coherent.fetchCopied blockId copied).1

/-- A fetch that ends or goes on without a copy leaves the files accounted. -/
theorem World.Accounted.goes_on (accounted : world.Accounted maxBlockNum) {task : SsdTask}
    (uncopied : task.copied = none) {after : Option SsdTask}
    (fetch : ∀ later ∈ after, ∃ blockId,
      later = .fetchTest blockId ∨ later = .fetchCopy blockId ∨ later = .fetchSection blockId) :
    World.Accounted maxBlockNum { world with tier := { world.tier with cache := { world.tier.cache
      with threadPool := world.tier.cache.threadPool.erase task ++ after.toList } } } where
  counted := accounted.counted.goes_on task fetch
  unsynced := accounted.unsynced
  owned := by
    intro blockId present
    rcases accounted.owned blockId present with queued | copied
    · exact Or.inl queued
    · have other : SsdTask.fetchSection blockId ≠ task := by
        rintro rfl
        cases uncopied
      exact Or.inr (List.mem_append_left _ ((List.mem_erase_of_ne other).mpr copied))

/-- The section of a fetch leaves the files accounted. -/
theorem fetchSection_accounted (coherent : world.Coherent content)
    (accounted : world.Accounted maxBlockNum)
    (inside : .fetchSection blockId ∈ world.tier.cache.threadPool) :
    World.Accounted maxBlockNum { world with
      tier := { (world.tier.fetchSection blockId).getD world.tier with
        cache := { ((world.tier.fetchSection blockId).getD world.tier).cache with
          threadPool := ((world.tier.fetchSection blockId).getD world.tier).cache.threadPool.erase
            (.fetchSection blockId) ++ [] } } } := by
  have counted := fetchSection_counted accounted.counted blockId
  obtain ⟨⟨file, here, -⟩, -, -⟩ := coherent.fetchCopied blockId inside
  have ran : ∃ registered : SsdTier, registered.ssd = world.tier.ssd ∧
      registered.cache.cachedBlockId = world.tier.cache.cachedBlockId ++ [blockId] ∧
      registered.cache.unsyncedBlockId = world.tier.cache.unsyncedBlockId ∧
      registered.cache.threadPool = world.tier.cache.threadPool ∧
      (world.tier.fetchSection blockId).getD world.tier =
        { registered.evict with cache := { registered.evict.cache with
          cachingBlock := registered.evict.cache.cachingBlock.erase blockId } } := by
    rw [fetchSection, here, Option.map_some, Option.getD_some]
    exact ⟨{ register blockId file.length world.tier with
      cache := { (register blockId file.length world.tier).cache with
        blockNum := world.tier.cache.blockNum + 1 } }, rfl, rfl, rfl, rfl, rfl⟩
  obtain ⟨registered, ssd, queue, unsynced, pool, result⟩ := ran
  have evicted := evict_evicted registered
  refine ⟨counted.goes_on (.fetchSection blockId) fun (_ : SsdTask) (same : _ ∈ none) =>
      (by cases same),
    ?_, ?_⟩
  · intro other
    rw [result]
    dsimp only
    rw [evicted.unsynced, unsynced]
    exact accounted.unsynced other
  · intro other present
    rw [result] at present ⊢
    dsimp only at present ⊢
    obtain ⟨before, stays⟩ := evict_keeps registered present
    rw [queue] at stays
    rw [ssd] at before
    rw [evicted.threadPool, pool, List.append_nil]
    by_cases own : other = blockId
    · exact Or.inl (stays (List.mem_append_right _ (List.mem_singleton.mpr own)))
    · rcases accounted.owned other before with queued | copied
      · exact Or.inl (stays (List.mem_append_left _ queued))
      · have apart : SsdTask.fetchSection other ≠ .fetchSection blockId := fun same =>
          own (SsdTask.fetchSection.inj same)
        exact Or.inr ((List.mem_erase_of_ne apart).mpr copied)

/-- A step of a fetch leaves the files accounted. -/
theorem runTask_accounted (coherent : world.Coherent content)
    (accounted : world.Accounted maxBlockNum) {task : SsdTask}
    (inside : task ∈ world.tier.cache.threadPool)
    (stepped : (machine content).step world (.task task) = some next) :
    next.Accounted maxBlockNum := by
  simp only [machine, if_pos inside, Option.some.injEq] at stepped
  subst stepped
  obtain ⟨blockId, rfl | rfl | rfl⟩ := accounted.counted.fetches task inside
  · unfold runTask
    dsimp only
    split
    · exact accounted.goes_on rfl fun later same =>
        ⟨blockId, Or.inr (Or.inl (Option.some.inj same).symm)⟩
    · exact accounted.goes_on rfl fun later same => (by cases same)
  · unfold runTask
    dsimp only
    split
    · next copied copy =>
      obtain ⟨absent, file, there, rfl⟩ := copyFile_eq_some.mp copy
      have uncopied : SsdTask.copied (.fetchCopy blockId) = none := rfl
      have section_next : ∀ later ∈ some (SsdTask.fetchSection blockId), ∃ other,
          later = .fetchTest other ∨ later = .fetchCopy other ∨ later = .fetchSection other :=
        fun later same => ⟨blockId, Or.inr (Or.inr (Option.some.inj same).symm)⟩
      have later := accounted.goes_on uncopied section_next
      refine ⟨⟨later.counted.limit, later.counted.counted, later.counted.room,
        later.counted.fetches⟩, later.unsynced, fun other present => ?_⟩
      rcases Finmap.mem_insert.mp present with rfl | old
      · exact Or.inr (List.mem_append_right _ (List.mem_singleton.mpr rfl))
      · exact later.owned other old
    · exact accounted.goes_on rfl fun later same => (by cases same)
  · exact fetchSection_accounted coherent accounted inside

/-- Every event that puts no file on the SSD leaves the files accounted. -/
theorem step_accounted {event : Event} (coherent : world.Coherent content)
    (accounted : world.Accounted maxBlockNum) (unplaced : event.unplaced)
    (stepped : (machine content).step world event = some next) :
    next.Accounted maxBlockNum := by
  cases event with
  | placeSsd blockId => cases unplaced
  | placeHdd blockId =>
    simp only [machine] at stepped
    split at stepped
    · cases stepped
    · obtain rfl := Option.some.inj stepped
      exact ⟨accounted.counted, accounted.unsynced, accounted.owned⟩
  | newBlock blockId =>
    simp only [machine] at stepped
    split at stepped
    · cases stepped
    next fresh =>
    -- The block has a file on the SSD, so it has one on the HDD, and cannot be announced.
    obtain ⟨tier, announced, -⟩ := Option.map_eq_some_iff.mp stepped
    obtain ⟨file, here, -⟩ := Option.map_eq_some_iff.mp announced
    obtain ⟨same, -, there⟩ := accounted.mirrored coherent (Finmap.mem_iff.mpr ⟨file, here⟩)
    exact (fresh (Or.inr (Finmap.mem_iff.mpr ⟨same, there⟩))).elim
  | task task =>
    by_cases inside : task ∈ world.tier.cache.threadPool
    · exact runTask_accounted coherent accounted inside stepped
    · simp [machine, if_neg inside] at stepped
  | read info =>
    obtain ⟨⟨tier, delivered⟩, served, rfl⟩ := Option.map_eq_some_iff.mp stepped
    obtain ⟨file, -, same⟩ := Option.map_eq_some_iff.mp served
    obtain ⟨rfl, -⟩ := Prod.mk.inj same
    obtain ⟨queue, -, unsynced⟩ := SSDCache.noteRead_maps world.tier.cache info.blockId
    have pool : ∀ task ∈ world.tier.cache.threadPool,
        task ∈ (world.tier.cache.noteRead info.blockId).threadPool := by
      intro task inside
      obtain ⟨_, _, same | ⟨_, -, same⟩⟩ :=
        SSDCache.noteRead_cases world.tier.cache info.blockId
      · rw [same]
        exact inside
      · rw [same]
        exact List.mem_append_left _ inside
    refine ⟨noteRead_counted accounted.counted info.blockId, fun other => ?_,
      fun other present => ?_⟩
    · dsimp only
      rw [unsynced]
      exact accounted.unsynced other
    · dsimp only
      rw [queue]
      exact (accounted.owned other present).imp_right fun copied => pool _ copied

/-- The blocks of the fetches that have copied are distinct. -/
theorem copied_nodup {pool : List SsdTask} (distinct : (pool.filterMap SsdTask.fetches).Nodup) :
    (pool.filterMap SsdTask.copied).Nodup := by
  induction pool with
  | nil => exact List.nodup_nil
  | cons task pool ih =>
    have rest : (pool.filterMap SsdTask.fetches).Nodup := by
      rw [List.filterMap_cons] at distinct
      split at distinct
      · exact distinct
      · exact distinct.of_cons
    have sub : ∀ blockId ∈ pool.filterMap SsdTask.copied,
        blockId ∈ pool.filterMap SsdTask.fetches := by
      intro blockId member
      obtain ⟨other, inside, of_block⟩ := List.mem_filterMap.mp member
      cases other with
      | fetchSection own => exact mem_kind SsdTask.fetches inside of_block
      | _ => cases of_block
    cases task with
    | fetchSection own =>
      have apart := (List.nodup_cons.mp distinct).1
      exact List.nodup_cons.mpr ⟨fun member => apart (sub own member), ih rest⟩
    | _ => exact ih rest

/-- The files on the SSD are as many as the queued blocks and the fetches that have copied. -/
theorem World.Accounted.card (accounted : world.Accounted maxBlockNum)
    (coherent : world.Coherent content) :
    world.tier.ssd.keys.card = world.tier.cache.cachedBlockId.length +
      (world.tier.cache.threadPool.filterMap SsdTask.copied).length := by
  have copied : ∀ blockId, blockId ∈ world.tier.cache.threadPool.filterMap SsdTask.copied ↔
      .fetchSection blockId ∈ world.tier.cache.threadPool := by
    intro blockId
    constructor
    · intro member
      obtain ⟨task, inside, of_block⟩ := List.mem_filterMap.mp member
      cases task with
      | fetchSection own =>
        obtain rfl := Option.some.inj of_block
        exact inside
      | _ => cases of_block
    · exact fun inside => mem_kind SsdTask.copied inside rfl
  have distinct : (world.tier.cache.cachedBlockId ++
      world.tier.cache.threadPool.filterMap SsdTask.copied).Nodup := by
    refine List.nodup_append.mpr ⟨coherent.tier.nodup, copied_nodup coherent.fetches, ?_⟩
    rintro blockId queued _ member rfl
    exact (coherent.fetchCopied blockId ((copied blockId).mp member)).2.2 queued
  have files : world.tier.ssd.keys = (world.tier.cache.cachedBlockId ++
      world.tier.cache.threadPool.filterMap SsdTask.copied).toFinset := by
    ext blockId
    rw [Finmap.mem_keys, List.mem_toFinset, List.mem_append, copied blockId]
    constructor
    · exact accounted.owned blockId
    · rintro (queued | inside)
      · obtain ⟨file, here, -⟩ := coherent.tier.cached blockId queued
        exact Finmap.mem_iff.mpr ⟨file, here⟩
      · obtain ⟨⟨file, here, -⟩, -, -⟩ := coherent.fetchCopied blockId inside
        exact Finmap.mem_iff.mpr ⟨file, here⟩
  rw [files, List.toFinset_card_of_nodup distinct, List.length_append]

/-- Every file on the SSD is a copy of the one on the HDD. -/
theorem World.Accounted.copy (accounted : world.Accounted maxBlockNum)
    (coherent : world.Coherent content) {file : List UInt8}
    (found : world.tier.ssd.lookup blockId = some file) :
    world.hdd.lookup blockId = some file := by
  obtain ⟨copy, here, there⟩ := accounted.mirrored coherent (Finmap.mem_iff.mpr ⟨file, found⟩)
  rw [← Option.some.inj (here.symm.trans found)]
  exact there

/-- In every run in which only fetches put files on the SSD they are accounted. -/
theorem run_accounted {events : List Event} (unplaced : ∀ event ∈ events, event.unplaced)
    (ran : (machine content).run (start maxBlockNum) events = some world) :
    world.Coherent content ∧ world.Accounted maxBlockNum := by
  apply Machine.run_invariant_along (fun world : World =>
    world.Coherent content ∧ world.Accounted maxBlockNum) _ _
    (Machine.along_of_mem unplaced _) ran
  · intro state event after holds fetched stepped
    exact ⟨step_coherent holds.1 stepped, step_accounted holds.1 holds.2 fetched stepped⟩
  · exact ⟨start_coherent maxBlockNum,
      ⟨rfl, rfl, fun positive => Int.natCast_pos.mpr positive, fun _ member => by cases member⟩,
      fun blockId => Finmap.notMem_empty,
      fun blockId present => absurd present Finmap.notMem_empty⟩

/-- In every interleaving of reads and fetches, in which the rest of the server puts block files on
the HDD only, every file on the SSD is a copy of the one on the HDD. They are as many as `block_num`
counts and fetches have copied without having registered them yet, and `block_num` is below its
limit. -/
theorem footprint_eq {events : List Event} (positive : 0 < maxBlockNum)
    (unplaced : ∀ event ∈ events, event.unplaced)
    (ran : (machine content).run (start maxBlockNum) events = some world) :
    (∀ blockId file, world.tier.ssd.lookup blockId = some file →
      world.hdd.lookup blockId = some file) ∧
    (world.tier.ssd.keys.card : Int) = world.tier.cache.blockNum +
      (world.tier.cache.threadPool.filterMap SsdTask.copied).length ∧
    world.tier.cache.blockNum < maxBlockNum := by
  obtain ⟨coherent, accounted⟩ := run_accounted unplaced ran
  refine ⟨fun _ _ found => accounted.copy coherent found, ?_, accounted.counted.room positive⟩
  rw [accounted.card coherent, accounted.counted.counted]
  exact Nat.cast_add _ _

/-- Block 1 is read often enough to be fetched, and its fetch has copied it. -/
def copiedFetch : List Event :=
  .placeHdd 1 :: List.replicate 51 (.read ⟨1, 0, 1, 0⟩) ++
    [.task (.fetchTest 1), .task (.fetchCopy 1)]

set_option maxRecDepth 2000 in
/-- The copy is on the SSD and is not counted yet. -/
theorem footprint_eq_copiedFetch :
    ∃ world, (machine fun _ => [7]).run (start 2) copiedFetch = some world ∧
      world.tier.cache.blockNum = 0 ∧ (world.tier.ssd.keys.card : Int) = 1 := by
  have executed : ∃ world, (machine fun _ => [7]).run (start 2) copiedFetch = some world ∧
      world.tier.cache.blockNum = 0 ∧
      (world.tier.cache.threadPool.filterMap SsdTask.copied).length = 1 := ⟨_, rfl, rfl, rfl⟩
  obtain ⟨world, ran, counted, copied⟩ := executed
  have files := (footprint_eq (by decide) (by decide) ran).2.1
  rw [counted, copied] at files
  exact ⟨world, ran, counted, files⟩

end SsdTier

end CudaDb
