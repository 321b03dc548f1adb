import CudaDb.Verif.SsdInvariant

/-!
# The SSD tier is transparent

Along every interleaving of reads, announcements and the steps of the flush and fetch tasks, a
block that is on the HDD or announced is read with its own bytes, and a file leaves the SSD only
when the HDD has the block. The invariant adds to the bookkeeping what the tasks rely on: a
flush is alive only for an unsynced block, and a fetch for a block marked as being cached, each
at most once.
-/

namespace CudaDb

/-- The block of a flush task. -/
def SsdTask.flushes : SsdTask → Option Nat
  | .flushCopy blockId | .flushSection blockId => some blockId
  | _ => none

/-- The block of a fetch task. -/
def SsdTask.fetches : SsdTask → Option Nat
  | .fetchTest blockId | .fetchCopy blockId | .fetchSection blockId => some blockId
  | _ => none

namespace SsdTier

variable {content : Nat → List UInt8} {world next : World} {blockId : Nat}

/-! ## Pools of tasks -/

/-- A task that goes on or ends keeps the blocks of its kind distinct and adds none. -/
theorem pool_step {kind : SsdTask → Option Nat} {pool : List SsdTask} {task : SsdTask}
    (after : Option SsdTask) (inside : task ∈ pool) (same : ∀ next ∈ after, kind next = kind task)
    (distinct : (pool.filterMap kind).Nodup) :
    ((pool.erase task ++ after.toList).filterMap kind).Nodup ∧
      ∀ blockId ∈ (pool.erase task ++ after.toList).filterMap kind,
        blockId ∈ pool.filterMap kind := by
  have order := (List.perm_cons_erase inside).filterMap kind
  have rest_distinct := order.nodup_iff.mp distinct
  have sub : ∀ blockId ∈ (pool.erase task).filterMap kind, blockId ∈ pool.filterMap kind := by
    intro blockId member
    rw [order.mem_iff, List.filterMap_cons]
    split
    · exact member
    · exact List.mem_cons_of_mem _ member
  cases after with
  | none =>
    rw [Option.toList_none, List.append_nil]
    refine ⟨?_, sub⟩
    rw [List.filterMap_cons] at rest_distinct
    split at rest_distinct
    · exact rest_distinct
    · exact rest_distinct.of_cons
  | some next =>
    have swapped : ((pool.erase task ++ [next]).filterMap kind).Perm (pool.filterMap kind) := by
      have kept : ([next] : List SsdTask).filterMap kind = [task].filterMap kind := by
        simp only [List.filterMap_cons, List.filterMap_nil, same next rfl]
      rw [List.filterMap_append, kept, ← List.filterMap_append]
      exact ((List.perm_append_singleton _ _).filterMap kind).trans order.symm
    exact ⟨swapped.nodup_iff.mpr distinct, fun blockId member => swapped.mem_iff.mp member⟩

/-- The blocks of the other tasks of a kind are other blocks. -/
theorem pool_apart (kind : SsdTask → Option Nat) {pool : List SsdTask} {task : SsdTask}
    (inside : task ∈ pool) (of_block : kind task = some blockId)
    (distinct : (pool.filterMap kind).Nodup) : blockId ∉ (pool.erase task).filterMap kind := by
  have order := (List.perm_cons_erase inside).filterMap kind
  have rest_distinct := order.nodup_iff.mp distinct
  rw [List.filterMap_cons, of_block] at rest_distinct
  exact (List.nodup_cons.mp rest_distinct).1

/-! ## The invariant -/

/-- What holds of the cache, the directories and the tasks in every interleaving. -/
structure World.Coherent (content : Nat → List UInt8) (world : World) : Prop where
  /-- The files on the SSD have the contents of their blocks. -/
  ssd : ∀ blockId file, world.tier.ssd.lookup blockId = some file → file = content blockId
  /-- The files on the HDD have the contents of their blocks. -/
  hdd : ∀ blockId file, world.hdd.lookup blockId = some file → file = content blockId
  /-- The bookkeeping of the SSD. -/
  tier : world.tier.Coherent world.hdd
  /-- Unsynced blocks were announced. -/
  unsynced : ∀ blockId ∈ world.tier.cache.unsyncedBlockId, blockId ∈ world.announced
  /-- An announced block is unsynced or on the HDD. -/
  announced : ∀ blockId ∈ world.announced,
    blockId ∈ world.tier.cache.unsyncedBlockId ∨ blockId ∈ world.hdd
  /-- A block has at most one flush task. -/
  flushes : (world.tier.cache.threadPool.filterMap SsdTask.flushes).Nodup
  /-- A flush task is for an unsynced block. -/
  flushing : ∀ blockId ∈ world.tier.cache.threadPool.filterMap SsdTask.flushes,
    blockId ∈ world.tier.cache.unsyncedBlockId
  /-- A block has at most one fetch task. -/
  fetches : (world.tier.cache.threadPool.filterMap SsdTask.fetches).Nodup
  /-- A fetch task is for a block marked as being cached. -/
  fetching : ∀ blockId ∈ world.tier.cache.threadPool.filterMap SsdTask.fetches,
    blockId ∈ world.tier.cache.cachingBlock
  /-- A flush has copied before its section. -/
  flushCopied : ∀ blockId, .flushSection blockId ∈ world.tier.cache.threadPool →
    Mirrored world.tier.ssd world.hdd blockId
  /-- A fetch has copied before its section, of a block that is neither unsynced nor queued. -/
  fetchCopied : ∀ blockId, .fetchSection blockId ∈ world.tier.cache.threadPool →
    Mirrored world.tier.ssd world.hdd blockId ∧
    blockId ∉ world.tier.cache.unsyncedBlockId ∧ blockId ∉ world.tier.cache.cachedBlockId

/-- The empty directories and the empty cache are coherent. -/
theorem start_coherent (maxBlockNum : Nat) : (start maxBlockNum).Coherent content where
  ssd := fun blockId _ found => by simp [start] at found
  hdd := fun blockId _ found => by simp [start] at found
  tier := new_coherent maxBlockNum ∅
  unsynced := fun _ member => absurd member Finmap.notMem_empty
  announced := fun _ member => absurd member List.not_mem_nil
  flushes := List.nodup_nil
  flushing := fun _ member => absurd member List.not_mem_nil
  fetches := List.nodup_nil
  fetching := fun _ member => absurd member List.not_mem_nil
  flushCopied := fun _ member => absurd member List.not_mem_nil
  fetchCopied := fun _ member => absurd member List.not_mem_nil

/-- A file that is put into a directory where it is absent has the content if the others have. -/
theorem insert_content {directory : Directory}
    (files : ∀ blockId file, directory.lookup blockId = some file → file = content blockId)
    {other : Nat} {file : List UInt8}
    (found : (directory.insert blockId (content blockId)).lookup other = some file) :
    file = content other := by
  rw [Table.lookup_insert_if] at found
  by_cases same : other = blockId
  · rw [if_pos same] at found
    rw [same]
    exact (Option.some.inj found).symm
  · rw [if_neg same] at found
    exact files other file found

/-- Adding files with the right contents keeps the invariant. -/
theorem World.Coherent.extends {ssd hdd : Directory} (coherent : world.Coherent content)
    (left : Extends world.tier.ssd ssd) (right : Extends world.hdd hdd)
    (ssd_files : ∀ blockId file, ssd.lookup blockId = some file → file = content blockId)
    (hdd_files : ∀ blockId file, hdd.lookup blockId = some file → file = content blockId) :
    World.Coherent content { world with tier := { world.tier with ssd }, hdd } where
  ssd := ssd_files
  hdd := hdd_files
  tier := coherent.tier.extends left right
  unsynced := coherent.unsynced
  announced := fun blockId member => (coherent.announced blockId member).imp_right right.mem
  flushes := coherent.flushes
  flushing := coherent.flushing
  fetches := coherent.fetches
  fetching := coherent.fetching
  flushCopied := fun blockId member => (coherent.flushCopied blockId member).extends left right
  fetchCopied := fun blockId member =>
    ⟨(coherent.fetchCopied blockId member).1.extends left right,
      (coherent.fetchCopied blockId member).2⟩

/-- A task that goes one step on, with the invariant for the state without it in the pool. -/
theorem World.Coherent.withPool (coherent : world.Coherent content) {task : SsdTask}
    (after : Option SsdTask) (inside : task ∈ world.tier.cache.threadPool)
    (flushes : ∀ next ∈ after, next.flushes = task.flushes)
    (fetches : ∀ next ∈ after, next.fetches = task.fetches)
    (flushCopied : ∀ blockId, after = some (.flushSection blockId) →
      Mirrored world.tier.ssd world.hdd blockId)
    (fetchCopied : ∀ blockId, after = some (.fetchSection blockId) →
      Mirrored world.tier.ssd world.hdd blockId ∧
      blockId ∉ world.tier.cache.unsyncedBlockId ∧ blockId ∉ world.tier.cache.cachedBlockId) :
    World.Coherent content { world with tier := { world.tier with cache := { world.tier.cache with
      threadPool := world.tier.cache.threadPool.erase task ++ after.toList } } } where
  ssd := coherent.ssd
  hdd := coherent.hdd
  tier := ⟨coherent.tier.nodup, coherent.tier.queued, coherent.tier.cached,
    coherent.tier.unsynced⟩
  unsynced := coherent.unsynced
  announced := coherent.announced
  flushes := (pool_step _ inside flushes coherent.flushes).1
  flushing := fun blockId member =>
    coherent.flushing blockId ((pool_step _ inside flushes coherent.flushes).2 blockId member)
  fetches := (pool_step _ inside fetches coherent.fetches).1
  fetching := fun blockId member =>
    coherent.fetching blockId ((pool_step _ inside fetches coherent.fetches).2 blockId member)
  flushCopied := by
    intro blockId member
    rcases List.mem_append.mp member with old | new
    · exact coherent.flushCopied blockId (List.mem_of_mem_erase old)
    · exact flushCopied blockId (Option.mem_toList.mp new)
  fetchCopied := by
    intro blockId member
    rcases List.mem_append.mp member with old | new
    · exact coherent.fetchCopied blockId (List.mem_of_mem_erase old)
    · exact fetchCopied blockId (Option.mem_toList.mp new)

/-- A task that ends keeps the invariant. -/
theorem World.Coherent.ended (coherent : world.Coherent content) {task : SsdTask}
    (inside : task ∈ world.tier.cache.threadPool) :
    World.Coherent content { world with tier := { world.tier with cache := { world.tier.cache with
      threadPool := world.tier.cache.threadPool.erase task ++ [] } } } :=
  coherent.withPool none inside nofun nofun nofun nofun

/-! ## The steps of the tasks -/

/-- A block in a list is among the blocks of its kind. -/
theorem mem_kind (kind : SsdTask → Option Nat) {pool : List SsdTask} {task : SsdTask}
    (inside : task ∈ pool) (of_block : kind task = some blockId) :
    blockId ∈ pool.filterMap kind :=
  List.mem_filterMap.mpr ⟨task, inside, of_block⟩

/-- A section that registers a block and ends its task keeps the invariant. -/
theorem World.Coherent.registered (coherent : world.Coherent content) {task : SsdTask}
    (inside : task ∈ world.tier.cache.threadPool) {before after : SsdTier}
    (registered : Registered world.hdd blockId before after)
    (ssd : before.ssd = world.tier.ssd)
    (queue : before.cache.cachedBlockId = world.tier.cache.cachedBlockId)
    (pool : before.cache.threadPool = world.tier.cache.threadPool)
    (unsynced : ∀ other, other ∈ before.cache.unsyncedBlockId ↔
      other ∈ world.tier.cache.unsyncedBlockId ∧ other ≠ blockId)
    (on_hdd : blockId ∈ world.hdd) (cachingBlock : Table Nat Nat)
    (marked : ∀ other ∈ (world.tier.cache.threadPool.erase task).filterMap SsdTask.fetches,
      other ∈ cachingBlock)
    (flush_apart : ∀ other ∈ (world.tier.cache.threadPool.erase task).filterMap SsdTask.flushes,
      other ≠ blockId)
    (fetch_apart : ∀ other, .fetchSection other ∈ world.tier.cache.threadPool.erase task →
      other ≠ blockId) :
    World.Coherent content { world with tier := { after with cache := { after.cache with
      cachingBlock
      threadPool := after.cache.threadPool.erase task ++ [] } } } := by
  have flushes := pool_step none inside nofun coherent.flushes
  have fetches := pool_step none inside nofun coherent.fetches
  rw [Option.toList_none, List.append_nil] at flushes fetches
  rw [List.append_nil, registered.threadPool, pool]
  have files : ∀ other, other ∉ world.tier.cache.cachedBlockId → other ≠ blockId →
      Mirrored world.tier.ssd world.hdd other → Mirrored after.ssd world.hdd other := by
    rintro other unqueued apart ⟨file, here, there⟩
    refine ⟨file, ?_, there⟩
    rw [registered.files other (queue ▸ unqueued) apart, ssd]
    exact here
  refine ⟨?_, coherent.hdd, ⟨registered.coherent.nodup, registered.coherent.queued,
    registered.coherent.cached, registered.coherent.unsynced⟩, ?_, ?_, flushes.1, ?_, fetches.1,
    marked, ?_, ?_⟩
  · intro other file found
    rcases registered.removed other with same | gone
    · rw [ssd] at same
      exact coherent.ssd other file (same ▸ found)
    · have missing : after.ssd.lookup other = none := gone.1
      rw [missing] at found
      cases found
  · intro other member
    have listed : other ∈ before.cache.unsyncedBlockId := registered.unsynced ▸ member
    exact coherent.unsynced other ((unsynced other).mp listed).1
  · intro other member
    change other ∈ after.cache.unsyncedBlockId ∨ other ∈ world.hdd
    rw [registered.unsynced, unsynced]
    by_cases same : other = blockId
    · exact Or.inr (same ▸ on_hdd)
    · exact (coherent.announced other member).imp_left fun listed => ⟨listed, same⟩
  · intro other member
    change other ∈ after.cache.unsyncedBlockId
    rw [registered.unsynced, unsynced]
    exact ⟨coherent.flushing other (flushes.2 other member), flush_apart other member⟩
  · intro other member
    have apart := flush_apart other (mem_kind SsdTask.flushes member rfl)
    have alive := coherent.flushing other
      (mem_kind SsdTask.flushes (List.mem_of_mem_erase member) rfl)
    exact files other (coherent.tier.unsynced other alive).2 apart
      (coherent.flushCopied other (List.mem_of_mem_erase member))
  · intro other member
    have apart := fetch_apart other member
    obtain ⟨mirrored, synced, unqueued⟩ :=
      coherent.fetchCopied other (List.mem_of_mem_erase member)
    refine ⟨files other unqueued apart mirrored, ?_, fun queued => ?_⟩
    · change other ∉ after.cache.unsyncedBlockId
      rw [registered.unsynced, unsynced]
      exact fun listed => synced listed.1
    · rcases registered.queue other queued with old | new
      · exact unqueued (queue ▸ old)
      · exact apart new

/-- The tier without the block among the unsynced ones. -/
def synced (blockId : Nat) (tier : SsdTier) : SsdTier :=
  { tier with cache := { tier.cache with
    unsyncedBlockId := tier.cache.unsyncedBlockId.erase blockId } }

/-- The unsynced blocks after one is flushed. -/
theorem mem_synced {other : Nat} (tier : SsdTier) :
    other ∈ (tier.synced blockId).cache.unsyncedBlockId ↔
      other ∈ tier.cache.unsyncedBlockId ∧ other ≠ blockId :=
  Finmap.mem_erase.trans and_comm

/-- The section of a flush registers its block. -/
theorem flushSection_registered (coherent : world.Coherent content)
    (inside : .flushSection blockId ∈ world.tier.cache.threadPool) :
    Registered world.hdd blockId (world.tier.synced blockId) (world.tier.flushSection blockId) := by
  have alive := coherent.flushing blockId (mem_kind SsdTask.flushes inside rfl)
  have unqueued := (coherent.tier.unsynced blockId alive).2
  have before : (world.tier.synced blockId).Coherent world.hdd :=
    ⟨coherent.tier.nodup, coherent.tier.queued, coherent.tier.cached,
      fun other member => coherent.tier.unsynced other ((mem_synced world.tier).mp member).1⟩
  exact register_evict before unqueued (fun member => ((mem_synced world.tier).mp member).2 rfl)
    (coherent.flushCopied blockId inside) (world.tier.cache.unsyncedBlockId.slot blockId)
    world.tier.cache.blockNum

/-- The section of a flush keeps the invariant. -/
theorem flushSection_coherent (coherent : world.Coherent content)
    (inside : .flushSection blockId ∈ world.tier.cache.threadPool) :
    World.Coherent content { world with tier := { world.tier.flushSection blockId with
      cache := { (world.tier.flushSection blockId).cache with
        threadPool := (world.tier.flushSection blockId).cache.threadPool.erase
          (.flushSection blockId) ++ [] } } } := by
  have alive := coherent.flushing blockId (mem_kind SsdTask.flushes inside rfl)
  have registered := flushSection_registered coherent inside
  have on_hdd : blockId ∈ world.hdd := by
    obtain ⟨file, -, there⟩ := coherent.flushCopied blockId inside
    exact Finmap.mem_iff.mpr ⟨file, there⟩
  refine coherent.registered inside registered rfl rfl rfl (fun _ => mem_synced world.tier) on_hdd
    (world.tier.flushSection blockId).cache.cachingBlock ?_ ?_ ?_
  · intro other member
    rw [registered.caching]
    have fetches := pool_step none inside nofun coherent.fetches
    rw [Option.toList_none, List.append_nil] at fetches
    exact coherent.fetching other (fetches.2 other member)
  · intro other member same
    exact pool_apart SsdTask.flushes inside rfl coherent.flushes (same ▸ member)
  · intro other member same
    exact (coherent.fetchCopied other (List.mem_of_mem_erase member)).2.1 (same ▸ alive)

/-- The section of a fetch finds its copy and registers its block. -/
theorem fetchSection_registered (coherent : world.Coherent content)
    (inside : .fetchSection blockId ∈ world.tier.cache.threadPool) :
    ∃ evicted, Registered world.hdd blockId world.tier evicted ∧
      world.tier.fetchSection blockId = some { evicted with cache := { evicted.cache with
        cachingBlock := evicted.cache.cachingBlock.erase blockId } } := by
  obtain ⟨⟨file, here, there⟩, synced, unqueued⟩ := coherent.fetchCopied blockId inside
  have registered := register_evict coherent.tier unqueued synced ⟨file, here, there⟩ file.length
    (world.tier.cache.blockNum + 1)
  refine ⟨_, registered, ?_⟩
  rw [fetchSection, here]
  rfl

/-- The section of a fetch keeps the invariant. -/
theorem fetchSection_coherent (coherent : world.Coherent content)
    (inside : .fetchSection blockId ∈ world.tier.cache.threadPool) :
    ∃ tier, world.tier.fetchSection blockId = some tier ∧
      World.Coherent content { world with tier := { tier with cache := { tier.cache with
        threadPool := tier.cache.threadPool.erase (.fetchSection blockId) ++ [] } } } := by
  obtain ⟨⟨file, -, there⟩, synced, -⟩ := coherent.fetchCopied blockId inside
  obtain ⟨evicted, registered, ran⟩ := fetchSection_registered coherent inside
  refine ⟨_, ran, ?_⟩
  refine coherent.registered inside registered rfl rfl rfl ?_ (Finmap.mem_iff.mpr ⟨file, there⟩) _
    ?_ ?_ ?_
  · intro other
    refine (and_iff_left_of_imp fun member same => ?_).symm
    exact synced (same ▸ member)
  · intro other member
    have fetches := pool_step none inside nofun coherent.fetches
    rw [Option.toList_none, List.append_nil] at fetches
    have apart : other ≠ blockId := fun same =>
      pool_apart SsdTask.fetches inside rfl coherent.fetches (same ▸ member)
    have marked := coherent.fetching other (fetches.2 other member)
    rw [registered.caching]
    exact Finmap.mem_erase.mpr ⟨apart, marked⟩
  · intro other member same
    have flushes := pool_step none inside nofun coherent.flushes
    rw [Option.toList_none, List.append_nil] at flushes
    exact synced (same ▸ coherent.flushing other (flushes.2 other member))
  · intro other member same
    have listed := mem_kind SsdTask.fetches member rfl
    exact pool_apart SsdTask.fetches inside rfl coherent.fetches (same ▸ listed)

/-- A step of a task keeps the invariant. -/
theorem runTask_coherent (coherent : world.Coherent content) {task : SsdTask}
    (inside : task ∈ world.tier.cache.threadPool)
    (stepped : (machine content).step world (.task task) = some next) : next.Coherent content := by
  simp only [machine, if_pos inside, Option.some.injEq] at stepped
  subst stepped
  cases task with
  | flushCopy blockId =>
    have alive := coherent.flushing blockId (mem_kind SsdTask.flushes inside rfl)
    rw [runTask]
    cases copy : copyFile world.tier.ssd world.hdd blockId with
    | none => exact coherent.ended inside
    | some copied =>
      obtain ⟨absent, file, found, rfl⟩ := copyFile_eq_some.mp copy
      have grown := coherent.extends (Extends.refl _) (extends_insert absent file) coherent.ssd (by
        rw [coherent.ssd blockId file found]
        exact fun _ _ => insert_content coherent.hdd)
      refine grown.withPool (some (.flushSection blockId)) inside ?_ ?_ ?_ nofun
      · rintro _ ⟨⟩
        rfl
      · rintro _ ⟨⟩
        rfl
      · rintro _ ⟨⟩
        exact ⟨file, found, Finmap.lookup_insert _⟩
  | flushSection blockId => exact flushSection_coherent coherent inside
  | fetchTest blockId =>
    rw [runTask]
    split
    · refine coherent.withPool (some (.fetchCopy blockId)) inside ?_ ?_ nofun nofun
      · rintro _ ⟨⟩
        rfl
      · rintro _ ⟨⟩
        rfl
    · exact coherent.ended inside
  | fetchCopy blockId =>
    rw [runTask]
    cases copy : copyFile world.hdd world.tier.ssd blockId with
    | none => exact coherent.ended inside
    | some copied =>
      obtain ⟨absent, file, found, rfl⟩ := copyFile_eq_some.mp copy
      have grown := coherent.extends (extends_insert absent file) (Extends.refl _) (by
        rw [coherent.hdd blockId file found]
        exact fun _ _ => insert_content coherent.ssd) coherent.hdd
      refine grown.withPool (some (.fetchSection blockId)) inside ?_ ?_ nofun ?_
      · rintro _ ⟨⟩
        rfl
      · rintro _ ⟨⟩
        rfl
      · rintro _ ⟨⟩
        refine ⟨⟨file, Finmap.lookup_insert _, found⟩, fun member => ?_, fun queued => ?_⟩
        · exact absent (coherent.tier.unsynced blockId member).1
        · obtain ⟨copy, here, -⟩ := coherent.tier.cached blockId queued
          exact absent (Finmap.mem_iff.mpr ⟨copy, here⟩)
  | fetchSection blockId =>
    obtain ⟨tier, ran, kept⟩ := fetchSection_coherent coherent inside
    rw [runTask, ran, Option.getD_some]
    exact kept

/-! ## The calls -/

/-- Announcing a block for the first time keeps the invariant. -/
theorem newBlock_coherent (coherent : world.Coherent content)
    (stepped : (machine content).step world (.newBlock blockId) = some next) :
    next.Coherent content := by
  simp only [machine] at stepped
  split at stepped
  · cases stepped
  next fresh =>
  rw [not_or] at fresh
  obtain ⟨tier, announced, rfl⟩ := Option.map_eq_some_iff.mp stepped
  obtain ⟨file, found, rfl⟩ := Option.map_eq_some_iff.mp announced
  have synced : blockId ∉ world.tier.cache.unsyncedBlockId := fun member =>
    fresh.1 (coherent.unsynced blockId member)
  have no_flush : blockId ∉ world.tier.cache.threadPool.filterMap SsdTask.flushes := fun member =>
    synced (coherent.flushing blockId member)
  have off_hdd (mirrored : Mirrored world.tier.ssd world.hdd blockId) : False := by
    obtain ⟨copy, -, there⟩ := mirrored
    exact fresh.2 (Finmap.mem_iff.mpr ⟨copy, there⟩)
  have flushes :
      (world.tier.cache.threadPool ++ [SsdTask.flushCopy blockId]).filterMap SsdTask.flushes =
      world.tier.cache.threadPool.filterMap SsdTask.flushes ++ [blockId] := by
    simp [SsdTask.flushes]
  have fetches :
      (world.tier.cache.threadPool ++ [SsdTask.flushCopy blockId]).filterMap SsdTask.fetches =
      world.tier.cache.threadPool.filterMap SsdTask.fetches := by
    simp [SsdTask.fetches]
  refine ⟨coherent.ssd, coherent.hdd, ⟨coherent.tier.nodup, coherent.tier.queued,
    coherent.tier.cached, ?_⟩, ?_, ?_, ?_, ?_, ?_, ?_, ?_, ?_⟩
  · intro other member
    rcases Finmap.mem_insert.mp member with rfl | old
    · exact ⟨Finmap.mem_iff.mpr ⟨file, found⟩,
        fun queued => off_hdd (coherent.tier.cached _ queued)⟩
    · exact coherent.tier.unsynced other old
  · intro other member
    rcases Finmap.mem_insert.mp member with rfl | old
    · exact List.mem_cons_self
    · exact List.mem_cons_of_mem _ (coherent.unsynced other old)
  · intro other member
    rcases List.mem_cons.mp member with rfl | old
    · exact Or.inl (Finmap.mem_insert.mpr (Or.inl rfl))
    · exact (coherent.announced other old).imp_left
        fun listed => Finmap.mem_insert.mpr (Or.inr listed)
  · change ((world.tier.cache.threadPool ++ [SsdTask.flushCopy blockId]).filterMap
      SsdTask.flushes).Nodup
    rw [flushes, ← List.concat_eq_append, List.nodup_concat]
    exact ⟨no_flush, coherent.flushes⟩
  · intro other member
    change other ∈ (world.tier.cache.threadPool ++ [SsdTask.flushCopy blockId]).filterMap
      SsdTask.flushes at member
    rw [flushes, List.mem_append, List.mem_singleton] at member
    rcases member with old | rfl
    · exact Finmap.mem_insert.mpr (Or.inr (coherent.flushing other old))
    · exact Finmap.mem_insert.mpr (Or.inl rfl)
  · change ((world.tier.cache.threadPool ++ [SsdTask.flushCopy blockId]).filterMap
      SsdTask.fetches).Nodup
    rw [fetches]
    exact coherent.fetches
  · intro other member
    change other ∈ (world.tier.cache.threadPool ++ [SsdTask.flushCopy blockId]).filterMap
      SsdTask.fetches at member
    rw [fetches] at member
    exact coherent.fetching other member
  · intro other member
    rcases List.mem_append.mp member with old | new
    · exact coherent.flushCopied other old
    · cases List.mem_singleton.mp new
  · intro other member
    rcases List.mem_append.mp member with old | new
    · obtain ⟨mirrored, unlisted, unqueued⟩ := coherent.fetchCopied other old
      refine ⟨mirrored, fun listed => ?_, unqueued⟩
      rcases Finmap.mem_insert.mp listed with rfl | before
      · exact off_hdd mirrored
      · exact unlisted before
    · cases List.mem_singleton.mp new

/-- Counting a read keeps the invariant. -/
theorem World.Coherent.noteRead (coherent : world.Coherent content) (blockId : Nat) :
    World.Coherent content { world with tier := { world.tier with
      cache := world.tier.cache.noteRead blockId } } := by
  obtain ⟨readRecord, readNum, counted | ⟨fetched, unmarked, scheduled⟩⟩ :=
    SSDCache.noteRead_cases world.tier.cache blockId
  · rw [counted]
    exact ⟨coherent.ssd, coherent.hdd, ⟨coherent.tier.nodup, coherent.tier.queued,
      coherent.tier.cached, coherent.tier.unsynced⟩, coherent.unsynced, coherent.announced,
      coherent.flushes, coherent.flushing, coherent.fetches, coherent.fetching,
      coherent.flushCopied, coherent.fetchCopied⟩
  have flushes :
      (world.tier.cache.threadPool ++ [SsdTask.fetchTest fetched]).filterMap SsdTask.flushes =
      world.tier.cache.threadPool.filterMap SsdTask.flushes := by
    simp [SsdTask.flushes]
  have fetches :
      (world.tier.cache.threadPool ++ [SsdTask.fetchTest fetched]).filterMap SsdTask.fetches =
      world.tier.cache.threadPool.filterMap SsdTask.fetches ++ [fetched] := by
    simp [SsdTask.fetches]
  rw [scheduled]
  refine ⟨coherent.ssd, coherent.hdd, ⟨coherent.tier.nodup, coherent.tier.queued,
    coherent.tier.cached, coherent.tier.unsynced⟩, coherent.unsynced, coherent.announced,
    ?_, ?_, ?_, ?_, ?_, ?_⟩
  · dsimp only
    rw [flushes]
    exact coherent.flushes
  · dsimp only
    rw [flushes]
    exact coherent.flushing
  · dsimp only
    rw [fetches, ← List.concat_eq_append, List.nodup_concat]
    exact ⟨fun member => unmarked (coherent.fetching fetched member), coherent.fetches⟩
  · dsimp only
    rw [fetches]
    intro other member
    rw [List.mem_append, List.mem_singleton] at member
    rcases member with old | rfl
    · exact Finmap.mem_insert.mpr (Or.inr (coherent.fetching other old))
    · exact Finmap.mem_insert.mpr (Or.inl rfl)
  · intro other member
    rcases List.mem_append.mp member with old | new
    · exact coherent.flushCopied other old
    · cases List.mem_singleton.mp new
  · intro other member
    rcases List.mem_append.mp member with old | new
    · exact coherent.fetchCopied other old
    · cases List.mem_singleton.mp new

/-- A read keeps the invariant. -/
theorem read_coherent (coherent : world.Coherent content) {info : IndexInfo}
    (stepped : (machine content).step world (.read info) = some next) : next.Coherent content := by
  obtain ⟨⟨tier, delivered⟩, served, rfl⟩ := Option.map_eq_some_iff.mp stepped
  obtain ⟨file, -, same⟩ := Option.map_eq_some_iff.mp served
  obtain ⟨rfl, -⟩ := Prod.mk.inj same
  exact coherent.noteRead info.blockId

/-- Every step keeps the invariant. -/
theorem step_coherent {event : Event} (coherent : world.Coherent content)
    (stepped : (machine content).step world event = some next) : next.Coherent content := by
  cases event with
  | placeSsd blockId =>
    simp only [machine] at stepped
    split at stepped
    · cases stepped
    · next absent =>
      obtain rfl := Option.some.inj stepped
      exact coherent.extends (extends_insert absent _) (Extends.refl _)
        (fun _ _ => insert_content coherent.ssd) coherent.hdd
  | placeHdd blockId =>
    simp only [machine] at stepped
    split at stepped
    · cases stepped
    · next absent =>
      obtain rfl := Option.some.inj stepped
      exact coherent.extends (Extends.refl _) (extends_insert absent _) coherent.ssd
        (fun _ _ => insert_content coherent.hdd)
  | newBlock blockId => exact newBlock_coherent coherent stepped
  | task task =>
    by_cases inside : task ∈ world.tier.cache.threadPool
    · exact runTask_coherent coherent inside stepped
    · simp [machine, if_neg inside] at stepped
  | read info => exact read_coherent coherent stepped

/-! ## What a reader sees -/

/-- A block that is on the HDD or announced is read with its own bytes. -/
theorem read_known (coherent : world.Coherent content) {info : IndexInfo}
    (known : info.blockId ∈ world.hdd ∨ info.blockId ∈ world.announced) (value : ByteMemory) :
    ∃ tier, world.tier.read info world.hdd value = some (tier, info.length,
      value.write (((content info.blockId).drop info.offset).take info.length)) := by
  obtain ⟨-, cached, unsynced⟩ := SSDCache.noteRead_maps world.tier.cache info.blockId
  unfold read
  dsimp only
  rw [cached, unsynced]
  by_cases on_ssd : info.blockId ∈ world.tier.cache.cachedBlock ∨
      info.blockId ∈ world.tier.cache.unsyncedBlockId
  · have present : info.blockId ∈ world.tier.ssd := by
      rcases on_ssd with cached | unsynced
      · obtain ⟨file, here, -⟩ :=
          coherent.tier.cached _ ((coherent.tier.queued info.blockId).mpr cached)
        exact Finmap.mem_iff.mpr ⟨file, here⟩
      · exact (coherent.tier.unsynced _ unsynced).1
    obtain ⟨file, found⟩ := Finmap.mem_iff.mp present
    rw [if_pos on_ssd, found, Option.map_some, coherent.ssd _ file found]
    exact ⟨_, rfl⟩
  · have present : info.blockId ∈ world.hdd := by
      rcases known with on_hdd | announced
      · exact on_hdd
      · exact (coherent.announced _ announced).resolve_left fun unsynced =>
          on_ssd (Or.inr unsynced)
    obtain ⟨file, found⟩ := Finmap.mem_iff.mp present
    rw [if_neg on_ssd, found, Option.map_some, coherent.hdd _ file found]
    exact ⟨_, rfl⟩

/-- A file leaves the SSD only in a step before which the HDD has the whole block. -/
theorem removed_on_hdd (coherent : world.Coherent content) {event : Event}
    (stepped : (machine content).step world event = some next) (present : blockId ∈ world.tier.ssd)
    (gone : blockId ∉ next.tier.ssd) : world.hdd.lookup blockId = some (content blockId) := by
  have of_mirrored (mirrored : Mirrored world.tier.ssd world.hdd blockId) :
      world.hdd.lookup blockId = some (content blockId) := by
    obtain ⟨file, -, there⟩ := mirrored
    rw [there, coherent.hdd blockId file there]
  have of_removed (after : SsdTier) (ssd : next.tier.ssd = after.ssd)
      (removed : after.ssd.lookup blockId = world.tier.ssd.lookup blockId ∨
        after.ssd.lookup blockId = none ∧ Mirrored world.tier.ssd world.hdd blockId) :
      world.hdd.lookup blockId = some (content blockId) := by
    rcases removed with same | ⟨-, mirrored⟩
    · obtain ⟨file, found⟩ := Finmap.mem_iff.mp present
      rw [← same, ← ssd] at found
      exact (gone (Finmap.mem_iff.mpr ⟨file, found⟩)).elim
    · exact of_mirrored mirrored
  cases event with
  | placeSsd other =>
    simp only [machine] at stepped
    split at stepped
    · cases stepped
    · next absent =>
      obtain rfl := Option.some.inj stepped
      exact absurd ((extends_insert absent _).mem present) gone
  | placeHdd other =>
    simp only [machine] at stepped
    split at stepped
    · cases stepped
    · obtain rfl := Option.some.inj stepped
      exact absurd present gone
  | newBlock other =>
    simp only [machine] at stepped
    split at stepped
    · cases stepped
    · obtain ⟨tier, announced, rfl⟩ := Option.map_eq_some_iff.mp stepped
      obtain ⟨file, -, rfl⟩ := Option.map_eq_some_iff.mp announced
      exact absurd present gone
  | read info =>
    obtain ⟨⟨tier, delivered⟩, served, rfl⟩ := Option.map_eq_some_iff.mp stepped
    obtain ⟨file, -, same⟩ := Option.map_eq_some_iff.mp served
    obtain ⟨rfl, -⟩ := Prod.mk.inj same
    exact absurd present gone
  | task task =>
    by_cases inside : task ∈ world.tier.cache.threadPool
    · simp only [machine, if_pos inside, Option.some.injEq] at stepped
      subst stepped
      cases task with
      | flushCopy other | fetchTest other =>
        rw [runTask] at gone
        split at gone <;> exact absurd present gone
      | fetchCopy other =>
        rw [runTask] at gone
        cases copy : copyFile world.hdd world.tier.ssd other with
        | none =>
          rw [copy] at gone
          exact absurd present gone
        | some copied =>
          obtain ⟨absent, file, -, rfl⟩ := copyFile_eq_some.mp copy
          rw [copy] at gone
          exact absurd ((extends_insert absent file).mem present) gone
      | flushSection other =>
        exact of_removed _ rfl ((flushSection_registered coherent inside).removed blockId)
      | fetchSection other =>
        obtain ⟨evicted, registered, ran⟩ := fetchSection_registered coherent inside
        refine of_removed evicted ?_ (registered.removed blockId)
        dsimp only
        rw [runTask, ran]
        rfl
    · simp [machine, if_neg inside] at stepped

/-- In every state of every interleaving, a read of a block that is on the HDD or announced
delivers the bytes that its record denotes, and the next step removes a file from the SSD only if
the HDD has the whole block. -/
theorem transparent {maxBlockNum : Nat} {events : List Event}
    (ran : (machine content).run (start maxBlockNum) events = some world) :
    (∀ (info : IndexInfo) (value : ByteMemory),
      info.blockId ∈ world.hdd ∨ info.blockId ∈ world.announced →
      info.offset + info.length ≤ (content info.blockId).length →
      ∃ tier delivered, world.tier.read info world.hdd value = some (tier, info.length, delivered) ∧
        delivered.StartsWith (((content info.blockId).drop info.offset).take info.length) ∧
        (((content info.blockId).drop info.offset).take info.length).length = info.length) ∧
    ∀ (event : Event) (next : World) (blockId : Nat),
      (machine content).step world event = some next →
      blockId ∈ world.tier.ssd → blockId ∉ next.tier.ssd →
      world.hdd.lookup blockId = some (content blockId) := by
  have coherent : world.Coherent content :=
    Machine.run_invariant (World.Coherent content)
      (fun _ _ _ holds stepped => step_coherent holds stepped) (start_coherent maxBlockNum) ran
  constructor
  · intro info value known fits
    obtain ⟨tier, served⟩ := read_known coherent known value
    refine ⟨tier, _, served, ByteMemory.write_startsWith _ _, ?_⟩
    rw [List.length_take, List.length_drop]
    omega
  · intro event next blockId stepped present gone
    exact removed_on_hdd coherent stepped present gone

/-- A block is announced on an SSD for one block, flushed and evicted. -/
def flushAndEvict : List Event :=
  [.placeSsd 1, .newBlock 1, .task (.flushCopy 1), .task (.flushSection 1)]

/-- A block that was evicted is read from the HDD. -/
theorem read_after_evict :
    ∃ world, (machine fun _ => [1, 2, 3]).run (start 1) flushAndEvict = some world ∧
      world.tier.ssd.lookup 1 = none ∧
      ∃ tier delivered, world.tier.read ⟨1, 1, 2, 0⟩ world.hdd (fun _ => 0) =
        some (tier, 2, delivered) ∧ delivered.StartsWith [2, 3] := by
  have executed : ∃ world, (machine fun _ => [1, 2, 3]).run (start 1) flushAndEvict = some world ∧
      world.tier.ssd.lookup 1 = none ∧ 1 ∈ world.announced := ⟨_, rfl, rfl, List.mem_cons_self⟩
  obtain ⟨world, ran, evicted, announced⟩ := executed
  obtain ⟨tier, delivered, served, starts, -⟩ :=
    (transparent ran).1 ⟨1, 1, 2, 0⟩ (fun _ => 0) (Or.inr announced) (by decide)
  exact ⟨world, ran, evicted, tier, delivered, served, starts⟩

end SsdTier

end CudaDb
