import CudaDb.Verif.WorkerBuffer
import CudaDb.Verif.WriteProgress
import CudaDb.Verif.MogRead
import CudaDb.Verif.FlushCommute

/-!
# Every call of the workers returns

A call of `read_file` makes at most thirteen accesses, apart from the tests with which the two loops
of `WriteBuffer::write` wait: such a loop polls without bound while its condition holds, and its
access is the test that ends it. Every other access can be made at once. The SSD cache always has
room for a block if one fits into it, so the second loop never waits. The first one waits while the
buffer is above its limit; if a block fits below that limit, more than a block is then stored, so
some of it is in blocks, and a flush is scheduled. So whatever the other workers have left behind, a
call returns through its own accesses and the flush threads alone.
-/

namespace CudaDb

/-- The accesses that a call of `read_file` makes at most before it returns, apart from the tests
with which it goes on waiting. -/
def MogPc.remaining : MogPc → Nat
  | .testReady _ => 13
  | .readBuffer _ _ => 12
  | .findItem _ _ => 11
  | .copyItem _ _ | .getIndex _ _ => 10
  | .readSsd _ _ _ => 9
  | .insertItem _ _ _ => 8
  | .openFile _ _ => 7
  | .testTotal _ _ _ => 6
  | .buffer _ (.waitTotal _ _) => 5
  | .buffer _ (.waitSsd _ _) => 4
  | .buffer _ (.locked _ _) => 3
  | .buffer _ (.returned _) => 2
  | .addTotal _ _ | .readDirect _ => 1
  | _ => 0

/-- No call has more than thirteen accesses left. -/
theorem MogPc.remaining_le (pc : MogPc) : pc.remaining ≤ 13 := by
  unfold remaining
  split <;> decide

namespace Mog

variable {Db : Type*} {hash : String → UInt64} {leveldb : LevelDb Db} {config : MogConfig}
  {files : String → Option (List UInt8)} {mog next : Mog Db} {caller after : Caller}

/-! ## How many accesses are left -/

/-- After a read seven accesses are left at most, to open the file and to store it. -/
theorem remaining_afterRead (reader : Reader) (key : String) (length : Nat) :
    (afterRead reader key length).remaining ≤ 7 := by
  unfold afterRead
  cases reader with
  | caller => exact Nat.zero_le 7
  | file path =>
    dsimp only
    split
    · exact Nat.zero_le 7
    · exact le_rfl

/-- Every access leaves fewer. -/
theorem step_remaining (serving : caller.pc.Serving)
    (stepped : mog.step hash leveldb config files caller = some (next, after)) :
    after.pc.remaining < caller.pc.remaining := by
  obtain ⟨pc, value⟩ := caller
  cases step_access stepped with
  | ready => exact (by decide : 12 < 13)
  | unready => exact (by decide : 1 < 13)
  | bufferMiss => exact (by decide : 11 < 12)
  | itemFound | itemMissed => exact (by decide : 10 < 11)
  | indexFound => exact (by decide : 9 < 10)
  | ssdRead => exact (by decide : 8 < 9)
  | directNothing | directFile | charged => exact Nat.zero_lt_one
  | fileNothing => exact (by decide : 0 < 7)
  | fileRead => exact (by decide : 6 < 7)
  | uncached => exact (by decide : 0 < 6)
  | bufferHit reader key =>
    exact lt_of_le_of_lt (remaining_afterRead reader key _) (by decide : 7 < 12)
  | itemCopied reader key =>
    exact lt_of_le_of_lt (remaining_afterRead reader key _) (by decide : 7 < 10)
  | itemInserted reader key =>
    exact lt_of_le_of_lt (remaining_afterRead reader key _) (by decide : 7 < 8)
  | indexMissed reader key =>
    exact lt_of_le_of_lt (remaining_afterRead reader key 0) (by decide : 7 < 10)
  | admitted path key bytes small =>
    have short : ¬ bytes.length > slabSize 10 := Nat.not_lt.mpr small
    have call : WriteBuffer.write key bytes = .waitTotal key bytes := if_neg short
    rw [call]
    exact (by decide : 5 < 6)
  | bufferStep writer inner later buffer taken =>
    cases writer with
    | insert path bytes =>
      obtain ⟨-, ⟨key, call⟩ | ⟨status, rfl⟩⟩ := serving
      · cases inner with
        | waitTotal own carried =>
          obtain ⟨-, same⟩ := Option.ite_none_left_eq_some.mp taken
          obtain ⟨rfl, -⟩ := Prod.mk.inj (Option.some.inj same)
          exact (by decide : 4 < 5)
        | waitSsd own carried =>
          obtain ⟨-, same⟩ := Option.ite_none_left_eq_some.mp taken
          obtain ⟨rfl, -⟩ := Prod.mk.inj (Option.some.inj same)
          exact (by decide : 3 < 4)
        | locked own carried =>
          obtain ⟨⟨status, written⟩, -, returned⟩ := Option.map_eq_some_iff.mp taken
          obtain ⟨rfl, -⟩ := Prod.mk.inj returned
          exact (by decide : 2 < 3)
        | _ => cases call
      · cases taken
    | _ => exact serving.elim
  | bufferReturned writer status =>
    cases writer with
    | insert path bytes =>
      exact (by decide : 1 < 2)
    | _ => exact serving.elim
  | synced => exact serving.elim

/-! ## What a call needs -/

/-- What a call needs for its next access: the entry that it has found, or the file of the block
that the index has named. -/
def Prepared (mog : Mog Db) : MogPc → Prop
  | .copyItem _ key => key ∈ mog.ram.cachedItem
  | .readSsd _ _ info => info.blockId ∈ mog.storage.hdd
  | _ => True

/-- No entry of the RAM cache and no block file has gone. -/
structure Grows (mog next : Mog Db) : Prop where
  /-- The entries. -/
  ram : ∀ key, key ∈ mog.ram.cachedItem → key ∈ next.ram.cachedItem
  /-- The block files. -/
  hdd : ∀ blockId, blockId ∈ mog.storage.hdd → blockId ∈ next.storage.hdd

/-- What a call needs stays. -/
theorem Prepared.grows {pc : MogPc} (prepared : mog.Prepared pc) (grows : mog.Grows next) :
    next.Prepared pc := by
  cases pc with
  | copyItem reader key => exact grows.ram key prepared
  | readSsd reader key info => exact grows.hdd info.blockId prepared
  | _ => trivial

/-- A call that has returned from a read needs nothing. -/
theorem prepared_afterRead (reader : Reader) (key : String) (length : Nat) :
    mog.Prepared (afterRead reader key length) := by
  unfold afterRead
  cases reader with
  | caller => trivial
  | file path =>
    dsimp only
    split <;> trivial

/-- An access takes nothing away, and leads to what is prepared. -/
theorem step_prepared (opened : mog.Opened hash leveldb .idle)
    (stepped : mog.step hash leveldb config files caller = some (next, after)) :
    mog.Grows next ∧ next.Prepared after.pc := by
  obtain ⟨pc, value⟩ := caller
  have same (mog : Mog Db) : mog.Grows mog := ⟨fun _ => id, fun _ => id⟩
  cases step_access stepped with
  | bufferHit | itemCopied | indexMissed => exact ⟨same mog, prepared_afterRead _ _ _⟩
  | itemFound reader key cached => exact ⟨same mog, cached⟩
  | indexFound reader key info found =>
    obtain ⟨-, -, -, bytes, slice⟩ := opened.storage.indexed key info found
    obtain ⟨file, here, -⟩ := Option.bind_eq_some_iff.mp slice
    exact ⟨same mog, Finmap.mem_of_lookup_eq_some here⟩
  | itemInserted reader key info ram inserted =>
    refine ⟨⟨fun other cached => ?_, fun _ => id⟩, prepared_afterRead _ _ _⟩
    rcases CpuCache.insert_cases inserted with unchanged | cached_now
    · change other ∈ ram.cachedItem
      rw [unchanged]
      exact cached
    · obtain ⟨taken, -, entries⟩ := cached_now.taken
      change other ∈ ram.cachedItem
      rw [entries]
      exact Finmap.mem_insert.mpr (Or.inr cached)
  | bufferReturned writer status =>
    refine ⟨same mog, ?_⟩
    cases writer <;> trivial
  | _ => exact ⟨⟨fun _ => id, fun _ => id⟩, trivial⟩

/-- The buffer is not above its limit. -/
def Below (mog : Mog Db) : Prop := mog.storage.buffer.totalSize ≤
  mog.storage.buffer.maxPageNum * mog.storage.buffer.pageSize

/-- While the buffer is not above its limit, a call of `read_file` can make its next access. -/
theorem step_enabled (opened : mog.Opened hash leveldb .idle) (serving : caller.pc.Serving)
    (prepared : mog.Prepared caller.pc)
    (enough : slabSize 10 ≤ mog.storage.buffer.blockCapacity)
    (few : mog.storage.buffer.totalSizeWithoutBlock ≤ mog.storage.buffer.blockCapacity)
    (room : mog.tier.cache.blockNum < mog.tier.cache.maxBlockNum) (below : mog.Below)
    (running : caller.pc.atRest = false) :
    ∃ next after, mog.step hash leveldb config files caller = some (next, after) := by
  obtain ⟨pc, value⟩ := caller
  have found {result : Option (Mog Db × Caller)} (some_result : result.isSome = true) :
      ∃ next after, result = some (next, after) := by
    obtain ⟨⟨next, after⟩, same⟩ := Option.isSome_iff_exists.mp some_result
    exact ⟨next, after, same⟩
  cases pc with
  | idle | done => cases running
  | testReady | readBuffer | findItem | addTotal => exact ⟨_, _, rfl⟩
  | readDirect path =>
    apply found
    unfold step
    dsimp only
    split
    · rfl
    · split <;> rfl
  | openFile path key =>
    apply found
    unfold step
    dsimp only
    split
    · rfl
    · split <;> rfl
  | getIndex reader key =>
    apply found
    unfold step
    dsimp only
    split <;> rfl
  | testTotal path key bytes =>
    apply found
    unfold step
    dsimp only
    split <;> rfl
  | copyItem reader key =>
    obtain ⟨item, entry⟩ := Finmap.mem_iff.mp prepared
    exact ⟨_, _, Option.map_eq_some_iff.mpr ⟨item, entry, rfl⟩⟩
  | readSsd reader key info =>
    have readable : (mog.tier.read info mog.storage.hdd value).isSome := by
      unfold SsdTier.read
      dsimp only
      rw [Option.isSome_map, (SSDCache.noteRead_maps _ _).2.1, (SSDCache.noteRead_maps _ _).2.2]
      split
      · next cached =>
        have queued := (opened.tier.queued info.blockId).mpr
          (cached.resolve_right (opened.synced info.blockId))
        obtain ⟨file, here, -⟩ := opened.tier.cached info.blockId queued
        rw [here]
        rfl
      · obtain ⟨file, there⟩ := Finmap.mem_iff.mp prepared
        rw [there]
        rfl
    obtain ⟨⟨tier, length, read⟩, served⟩ := Option.isSome_iff_exists.mp readable
    exact ⟨_, _, Option.map_eq_some_iff.mpr ⟨_, served, rfl⟩⟩
  | insertItem reader key info =>
    obtain ⟨ram, inserted⟩ :=
      Option.isSome_iff_exists.mp (CpuCache.insert_isSome opened.ram key info value)
    exact ⟨_, _, Option.map_eq_some_iff.mpr ⟨_, inserted, rfl⟩⟩
  | buffer writer inner =>
    cases writer with
    | insert path bytes =>
      obtain ⟨short, ⟨key, call⟩ | ⟨status, rfl⟩⟩ := serving
      · have moves : (mog.storage.buffer.step hash
            (decide (mog.tier.cache.blockNum ≥ mog.tier.cache.maxBlockNum)) inner).isSome := by
          cases inner with
          | waitTotal own carried =>
            unfold WriteBuffer.step
            dsimp only
            rw [if_neg (not_lt.mpr below)]
            rfl
          | waitSsd own carried =>
            have free : ¬ decide (mog.tier.cache.blockNum ≥ mog.tier.cache.maxBlockNum) = true := by
              simpa using room
            unfold WriteBuffer.step
            dsimp only
            rw [if_neg free]
            rfl
          | locked own carried =>
            obtain ⟨rfl, rfl⟩ := Prod.mk.inj (Option.some.inj call)
            obtain ⟨status, written, accepted, -⟩ := WriteBuffer.writeLocked_result
              ⟨_, opened.storage.buffer, List.Subset.refl _⟩ own short enough few
            unfold WriteBuffer.step
            dsimp only
            rw [accepted]
            rfl
          | _ => cases call
        obtain ⟨⟨later, buffer⟩, taken⟩ := Option.isSome_iff_exists.mp moves
        cases inner with
        | waitTotal | waitSsd | locked =>
          exact ⟨_, _, Option.map_eq_some_iff.mpr ⟨_, taken, rfl⟩⟩
        | _ => cases call
      · exact ⟨_, _, rfl⟩
    | _ => exact serving.elim
  | syncSsd => exact serving.elim

/-! ## Room -/

/-- The sizes are those of the configuration, no more than a block is waiting for one, and the SSD
cache counts its blocks. -/
structure Roomy (config : MogConfig) (mog : Mog Db) : Prop where
  /-- The sizes. -/
  sizes : ({ WriteBuffer.new with
      pageSize := config.pageSize
      pagePerBlock := config.pagePerBlock
      maxPageNum := 12 * config.bufferPageNum / 10 } : WriteBuffer).SameSizes mog.storage.buffer
  /-- What is waiting. -/
  waiting : mog.storage.buffer.totalSizeWithoutBlock ≤ mog.storage.buffer.blockCapacity
  /-- The blocks on the SSD. -/
  tier : mog.tier.Counted (config.ssdPageNum / config.pagePerBlock)

/-- A block takes the largest value. -/
theorem Roomy.enough (roomy : mog.Roomy config) (page : 1 ≤ config.pagePerBlock) :
    slabSize 10 ≤ mog.storage.buffer.blockCapacity := by
  have pages := roomy.sizes.pagePerBlock
  dsimp only at pages
  unfold WriteBuffer.blockCapacity
  rw [pages]
  have size : slabSize 10 = 1024 * 1024 := rfl
  omega

/-- A `mog` that has been opened is roomy. -/
theorem openDb_roomy (leveldb : LevelDb Db) (config : MogConfig) (totalSize : Int) :
    ({ (Mog.new leveldb).openDb leveldb config with totalSize } : Mog Db).Roomy config where
  sizes := ⟨rfl, rfl, rfl⟩
  waiting := Int.natCast_nonneg _
  tier := ⟨rfl, rfl, fun positive => Int.natCast_pos.mpr positive, fun _ member => by cases member⟩

/-- An access keeps the room. -/
theorem step_roomy (page : 1 ≤ config.pagePerBlock) (opened : mog.Opened hash leveldb .idle)
    (serving : caller.pc.Serving) (roomy : mog.Roomy config)
    (stepped : mog.step hash leveldb config files caller = some (next, after)) :
    next.Roomy config := by
  obtain ⟨pc, value⟩ := caller
  cases step_access stepped with
  | ssdRead reader key info tier length read served =>
    obtain ⟨file, -, noted⟩ := Option.map_eq_some_iff.mp served
    obtain ⟨rfl, -⟩ := Prod.mk.inj noted
    exact ⟨roomy.sizes, roomy.waiting, SsdTier.noteRead_counted roomy.tier info.blockId⟩
  | bufferStep writer inner later buffer taken =>
    have writing : WriteTraffic.Writing inner := by
      cases writer with
      | insert path bytes =>
        obtain ⟨short, ⟨key, call⟩ | ⟨status, rfl⟩⟩ := serving
        · exact Or.inr ⟨key, bytes, call, short⟩
        · exact Or.inl ⟨status, rfl⟩
      | _ => exact serving.elim
    obtain ⟨-, -, same, few⟩ := WriteTraffic.step_writing opened.storage.buffer writing
      (roomy.enough page) roomy.waiting taken
    exact ⟨⟨same.pageSize.trans roomy.sizes.pageSize,
      same.pagePerBlock.trans roomy.sizes.pagePerBlock,
      same.maxPageNum.trans roomy.sizes.maxPageNum⟩, few, roomy.tier⟩
  | _ => exact ⟨roomy.sizes, roomy.waiting, roomy.tier⟩

/-- A flush keeps the room. -/
theorem runFlush_roomy (roomy : mog.Roomy config) {storage : Storage Db} {blockId : Nat}
    (ran : mog.storage.runFlush hash leveldb blockId = some storage) :
    ({ mog with storage } : Mog Db).Roomy config := by
  obtain ⟨-, rfl⟩ := Storage.runFlush_eq_some.mp ran
  exact ⟨⟨roomy.sizes.pageSize, roomy.sizes.pagePerBlock, roomy.sizes.maxPageNum⟩, roomy.waiting,
    roomy.tier⟩

/-- A fetch keeps the SSD cache counted. -/
theorem fetch_counted {maxBlockNum : Nat} {tier : SsdTier} (counted : tier.Counted maxBlockNum)
    (blockId : Nat) (hdd : Directory) : (fetch blockId tier hdd).Counted maxBlockNum := by
  unfold fetch
  split
  · split
    · next ssd _ =>
      have copied : SsdTier.Counted maxBlockNum { tier with ssd } :=
        ⟨counted.limit, counted.counted, counted.room, counted.fetches⟩
      exact SsdTier.fetchSection_counted copied blockId
    · exact counted
  · exact counted

/-- A block fits, and the buffer is above its limit: then a flush is scheduled. -/
theorem scheduled_of_above (opened : mog.Opened hash leveldb .idle) (roomy : mog.Roomy config)
    (pages : config.pageSize = 1024 * 1024) (fits : WriteTraffic.BlockFits config)
    (above : ¬ mog.Below) : mog.storage.buffer.flushThreadPool ≠ [] := by
  intro empty
  have coherent : mog.storage.buffer.Coherent hash mog.storage.buffer.flushThreadPool :=
    opened.storage.buffer
  rw [empty] at coherent
  have capacity : mog.storage.buffer.blockCapacity ≤
      mog.storage.buffer.maxPageNum * mog.storage.buffer.pageSize := by
    rw [WriteBuffer.blockCapacity, roomy.sizes.pageSize, roomy.sizes.pagePerBlock,
      roomy.sizes.maxPageNum]
    dsimp only
    rw [pages, Nat.mul_assoc]
    exact Nat.mul_le_mul_right _ fits.1
  apply above
  unfold Below
  rw [coherent.total_of_quiet]
  exact roomy.waiting.trans (by exact_mod_cast capacity)

end Mog

namespace Fleet

variable {Worker : Type*} [DecidableEq Worker] {Db : Type*} {hash : String → UInt64}
  {leveldb : LevelDb Db} {config : MogConfig} {files : String → Option (List UInt8)}
  {fleet next : Fleet Worker Db} {event : Event Worker}

/-! ## Runs -/

/-- What lets every call go on, in every run of the workers. -/
structure Lively (hash : String → UInt64) (leveldb : LevelDb Db) (config : MogConfig)
    (fleet : Fleet Worker Db) : Prop where
  /-- The stores are coherent. -/
  opened : fleet.mog.Opened hash leveldb .idle
  /-- Every worker is at rest or in a call of `read_file`. -/
  served : fleet.Served
  /-- There is room. -/
  roomy : fleet.mog.Roomy config
  /-- What the calls need is there. -/
  prepared : ∀ worker, fleet.mog.Prepared (fleet.workers worker).pc

/-- Every event keeps the workers lively. -/
theorem step_lively (page : 1 ≤ config.pagePerBlock) (lively : fleet.Lively hash leveldb config)
    (stepped : (machine hash leveldb config files).step fleet event = some next) :
    next.Lively hash leveldb config := by
  have opened := step_opened lively.opened lively.served stepped
  have served := step_served lively.served stepped
  cases step_occurs stepped with
  | readFile worker path =>
    exact ⟨opened, served, lively.roomy,
      Threads.forall_update (fun caller : Caller => fleet.mog.Prepared caller.pc) trivial
        lively.prepared⟩
  | step worker mog caller taken =>
    have serving := lively.served worker
    obtain ⟨grows, prepared⟩ := Mog.step_prepared lively.opened taken
    refine ⟨opened, served, Mog.step_roomy page lively.opened serving lively.roomy taken, ?_⟩
    exact Threads.forall_update (fun caller : Caller => mog.Prepared caller.pc) prepared
      fun other => (lively.prepared other).grows grows
  | flush blockId storage ran =>
    have grows : fleet.mog.Grows { fleet.mog with storage } :=
      ⟨fun _ => id, fun _ => (Mog.runFlush_extends lively.opened ran).mem⟩
    exact ⟨opened, served, Mog.runFlush_roomy lively.roomy ran,
      fun worker => (lively.prepared worker).grows grows⟩
  | fetch blockId =>
    have fetched := Mog.fetch_counted lively.roomy.tier blockId fleet.mog.storage.hdd
    have grows (tier : SsdTier) : fleet.mog.Grows { fleet.mog with tier } :=
      ⟨fun _ => id, fun _ => id⟩
    refine ⟨opened, served, ⟨lively.roomy.sizes, lively.roomy.waiting, ?_⟩,
      fun worker => (lively.prepared worker).grows (grows _)⟩
    exact ⟨fetched.limit, fetched.counted, fetched.room,
      fun task member => fetched.fetches task (List.mem_of_mem_erase member)⟩

omit [DecidableEq Worker] in
/-- The workers start lively. -/
theorem reopened_lively (leveldb : LevelDb Db) (config : MogConfig) (totalSize : Int)
    (value : Worker → ByteMemory) :
    (reopened leveldb config totalSize value).Lively hash leveldb config := by
  have follows : (reopened leveldb config totalSize value).Follows hash leveldb _ :=
    reopened_follows leveldb config totalSize value
  exact ⟨follows.opened, follows.served, Mog.openDb_roomy leveldb config totalSize,
    fun _ => trivial⟩

/-- The workers are lively in every run between two resets. -/
theorem run_lively {totalSize : Int} {value : Worker → ByteMemory} {events : List (Event Worker)}
    (page : 1 ≤ config.pagePerBlock)
    (ran : (machine hash leveldb config files).run (reopened leveldb config totalSize value)
      events = some fleet) : fleet.Lively hash leveldb config :=
  Machine.run_invariant (Lively hash leveldb config)
    (fun _ _ _ lively stepped => step_lively page lively stepped)
    (reopened_lively leveldb config totalSize value) ran

/-! ## A call by itself -/

/-- An event is an access of a worker. -/
def Event.accesses (worker : Worker) : Event Worker → Bool
  | .step other => other = worker
  | _ => false

/-- An event is a flush. -/
def Event.flushes : Event Worker → Bool
  | .flush _ => true
  | _ => false

/-- A scheduled flush can run. -/
theorem step_flush {blockId : Nat} (hash : String → UInt64) (leveldb : LevelDb Db)
    (config : MogConfig) (files : String → Option (List UInt8))
    (scheduled : blockId ∈ fleet.mog.storage.buffer.flushThreadPool) :
    ∃ next, (machine hash leveldb config files).step fleet (.flush blockId) = some next ∧
      next.workers = fleet.workers ∧ next.mog.storage.buffer.flushThreadPool =
        fleet.mog.storage.buffer.flushThreadPool.erase blockId := by
  obtain ⟨storage, ran⟩ : ∃ storage,
      fleet.mog.storage.runFlush hash leveldb blockId = some storage :=
    ⟨_, Storage.runFlush_eq_some.mpr ⟨scheduled, rfl⟩⟩
  have pool : storage.buffer.flushThreadPool =
      fleet.mog.storage.buffer.flushThreadPool.erase blockId := by
    obtain ⟨-, rfl⟩ := Storage.runFlush_eq_some.mp ran
    rw [Storage.flush_buffer_eq]
  exact ⟨{ fleet with mog := { fleet.mog with storage } },
    Option.map_eq_some_iff.mpr ⟨storage, ran, rfl⟩, rfl, pool⟩

/-- The flush threads alone bring the buffer below its limit. -/
theorem drains (files : String → Option (List UInt8)) (page : 1 ≤ config.pagePerBlock)
    (pages : config.pageSize = 1024 * 1024) (fits : WriteTraffic.BlockFits config)
    (lively : fleet.Lively hash leveldb config) :
    ∃ flushes final, (machine hash leveldb config files).run fleet flushes = some final ∧
      (∀ event ∈ flushes, event.flushes) ∧ final.workers = fleet.workers ∧ final.mog.Below ∧
      final.Lively hash leveldb config := by
  induction count : fleet.mog.storage.buffer.flushThreadPool.length generalizing fleet with
  | zero =>
    by_cases below : fleet.mog.Below
    · exact ⟨[], fleet, rfl, fun _ member => (by cases member), rfl, below, lively⟩
    · exact absurd (List.eq_nil_of_length_eq_zero count)
        (Mog.scheduled_of_above lively.opened lively.roomy pages fits below)
  | succ fewer ih =>
    obtain ⟨blockId, scheduled⟩ := List.exists_mem_of_length_eq_add_one count
    obtain ⟨next, first, workers, pool⟩ := step_flush hash leveldb config files scheduled
    have shorter : next.mog.storage.buffer.flushThreadPool.length = fewer := by
      rw [pool, List.length_erase_of_mem scheduled, count]
      rfl
    obtain ⟨flushes, final, rest, only, same, below, later⟩ :=
      ih (step_lively page lively first) shorter
    refine ⟨.flush blockId :: flushes, final, Machine.run_cons.mpr ⟨next, first, rest⟩, ?_,
      same.trans workers, below, later⟩
    intro event member
    rcases List.mem_cons.mp member with rfl | inside
    · rfl
    · exact only event inside

/-- Flushes are no accesses. -/
theorem countP_accesses_flushes {worker : Worker} {flushes : List (Event Worker)}
    (only : ∀ event ∈ flushes, event.flushes) : flushes.countP (Event.accesses worker) = 0 := by
  apply List.countP_eq_zero.mpr
  intro event member access
  have flush := only event member
  cases event with
  | flush => cases access
  | _ => cases flush

/-- A lively worker can return by its own accesses, with flushes in between. -/
theorem returns (page : 1 ≤ config.pagePerBlock) (pages : config.pageSize = 1024 * 1024)
    (fits : WriteTraffic.BlockFits config) (worker : Worker)
    (lively : fleet.Lively hash leveldb config) :
    ∃ events final, (machine hash leveldb config files).run fleet events = some final ∧
      (final.workers worker).pc.atRest = true ∧
      (∀ other, other ≠ worker → final.workers other = fleet.workers other) ∧
      (∀ event ∈ events, event.accesses worker ∨ event.flushes) ∧
      events.countP (Event.accesses worker) ≤ (fleet.workers worker).pc.remaining := by
  induction left : (fleet.workers worker).pc.remaining using Nat.strong_induction_on
    generalizing fleet with
  | _ left_now ih =>
    by_cases rest : (fleet.workers worker).pc.atRest = true
    · exact ⟨[], fleet, rfl, rest, fun _ _ => rfl, fun _ member => (by cases member),
        Nat.zero_le _⟩
    obtain ⟨flushes, middle, drained, only, workers, below, waiting⟩ :=
      drains files page pages fits lively
    have running : (middle.workers worker).pc.atRest = false := by
      rw [workers]
      exact Bool.eq_false_of_not_eq_true rest
    have room : middle.mog.tier.cache.blockNum < middle.mog.tier.cache.maxBlockNum := by
      rw [waiting.roomy.tier.limit]
      exact waiting.roomy.tier.room (Nat.div_pos fits.2 page)
    have enabled : ∃ mog caller, middle.mog.step hash leveldb config files
        (middle.workers worker) = some (mog, caller) :=
      Mog.step_enabled waiting.opened (waiting.served worker) (waiting.prepared worker)
        (waiting.roomy.enough page) waiting.roomy.waiting room below running
    obtain ⟨mog, caller, taken⟩ := enabled
    have fewer := Mog.step_remaining (waiting.served worker) taken
    have stepped : (machine hash leveldb config files).step middle (.step worker) =
        some { mog, workers := Function.update middle.workers worker caller } :=
      Option.map_eq_some_iff.mpr ⟨_, taken, rfl⟩
    have here : (Function.update middle.workers worker caller worker).pc.remaining <
        left_now := by
      rw [Function.update_self, ← left, ← workers]
      exact fewer
    obtain ⟨events, final, later, returned, others, own, few⟩ :=
      ih _ here (step_lively page waiting stepped) rfl
    refine ⟨flushes ++ .step worker :: events, final,
      Machine.run_append.mpr ⟨middle, drained, Machine.run_cons.mpr ⟨_, stepped, later⟩⟩,
      returned, ?_, ?_, ?_⟩
    · intro other apart
      rw [others other apart, ← workers]
      exact Function.update_of_ne apart ..
    · intro event member
      rcases List.mem_append.mp member with flush | access
      · exact Or.inr (only event flush)
      · rcases List.mem_cons.mp access with rfl | inside
        · exact Or.inl (decide_eq_true rfl)
        · exact own event inside
    · have one : Event.accesses worker (.step worker : Event Worker) = true := decide_eq_true rfl
      rw [List.countP_append, countP_accesses_flushes only, List.countP_cons_of_pos one]
      omega

/-- If a block fits into the buffer and into the SSD cache, every call can return: in every state
that the workers reach between two resets, a worker comes to rest by at most thirteen accesses of
its own and by flushes, while all other workers stay where they are. Each flush runs as a whole, and
the tests by which a loop of `write` goes on waiting are no accesses. -/
theorem call_returns {totalSize : Int} {value : Worker → ByteMemory} {events : List (Event Worker)}
    (page : 1 ≤ config.pagePerBlock) (pages : config.pageSize = 1024 * 1024)
    (fits : WriteTraffic.BlockFits config)
    (ran : (machine hash leveldb config files).run (reopened leveldb config totalSize value)
      events = some fleet) (worker : Worker) :
    ∃ more final, (machine hash leveldb config files).run fleet more = some final ∧
      (final.workers worker).pc.atRest = true ∧
      (∀ other, other ≠ worker → final.workers other = fleet.workers other) ∧
      (∀ event ∈ more, event.accesses worker ∨ event.flushes) ∧
      more.countP (Event.accesses worker) ≤ 13 := by
  have lively : fleet.Lively hash leveldb config := run_lively page ran
  obtain ⟨more, final, later, returned, others, own, few⟩ :=
    @returns _ _ _ hash leveldb config files fleet page pages fits worker lively
  exact ⟨more, final, later, returned, others, own, few.trans (MogPc.remaining_le _)⟩

/-- Two workers stand inside their calls; the second one returns while the first one waits. -/
theorem call_returns_bothAtOnce :
    ∃ fleet, (machine Mog.powerHash LevelDb.table MogConfig.oneBlock Mog.oneFile).run
        (reopened LevelDb.table MogConfig.oneBlock 2 fun _ _ => 0) (bothAtOnce.take 13) =
          some fleet ∧
      (fleet.workers 1).pc.atRest = false ∧
      ∃ more final, (machine Mog.powerHash LevelDb.table MogConfig.oneBlock Mog.oneFile).run fleet
          more = some final ∧
        (final.workers 1).pc.atRest = true ∧ final.workers 0 = fleet.workers 0 := by
  have executed : ∃ fleet,
      (machine Mog.powerHash LevelDb.table MogConfig.oneBlock Mog.oneFile).run
        (reopened LevelDb.table MogConfig.oneBlock 2 fun _ _ => 0) (bothAtOnce.take 13) =
          some fleet ∧
      (fleet.workers 1).pc.atRest = false := ⟨_, rfl, rfl⟩
  obtain ⟨fleet, ran, running⟩ := executed
  obtain ⟨more, final, later, returned, others, -⟩ :=
    call_returns (by decide) rfl ⟨by decide, by decide⟩ ran 1
  exact ⟨fleet, ran, running, more, final, later, returned, others 0 (by decide)⟩

end Fleet

end CudaDb
