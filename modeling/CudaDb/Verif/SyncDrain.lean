import CudaDb.Lib.Packing
import CudaDb.Verif.BufferPacking
import CudaDb.Verif.FlushCommute
import CudaDb.Verif.WriteProgress

/-!
# What a sync leaves

`sync` takes no lock, so its callers keep it apart from other calls; the flush threads run all the
same. Then every block is scheduled or being filled. From its start to its return a call packs the
queue from the front into blocks with new ids, each the longest prefix that fits, and waits for the
flushes of these blocks and of those that were scheduled before. A rank that every step lowers
bounds its length.
-/

namespace CudaDb

namespace WriteBuffer

/-- The call is one of `sync` that has not returned. -/
def Pc.Syncing : Pc → Prop
  | .syncOuter | .syncInner _ | .syncDrain => True
  | _ => False

/-- Whether a call is one of `sync` can be checked. -/
instance Pc.decidableSyncing : DecidablePred Pc.Syncing
  | .syncOuter | .syncInner _ | .syncDrain => isTrue trivial
  | .waitTotal _ _ | .waitSsd _ _ | .locked _ _ | .returned _ => isFalse id

/-- Whether a call has returned can be checked. -/
instance Pc.decidableReturned (pc : Pc) : Decidable (∃ status, pc = .returned status) :=
  match pc with
  | .returned status => isTrue ⟨status, rfl⟩
  | .waitTotal _ _ | .waitSsd _ _ | .locked _ _ | .syncOuter | .syncInner _ | .syncDrain =>
    isFalse (by rintro ⟨status, same⟩; cases same)

/-- A call of `sync` is not one of `write`. -/
theorem not_syncing_write (key : String) (value : List UInt8) : ¬ (write key value).Syncing := by
  unfold write
  split <;> exact id

/-- Unless a call is one of `sync`, the pending blocks are the scheduled ones. -/
theorem pendingAt_of_not_syncing (buffer : WriteBuffer) {pc : Pc} (other : ¬ pc.Syncing) :
    buffer.pendingAt pc = buffer.flushThreadPool := by
  cases pc with
  | syncInner newBlockSize => exact absurd trivial other
  | _ => rfl

/-- A call of `write` does not become one of `sync`. -/
theorem step_not_syncing {hash : String → UInt64} {buffer next : WriteBuffer} {ssdFull : Bool}
    {pc after : Pc} (other : ¬ pc.Syncing)
    (stepped : buffer.step hash ssdFull pc = some (after, next)) : ¬ after.Syncing := by
  cases pc with
  | waitTotal key value | waitSsd key value =>
    simp only [step] at stepped
    split at stepped
    all_goals cases stepped
    exact id
  | locked key value =>
    obtain ⟨⟨status, written⟩, -, same⟩ := Option.map_eq_some_iff.mp stepped
    obtain ⟨rfl, -⟩ := Prod.mk.inj same
    exact id
  | returned status => cases stepped
  | _ => exact absurd trivial other

/-! ## The steps of a sync -/

variable {hash : String → UInt64} {buffer next : WriteBuffer} {pc after : Pc} {ssdFull : Bool}
  {pending : List Nat}

/-- What a step of a call of `sync` can do. -/
theorem step_sync_cases (coherent : buffer.Coherent hash pending) (syncing : pc.Syncing)
    (stepped : buffer.step hash ssdFull pc = some (after, next)) :
    (pc = .syncOuter ∧ buffer.kvList = [] ∧ after = .syncDrain ∧ next = buffer) ∨
    (pc = .syncOuter ∧ buffer.kvList ≠ [] ∧ after = .syncInner 0 ∧ next = buffer.openBlock) ∨
    (∃ newBlockSize, pc = .syncInner newBlockSize ∧ after = .syncOuter ∧ next = buffer.schedule ∧
      ∀ info ∈ (buffer.kvList.map buffer.kvStore.slot).head?,
        (buffer.blockCapacity : Int) < newBlockSize + slabOf info) ∨
    (∃ newBlockSize hashed rest info, pc = .syncInner newBlockSize ∧
      buffer.kvList = hashed :: rest ∧ buffer.kvStore.lookup hashed = some info ∧
      newBlockSize + slabSize info.valueLengthType ≤ buffer.blockCapacity ∧
      after = .syncInner (newBlockSize + slabSize info.valueLengthType) ∧
      next = buffer.moveFront rest info) ∨
    (pc = .syncDrain ∧ buffer.flushThreadPool = [] ∧ after = .returned 0 ∧ next = buffer) := by
  cases pc with
  | syncOuter =>
    simp only [step] at stepped
    split at stepped
    · next empty =>
      cases stepped
      exact Or.inl ⟨rfl, empty, rfl, rfl⟩
    · next queued =>
      cases stepped
      exact Or.inr (Or.inl ⟨rfl, queued, rfl, rfl⟩)
  | syncInner newBlockSize =>
    simp only [step] at stepped
    split at stepped
    · next empty =>
      cases stepped
      refine Or.inr (Or.inr (Or.inl ⟨newBlockSize, rfl, rfl, rfl, fun info first => ?_⟩))
      rw [empty] at first
      cases first
    · next hashed rest front =>
      obtain ⟨info, found, packed⟩ := packFront_cases coherent front newBlockSize
      rw [packed] at stepped
      by_cases full : newBlockSize + slabSize info.valueLengthType > buffer.blockCapacity
      · rw [if_pos full] at stepped
        cases stepped
        refine Or.inr (Or.inr (Or.inl ⟨newBlockSize, rfl, rfl, rfl, fun other first => ?_⟩))
        rw [front, List.map_cons, List.head?_cons, Table.slot_of_lookup found] at first
        obtain rfl := Option.some.inj first
        have slab : slabOf info = slabSize info.valueLengthType := rfl
        omega
      · rw [if_neg full] at stepped
        cases stepped
        exact Or.inr (Or.inr (Or.inr (Or.inl
          ⟨newBlockSize, hashed, rest, info, rfl, front, found, not_lt.mp full, rfl, rfl⟩)))
  | syncDrain =>
    simp only [step] at stepped
    split at stepped
    · next empty =>
      cases stepped
      exact Or.inr (Or.inr (Or.inr (Or.inr ⟨rfl, empty, rfl, rfl⟩)))
    · cases stepped
  | _ => exact absurd syncing id

/-- The entries of the block that a call of `sync` is filling. -/
def filling (buffer : WriteBuffer) : Pc → List KvInfo
  | .syncInner _ => buffer.blocks.slot buffer.latestBlockId
  | _ => []

/-- The number of blocks that a call of `sync` has opened and not scheduled. -/
def Pc.opened : Pc → Nat
  | .syncInner _ => 1
  | _ => 0

/-- A bound for the steps that a call of `sync` and the flushes can still take. -/
def rank (buffer : WriteBuffer) : Pc → Nat
  | .syncOuter => 4 * buffer.kvList.length + 2 + buffer.flushThreadPool.length
  | .syncInner newBlockSize =>
    4 * buffer.kvList.length + (if buffer.filling (.syncInner newBlockSize) = [] then 1 else 4) +
      buffer.flushThreadPool.length
  | .syncDrain => 1 + buffer.flushThreadPool.length
  | _ => buffer.flushThreadPool.length

/-- A block with an id above the newest one has no entries. -/
theorem Coherent.slot_above (coherent : buffer.Coherent hash pending) {blockId : Nat}
    (above : buffer.latestBlockId < blockId) : buffer.blocks.slot blockId = [] := by
  cases block : buffer.blocks.lookup blockId with
  | none =>
    rw [Table.slot, block]
    rfl
  | some entries =>
    have old := coherent.ids.2 blockId (coherent.packed blockId entries block).1
    omega

/-- No slab size is negative. -/
theorem slabOf_nonneg (info : KvInfo) : 0 ≤ slabOf info := Int.natCast_nonneg _

/-- The slab of a stored entry is at most the largest one. -/
theorem Coherent.slabOf_le (coherent : buffer.Coherent hash pending) {hashed : UInt64}
    {info : KvInfo} (found : buffer.kvStore.lookup hashed = some info) :
    slabOf info ≤ slabSize 10 := by
  obtain ⟨-, short, type⟩ := coherent.entries hashed info found
  have small : info.valueLengthType ≤ 10 := by
    rw [type]
    exact slabType_le_ten.mpr short
  have bound : slabSize info.valueLengthType ≤ slabSize 10 := slabSize_le small
  exact Int.ofNat_le.mpr bound

end WriteBuffer

/-- A flush keeps the buffer coherent with what is pending, wherever a call stands. -/
theorem Storage.runFlush_pendingAt {Db : Type*} {hash : String → UInt64} {leveldb : LevelDb Db}
    {storage next : Storage Db} {blockId : Nat} {pc : WriteBuffer.Pc}
    (coherent : storage.buffer.Coherent hash (storage.buffer.pendingAt pc))
    (ran : storage.runFlush hash leveldb blockId = some next) :
    next.buffer.Coherent hash (next.buffer.pendingAt pc) := by
  obtain ⟨scheduled, rfl⟩ := runFlush_eq_some.mp ran
  have flushed : (Storage.flush hash leveldb blockId { storage with
      buffer := { storage.buffer with
        flushThreadPool := storage.buffer.flushThreadPool.erase blockId } }).buffer.Coherent hash
      ((storage.buffer.pendingAt pc).erase blockId) :=
    flush_buffer leveldb blockId (coherent.withPool _)
  rw [← pendingAt_erase scheduled pc] at flushed
  cases pc <;> exact flushed

/-! ## What a sync keeps -/

namespace Storage

open WriteBuffer (Pc slabOf)

variable {Db : Type*} {hash : String → UInt64} {leveldb : LevelDb Db}
  {before storage next : Storage Db} {pc after : Pc} {history : List (Nat × List KvInfo)}

/-- The history of the scheduled blocks when a call of `sync` goes back to its outer loop, which it
does from scheduling the newest block. -/
def grown (history : List (Nat × List KvInfo)) (buffer : WriteBuffer) :
    Pc → List (Nat × List KvInfo)
  | .syncOuter => history ++ [(buffer.latestBlockId, buffer.blocks.slot buffer.latestBlockId)]
  | _ => history

/-- The history of the blocks that a call of `sync` schedules, with their entries. -/
def scheduleStep (hash : String → UInt64) (history : List (Nat × List KvInfo))
    (buffer : WriteBuffer) (pc : Pc) (ssdFull : Bool) : List (Nat × List KvInfo) :=
  match buffer.step hash ssdFull pc with
  | some (after, _) => grown history buffer after
  | none => history

/-- What holds while a call of `sync` that began at `before` runs. -/
structure Draining (hash : String → UInt64) (leveldb : LevelDb Db) (before : Storage Db)
    (storage : Storage Db) (pc : Pc) (history : List (Nat × List KvInfo)) : Prop where
  /-- The buffer is coherent. -/
  coherent : storage.buffer.Coherent hash (storage.buffer.pendingAt pc)
  /-- The size of a block stays. -/
  capacity : storage.buffer.blockCapacity = before.buffer.blockCapacity
  /-- The queue at the start is what was scheduled, what is being filled and what is left. -/
  entries : before.buffer.kvList.map before.buffer.kvStore.slot =
    history.flatMap Prod.snd ++
      (storage.buffer.filling pc ++ storage.buffer.kvList.map storage.buffer.kvStore.slot)
  /-- The scheduled blocks are longest prefixes. -/
  packed : Packing.Packed slabOf before.buffer.blockCapacity (history.map Prod.snd)
    (storage.buffer.filling pc ++ storage.buffer.kvList.map storage.buffer.kvStore.slot)
  /-- Their ids are consecutive. -/
  ids : history.map Prod.fst = List.range' (before.buffer.latestBlockId + 1) history.length
  /-- The next block gets the next id. -/
  latest : storage.buffer.latestBlockId =
    before.buffer.latestBlockId + history.length + pc.opened
  /-- The size of the block that is being filled fits, and something is left if it is empty. -/
  size : ∀ newBlockSize, pc = .syncInner newBlockSize →
    (newBlockSize : Int) = Packing.weight slabOf (storage.buffer.filling pc) ∧
    newBlockSize ≤ storage.buffer.blockCapacity ∧
    (storage.buffer.filling pc = [] → storage.buffer.kvList ≠ [])
  /-- Every entry is still stored or its key is in the index. -/
  indexed : ∀ hashed info, before.buffer.kvStore.lookup hashed = some info →
    storage.buffer.kvStore.lookup hashed = some info ∨
      ∃ record, CentraIndex.getInfo leveldb storage.db info.key = some record
  /-- After its loops the call has emptied the queue. -/
  emptied : pc = .syncDrain → storage.buffer.kvList = []
  /-- The call is running, or it has returned with everything flushed. -/
  running : pc.Syncing ∨
    pc = .returned 0 ∧ storage.buffer.kvList = [] ∧ storage.buffer.flushThreadPool = []

/-- A call of `sync` begins. -/
theorem start_draining (coherent : before.buffer.Coherent hash before.buffer.flushThreadPool) :
    Draining hash leveldb before before WriteBuffer.sync [] where
  coherent := coherent
  capacity := rfl
  entries := rfl
  packed := trivial
  ids := rfl
  latest := rfl
  size := fun _ same => by cases same
  indexed := fun _ _ found => Or.inl found
  emptied := fun same => by cases same
  running := Or.inl trivial

/-- A step of the call. -/
theorem step_draining (enough : slabSize 10 ≤ before.buffer.blockCapacity)
    (draining : Draining hash leveldb before storage pc history) (syncing : pc.Syncing)
    {ssdFull : Bool} {buffer : WriteBuffer}
    (stepped : storage.buffer.step hash ssdFull pc = some (after, buffer)) :
    Draining hash leveldb before { storage with buffer } after
        (scheduleStep hash history storage.buffer pc ssdFull) ∧
      buffer.rank after < storage.buffer.rank pc := by
  have short : pc.Short := by
    intro key value call
    cases pc <;> first | exact absurd syncing id | cases call
  have kept := (WriteBuffer.step_kept draining.coherent short stepped).1.coherent
  have logged : scheduleStep hash history storage.buffer pc ssdFull =
      grown history storage.buffer after := by
    rw [scheduleStep, stepped]
  rw [logged]
  rcases WriteBuffer.step_sync_cases draining.coherent syncing stepped with
    ⟨rfl, empty, rfl, rfl⟩ | ⟨rfl, queued, rfl, rfl⟩ | ⟨newBlockSize, rfl, rfl, rfl, exceeds⟩ |
    ⟨newBlockSize, hashed, rest, info, rfl, front, found, fits, rfl, rfl⟩ | ⟨rfl, empty, rfl, rfl⟩
  · refine ⟨⟨kept, draining.capacity, draining.entries, draining.packed, draining.ids,
      draining.latest, fun _ same => (by cases same), draining.indexed, fun _ => empty,
      Or.inl trivial⟩, ?_⟩
    simp only [WriteBuffer.rank]
    omega
  · have made : storage.buffer.openBlock.filling (.syncInner 0) = [] :=
      draining.coherent.slot_above (Nat.lt_succ_self _)
    refine ⟨⟨kept, draining.capacity, ?_, ?_, draining.ids, ?_, ?_, draining.indexed,
      fun same => (by cases same), Or.inl trivial⟩, ?_⟩
    · rw [made]
      exact draining.entries
    · rw [made]
      exact draining.packed
    · change storage.buffer.latestBlockId + 1 = _
      rw [draining.latest]
      rfl
    · rintro _ ⟨⟩
      rw [made]
      exact ⟨rfl, Nat.zero_le _, fun _ => queued⟩
    · rw [WriteBuffer.rank, WriteBuffer.rank, if_pos made]
      change 4 * storage.buffer.kvList.length + 1 + storage.buffer.flushThreadPool.length <
        4 * storage.buffer.kvList.length + 2 + storage.buffer.flushThreadPool.length
      omega
  · obtain ⟨weight, room, left⟩ := draining.size newBlockSize rfl
    have nonempty : storage.buffer.filling (.syncInner newBlockSize) ≠ [] := by
      intro empty
      obtain ⟨hashed, rest, front⟩ := List.exists_cons_of_ne_nil (left empty)
      obtain ⟨info, found⟩ := draining.coherent.lookup_queued (front ▸ List.mem_cons_self)
      have bound := draining.coherent.slabOf_le found
      have large := exceeds info (by
        rw [front, List.map_cons, List.head?_cons, Table.slot_of_lookup found]
        rfl)
      rw [empty, Packing.weight_nil] at weight
      have same := draining.capacity
      omega
    have fit : Packing.LongestFit slabOf before.buffer.blockCapacity
        (storage.buffer.filling (.syncInner newBlockSize))
        (storage.buffer.filling (.syncInner newBlockSize) ++
          storage.buffer.kvList.map storage.buffer.kvStore.slot) := by
      refine Packing.longestFit_of_next WriteBuffer.slabOf_nonneg ?_ fun info first => ?_
      · rw [← weight, ← draining.capacity]
        exact_mod_cast room
      · rw [← weight, ← draining.capacity]
        exact exceeds info first
    have recorded : grown history storage.buffer .syncOuter = history ++
        [(storage.buffer.latestBlockId, storage.buffer.filling (.syncInner newBlockSize))] := rfl
    rw [recorded]
    refine ⟨⟨kept, draining.capacity, ?_, ?_, ?_, ?_, fun _ same => (by cases same),
      draining.indexed, fun same => (by cases same), Or.inl trivial⟩, ?_⟩
    · rw [draining.entries, List.flatMap_append, List.flatMap_singleton, List.append_assoc]
      rfl
    · rw [List.map_append, List.map_singleton]
      exact draining.packed.snoc nonempty fit
    · rw [List.map_append, List.map_singleton, draining.ids, List.length_append,
        List.length_singleton, List.range'_concat, draining.latest, Nat.one_mul,
        Nat.add_right_comm]
      rfl
    · rw [List.length_append, List.length_singleton]
      exact draining.latest
    · rw [WriteBuffer.rank, WriteBuffer.rank, if_neg nonempty]
      change 4 * storage.buffer.kvList.length + 2 +
          (storage.buffer.flushThreadPool ++ [storage.buffer.latestBlockId]).length <
        4 * storage.buffer.kvList.length + 4 + storage.buffer.flushThreadPool.length
      rw [List.length_append, List.length_singleton]
      omega
  · obtain ⟨weight, -, -⟩ := draining.size newBlockSize rfl
    have grown_block : (storage.buffer.moveFront rest info).filling
        (.syncInner (newBlockSize + slabSize info.valueLengthType)) =
        storage.buffer.filling (.syncInner newBlockSize) ++ [info] :=
      Table.slot_of_lookup (Finmap.lookup_insert _)
    have nonempty : storage.buffer.filling (.syncInner newBlockSize) ++ [info] ≠ [] :=
      List.append_ne_nil_of_right_ne_nil _ (List.cons_ne_nil _ _)
    have queue : storage.buffer.filling (.syncInner newBlockSize) ++
        storage.buffer.kvList.map storage.buffer.kvStore.slot =
        (storage.buffer.filling (.syncInner newBlockSize) ++ [info]) ++
          rest.map storage.buffer.kvStore.slot := by
      rw [front, List.map_cons, Table.slot_of_lookup found, List.append_assoc,
        List.singleton_append]
    refine ⟨⟨kept, draining.capacity, ?_, ?_, draining.ids, draining.latest, ?_,
      draining.indexed, fun same => (by cases same), Or.inl trivial⟩, ?_⟩
    · rw [grown_block, draining.entries, queue]
      rfl
    · have packed := draining.packed
      rw [queue] at packed
      rw [grown_block]
      exact packed
    · rintro _ ⟨⟩
      rw [grown_block, Packing.weight_append, Packing.weight_singleton, ← weight]
      exact ⟨Nat.cast_add _ _, fits, fun empty => absurd empty nonempty⟩
    · rw [WriteBuffer.rank, grown_block, if_neg nonempty, WriteBuffer.rank, front, List.length_cons]
      change 4 * rest.length + 4 + storage.buffer.flushThreadPool.length <
        4 * (rest.length + 1) + _ + storage.buffer.flushThreadPool.length
      split <;> omega
  · refine ⟨⟨kept, draining.capacity, draining.entries, draining.packed, draining.ids,
      draining.latest, fun _ same => (by cases same), draining.indexed, fun same => (by cases same),
      Or.inr ⟨rfl, draining.emptied rfl, empty⟩⟩, ?_⟩
    simp only [WriteBuffer.rank]
    omega

/-- A flush of a scheduled block during the call. -/
theorem runFlush_draining {blockId : Nat}
    (draining : Draining hash leveldb before storage pc history)
    (ran : storage.runFlush hash leveldb blockId = some next) :
    Draining hash leveldb before next pc history ∧
      next.buffer.rank pc < storage.buffer.rank pc := by
  have kept := runFlush_pendingAt draining.coherent ran
  obtain ⟨scheduled, rfl⟩ := runFlush_eq_some.mp ran
  let taken : Storage Db := { storage with buffer := { storage.buffer with
    flushThreadPool := storage.buffer.flushThreadPool.erase blockId } }
  have coherent : taken.buffer.Coherent hash (storage.buffer.pendingAt pc) :=
    draining.coherent.withPool _
  have shorter := List.length_erase_of_mem scheduled
  have positive := List.length_pos_of_mem scheduled
  have queue : taken.buffer.kvList.map (taken.flush hash leveldb blockId).buffer.kvStore.slot =
      storage.buffer.kvList.map storage.buffer.kvStore.slot := by
    apply List.map_congr_left
    intro hashed queued
    have stays : (taken.flush hash leveldb blockId).buffer.kvStore.lookup hashed =
        storage.buffer.kvStore.lookup hashed :=
      flush_kept ((block_apart coherent blockId).2.1 hashed queued)
    rw [Table.slot, stays, Table.slot]
  have filling : (taken.flush hash leveldb blockId).buffer.filling pc =
      storage.buffer.filling pc := by
    cases pc with
    | syncInner newBlockSize =>
      have distinct := draining.coherent.ids.1
      have apart : storage.buffer.latestBlockId ≠ blockId := by
        intro same
        rw [WriteBuffer.pendingAt, ← List.concat_eq_append, List.nodup_concat, same] at distinct
        exact distinct.1 scheduled
      exact @flush_entriesOf _ hash leveldb taken blockId _ apart
    | _ => rfl
  refine ⟨⟨kept, draining.capacity, ?_, ?_, draining.ids, draining.latest, ?_, ?_,
    draining.emptied, ?_⟩, ?_⟩
  · rw [filling]
    exact draining.entries.trans (congrArg _ (congrArg _ queue.symm))
  · rw [filling]
    have packed := draining.packed
    rw [← queue] at packed
    exact packed
  · rw [filling]
    exact draining.size
  · intro hashed info found
    have known := flush_index taken hash leveldb blockId info.key
    rcases draining.indexed hashed info found with stored | ⟨record, old⟩
    · by_cases erased : hashed ∈ (taken.entriesOf blockId).map fun entry => hash entry.key
      · obtain ⟨entry, inside, rfl⟩ := List.mem_map.mp erased
        have own := entry_stored coherent inside
        obtain rfl := Option.some.inj (own.symm.trans stored)
        rcases known with ⟨_, -, -, record, written, -⟩ | ⟨other, -⟩
        · exact Or.inr ⟨record, written⟩
        · exact absurd rfl (other entry inside)
      · left
        rw [flush_kept erased]
        exact stored
    · right
      rcases known with ⟨_, -, -, new, written, -⟩ | ⟨-, unchanged⟩
      · exact ⟨new, written⟩
      · exact ⟨record, unchanged.trans old⟩
  · refine draining.running.imp id fun ended => ?_
    rw [ended.2.2] at scheduled
    exact absurd scheduled List.not_mem_nil
  · have fewer : (storage.buffer.flushThreadPool.erase blockId).length <
        storage.buffer.flushThreadPool.length := by omega
    cases pc with
    | syncInner newBlockSize =>
      rw [WriteBuffer.rank, WriteBuffer.rank, filling]
      exact Nat.add_lt_add_left fewer _
    | syncOuter | syncDrain => exact Nat.add_lt_add_left fewer _
    | _ => exact fewer

/-- What a call of `sync` that began at `before` has done when it returns, if it has scheduled the
blocks of the history. -/
structure Synced (leveldb : LevelDb Db) (before : Storage Db)
    (history : List (Nat × List KvInfo)) (after : Storage Db) : Prop where
  /-- The ids of the blocks are consecutive. -/
  ids : history.map Prod.fst = List.range' (before.buffer.latestBlockId + 1) history.length
  /-- They are new. -/
  fresh : ∀ blockId ∈ history.map Prod.fst,
    blockId ∉ before.buffer.blocks ∧ blockId ∉ before.buffer.flushThreadPool
  /-- The entries of all blocks are the records of the queue, in its order. -/
  records : before.buffer.kvList.map before.buffer.kvStore.lookup =
    (history.flatMap Prod.snd).map some
  /-- No block is empty, and each is the longest prefix of the remaining queue that fits. -/
  packed : Packing.Packed slabOf before.buffer.blockCapacity (history.map Prod.snd) []
  /-- Nothing is queued. -/
  kvList : after.buffer.kvList = []
  /-- Nothing is stored. -/
  kvStore : after.buffer.kvStore = ∅
  /-- No block is left. -/
  blocks : after.buffer.blocks = ∅
  /-- The total is 0. -/
  totalSize : after.buffer.totalSize = 0
  /-- So is the total of what waits. -/
  totalSizeWithoutBlock : after.buffer.totalSizeWithoutBlock = 0
  /-- Every key that was buffered is in the index. -/
  indexed : ∀ hashed info, before.buffer.kvStore.lookup hashed = some info →
    ∃ record, CentraIndex.getInfo leveldb after.db info.key = some record

/-- A call that has returned has synced everything. -/
theorem Draining.synced (coherent : before.buffer.Coherent hash before.buffer.flushThreadPool)
    {status : Int} (draining : Draining hash leveldb before storage (.returned status) history) :
    Synced leveldb before history storage := by
  obtain ⟨-, empty, pool⟩ := draining.running.resolve_left id
  have quiet : storage.buffer.Coherent hash [] := by
    have last := draining.coherent
    rwa [pendingAt_returned rfl, pool] at last
  have blocks := quiet.no_blocks
  have kvStore : storage.buffer.kvStore = ∅ := by
    have queued := quiet.queued
    rw [empty, blocks] at queued
    apply Finmap.ext_lookup
    intro hashed
    rw [Finmap.lookup_empty]
    apply Finmap.lookup_eq_none.mpr
    intro present
    have key : hashed ∈ storage.buffer.kvStore.keys.val := Finmap.mem_keys.mpr present
    rw [← queued] at key
    exact Multiset.notMem_zero _ key
  have entries := draining.entries
  have packed := draining.packed
  have filling : storage.buffer.filling (.returned status) = [] := rfl
  rw [empty, filling, List.map_nil, List.append_nil] at entries packed
  rw [List.append_nil] at entries
  refine ⟨draining.ids, fun blockId listed => ?_, ?_, packed, empty, kvStore, blocks, ?_, ?_,
    fun hashed info found => ?_⟩
  · rw [draining.ids] at listed
    have above := (List.mem_range'_1.mp listed).1
    constructor
    · intro member
      obtain ⟨entries, block⟩ := Finmap.mem_iff.mp member
      have old := coherent.ids.2 blockId (coherent.packed blockId entries block).1
      omega
    · intro member
      have old := coherent.ids.2 blockId member
      omega
  · rw [coherent.records, entries]
  · rw [quiet.total, kvStore]
    rfl
  · rw [quiet.waiting, empty]
    rfl
  · refine (draining.indexed hashed info found).resolve_left fun stored => ?_
    rw [kvStore] at stored
    cases stored

end Storage

namespace Writers

open WriteBuffer (Pc)

variable {Thread Db : Type*} [DecidableEq Thread] {hash : String → UInt64} {leveldb : LevelDb Db}
  {writers next : Writers Thread Db} {event : Event Thread} {thread : Thread}

/-- A call of `sync` begins when no other call is in progress, and no call of `write` begins while
one of `sync` is. -/
def Apart (writers : Writers Thread Db) : Event Thread → Prop
  | .sync _ => ∀ other, ∃ status, writers.calls other = .returned status
  | .write _ _ _ => ∀ other, ¬ (writers.calls other).Syncing
  | _ => True

/-- What holds when calls of `sync` are kept apart from others. -/
structure Orderly (hash : String → UInt64) (writers : Writers Thread Db) : Prop where
  /-- The calls carry short values. -/
  short : ∀ thread, (writers.calls thread).Short
  /-- During a call of `sync` no other call is in progress. -/
  alone : ∀ thread, (writers.calls thread).Syncing →
    ∀ other, other ≠ thread → ∃ status, writers.calls other = .returned status
  /-- The buffer is coherent with what is pending where the only call of `sync` stands. -/
  coherent : ∀ thread, (∀ other, other ≠ thread → ¬ (writers.calls other).Syncing) →
    writers.storage.buffer.Coherent hash
      (writers.storage.buffer.pendingAt (writers.calls thread))

omit [DecidableEq Thread] in
/-- A returned call is not one of `sync`. -/
theorem not_syncing_of_returned {pc : Pc} (returned : ∃ status, pc = .returned status) :
    ¬ pc.Syncing := by
  obtain ⟨status, rfl⟩ := returned
  exact id

/-- A step of a call keeps order. -/
theorem step_call_orderly {ssdFull : Bool} {pc : Pc} {buffer : WriteBuffer}
    (orderly : writers.Orderly hash)
    (taken : writers.storage.buffer.step hash ssdFull (writers.calls thread) = some (pc, buffer)) :
    Orderly hash { storage := { writers.storage with buffer },
                   calls := Function.update writers.calls thread pc } := by
  have short : pc.Short := fun key value call =>
    orderly.short thread key value (WriteBuffer.step_call taken call)
  have running : ¬ ∃ status, writers.calls thread = .returned status := by
    rintro ⟨status, returned⟩
    rw [returned] at taken
    cases taken
  -- A call that is in progress is not disturbed by one of `sync`.
  have others : ∀ other, other ≠ thread → ¬ (writers.calls other).Syncing := by
    intro other apart syncing
    exact running (orderly.alone other syncing thread apart.symm)
  have kept := (WriteBuffer.step_kept (orderly.coherent thread others) (orderly.short thread)
    taken).1.coherent
  refine ⟨Threads.forall_update Pc.Short short orderly.short, fun first syncing second apart => ?_,
    fun first only => ?_⟩
  · dsimp only at syncing ⊢
    have here : first = thread := by
      by_contra elsewhere
      rw [Function.update_of_ne elsewhere] at syncing
      exact others first elsewhere syncing
    rw [here] at syncing apart
    rw [Function.update_self] at syncing
    rw [Function.update_of_ne apart]
    have before : (writers.calls thread).Syncing := by
      by_contra other
      exact WriteBuffer.step_not_syncing other taken syncing
    exact orderly.alone thread before second apart
  · dsimp only at only ⊢
    by_cases here : first = thread
    · rw [here, Function.update_self]
      exact kept
    · have returned : ¬ pc.Syncing := by
        have moved := only thread (fun same => here same.symm)
        rwa [Function.update_self] at moved
      rw [WriteBuffer.pendingAt_of_not_syncing _ returned] at kept
      rw [Function.update_of_ne here, WriteBuffer.pendingAt_of_not_syncing _ (others first here)]
      exact kept

/-- Every event keeps order, if calls of `sync` are kept apart. -/
theorem step_orderly (orderly : writers.Orderly hash) (apart : writers.Apart event)
    (stepped : (machine hash leveldb).step writers event = some next) : next.Orderly hash := by
  cases event with
  | write thread key value =>
    simp only [machine] at stepped
    split at stepped
    · next status idle =>
      obtain rfl := Option.some.inj stepped
      have starts : (WriteBuffer.write key value).Short :=
        fun _ _ call => (WriteBuffer.write_call call).2.2
      have apart : ∀ other, ¬ (writers.calls other).Syncing := apart
      have none_syncing : ∀ other,
          ¬ (Function.update writers.calls thread (WriteBuffer.write key value) other).Syncing :=
        Threads.forall_update (fun pc : Pc => ¬ pc.Syncing)
          (WriteBuffer.not_syncing_write key value) apart
      refine ⟨Threads.forall_update Pc.Short starts orderly.short,
        fun first syncing => absurd syncing (none_syncing first), fun first _ => ?_⟩
      dsimp only
      have before := orderly.coherent first fun other _ => apart other
      rw [WriteBuffer.pendingAt_of_not_syncing _ (apart first)] at before
      rw [WriteBuffer.pendingAt_of_not_syncing _ (none_syncing first)]
      exact before
    · cases stepped
  | sync thread =>
    simp only [machine] at stepped
    split at stepped
    · obtain rfl := Option.some.inj stepped
      have apart : ∀ other, ∃ status, writers.calls other = .returned status := apart
      have starts : WriteBuffer.sync.Short := fun _ _ call => by cases call
      refine ⟨Threads.forall_update Pc.Short starts orderly.short,
        fun first syncing second elsewhere => ?_, fun first _ => ?_⟩
      · dsimp only at syncing ⊢
        have here : first = thread := by
          by_contra other
          rw [Function.update_of_ne other] at syncing
          exact not_syncing_of_returned (apart first) syncing
        rw [here] at elsewhere
        rw [Function.update_of_ne elsewhere]
        exact apart second
      · have before := orderly.coherent first fun other _ => not_syncing_of_returned (apart other)
        have idle := not_syncing_of_returned (apart first)
        rw [WriteBuffer.pendingAt_of_not_syncing _ idle] at before
        dsimp only
        by_cases here : first = thread
        · rw [here, Function.update_self]
          exact before
        · rw [Function.update_of_ne here,
            WriteBuffer.pendingAt_of_not_syncing _ (not_syncing_of_returned (apart first))]
          exact before
    · cases stepped
  | step thread ssdFull =>
    obtain ⟨⟨pc, buffer⟩, taken, rfl⟩ := Option.map_eq_some_iff.mp stepped
    exact step_call_orderly orderly taken
  | flush blockId =>
    obtain ⟨storage, ran, rfl⟩ := Option.map_eq_some_iff.mp stepped
    exact ⟨orderly.short, orderly.alone, fun thread only =>
      Storage.runFlush_pendingAt (orderly.coherent thread only) ran⟩

/-- In every run in which calls of `sync` are kept apart, order is kept. -/
theorem run_orderly {pageSize pagePerBlock pageNum : Nat} {events : List (Event Thread)}
    (apart : (machine hash leveldb).Along Apart (start leveldb pageSize pagePerBlock pageNum)
      events)
    (ran : (machine hash leveldb).run (start leveldb pageSize pagePerBlock pageNum) events =
      some writers) : writers.Orderly hash := by
  refine Machine.run_invariant_along (fun writers => writers.Orderly hash)
    (fun _ _ _ orderly apart stepped => step_orderly orderly apart stepped) ?_ apart ran
  exact ⟨fun _ _ _ call => (by cases call), fun _ syncing => absurd syncing id, fun _ _ =>
    WriteBuffer.initial_coherent rfl rfl rfl pageSize pagePerBlock pageNum⟩

/-- What can happen in a call of `sync`: its steps, and flushes. -/
def OfSync (thread : Thread) : Event Thread → Prop
  | .step other _ => other = thread
  | .flush _ => True
  | _ => False

/-- The history of the blocks that calls of `sync` schedule. -/
def schedules (hash : String → UInt64) (history : List (Nat × List KvInfo))
    (writers : Writers Thread Db) : Event Thread → List (Nat × List KvInfo)
  | .step thread ssdFull =>
    Storage.scheduleStep hash history writers.storage.buffer (writers.calls thread) ssdFull
  | _ => history

/-- An event of a call of `sync` keeps what a sync keeps and lowers the rank. -/
theorem step_draining {before : Storage Db} {history last : List (Nat × List KvInfo)}
    (enough : slabSize 10 ≤ before.buffer.blockCapacity)
    (draining : Storage.Draining hash leveldb before writers.storage (writers.calls thread) history)
    (own : OfSync thread event)
    (stepped : ((machine hash leveldb).observed (schedules hash)).step (writers, history) event =
      some (next, last)) :
    Storage.Draining hash leveldb before next.storage (next.calls thread) last ∧
      next.storage.buffer.rank (next.calls thread) <
        writers.storage.buffer.rank (writers.calls thread) := by
  obtain ⟨moved, rfl⟩ := Machine.observed_step.mp stepped
  cases event with
  | write other key value | sync other => exact absurd own id
  | step other ssdFull =>
    obtain rfl : other = thread := own
    obtain ⟨⟨pc, buffer⟩, taken, rfl⟩ := Option.map_eq_some_iff.mp moved
    have syncing : (writers.calls other).Syncing := by
      refine draining.running.resolve_right fun ended => ?_
      rw [ended.1] at taken
      cases taken
    have kept := Storage.step_draining enough draining syncing taken
    dsimp only
    rw [Function.update_self]
    exact kept
  | flush blockId =>
    obtain ⟨storage, ran, rfl⟩ := Option.map_eq_some_iff.mp moved
    exact Storage.runFlush_draining draining ran

/-- The events of a call of `sync` keep what a sync keeps, and each lowers the rank. -/
theorem run_draining {before : Storage Db} {history last : List (Nat × List KvInfo)}
    {later : List (Event Thread)} (enough : slabSize 10 ≤ before.buffer.blockCapacity)
    (draining : Storage.Draining hash leveldb before writers.storage (writers.calls thread) history)
    (own : ∀ event ∈ later, OfSync thread event)
    (ran : ((machine hash leveldb).observed (schedules hash)).run (writers, history) later =
      some (next, last)) :
    Storage.Draining hash leveldb before next.storage (next.calls thread) last ∧
      next.storage.buffer.rank (next.calls thread) + later.length ≤
        writers.storage.buffer.rank (writers.calls thread) := by
  induction later generalizing writers history with
  | nil =>
    obtain ⟨rfl, rfl⟩ := Prod.mk.inj (Option.some.inj ran)
    exact ⟨draining, le_rfl⟩
  | cons event later ih =>
    obtain ⟨⟨middle, logged⟩, stepped, rest⟩ := Machine.run_cons.mp ran
    obtain ⟨here, there⟩ := List.forall_mem_cons.mp own
    obtain ⟨kept, lower⟩ := step_draining enough draining here stepped
    obtain ⟨ended, bound⟩ := ih kept there rest
    refine ⟨ended, ?_⟩
    rw [List.length_cons]
    omega

/-- A call of `sync` that has not returned can take a step, or a scheduled flush can run. -/
theorem sync_goes_on (leveldb : LevelDb Db) (hash : String → UInt64)
    (syncing : (writers.calls thread).Syncing) :
    ∃ event next, OfSync thread event ∧
      (machine hash leveldb).step writers event = some next := by
  by_cases waits : writers.calls thread = .syncDrain ∧
      writers.storage.buffer.flushThreadPool ≠ []
  · obtain ⟨blockId, pool, queue⟩ := List.exists_cons_of_ne_nil waits.2
    have scheduled : blockId ∈ writers.storage.buffer.flushThreadPool := by
      rw [queue]
      exact List.mem_cons_self
    exact ⟨.flush blockId, _, trivial,
      congrArg (Option.map _) (Storage.runFlush_eq_some.mpr ⟨scheduled, rfl⟩)⟩
  · have enabled : ∃ after, writers.storage.buffer.step hash false (writers.calls thread) =
        some after := by
      cases pc : writers.calls thread with
      | syncOuter =>
        simp only [WriteBuffer.step]
        split
        all_goals exact ⟨_, rfl⟩
      | syncInner newBlockSize =>
        simp only [WriteBuffer.step]
        split
        · exact ⟨_, rfl⟩
        · split
          all_goals exact ⟨_, rfl⟩
      | syncDrain =>
        have empty : writers.storage.buffer.flushThreadPool = [] := by
          by_contra left
          exact waits ⟨pc, left⟩
        exact ⟨_, if_pos empty⟩
      | _ =>
        rw [pc] at syncing
        exact absurd syncing id
    obtain ⟨after, taken⟩ := enabled
    exact ⟨.step thread false, _, rfl, congrArg (Option.map _) taken⟩

/-- Whatever is queued and scheduled when `sync` is called, with calls of `sync` kept apart from
others: the call and the flushes that run during it take a bounded number of steps, until the call
returns there is always one, and then the blocks are packed and everything is flushed. -/
theorem sync_drains {pageSize pagePerBlock pageNum : Nat} {events later : List (Event Thread)}
    {called final : Writers Thread Db} {history : List (Nat × List KvInfo)}
    (page : 1 ≤ pagePerBlock)
    (apart : (machine hash leveldb).Along Apart (start leveldb pageSize pagePerBlock pageNum)
      (events ++ [.sync thread]))
    (ran : (machine hash leveldb).run (start leveldb pageSize pagePerBlock pageNum) events =
      some writers)
    (call : (machine hash leveldb).step writers (.sync thread) = some called)
    (own : ∀ event ∈ later, OfSync thread event)
    (went : ((machine hash leveldb).observed (schedules hash)).run (called, []) later =
      some (final, history)) :
    later.length ≤ 4 * writers.storage.buffer.kvList.length + 2 +
        writers.storage.buffer.flushThreadPool.length ∧
    writers.storage.buffer.blockCapacity = pagePerBlock * 1024 * 1024 ∧
    (final.calls thread = .returned 0 ∨ ∃ event next, OfSync thread event ∧
      (machine hash leveldb).step final event = some next) ∧
    (final.calls thread = .returned 0 →
      Storage.Synced leveldb writers.storage history final.storage) := by
  have few : writers.Few hash pagePerBlock := run_few page ran
  obtain ⟨before, quiet⟩ := Machine.along_append ran apart
  have orderly : writers.Orderly hash := run_orderly before ran
  have idle : ∀ other, ¬ (writers.calls other).Syncing := fun other =>
    not_syncing_of_returned (quiet.1 other)
  have coherent := orderly.coherent thread fun other _ => idle other
  rw [WriteBuffer.pendingAt_of_not_syncing _ (idle thread)] at coherent
  simp only [machine] at call
  split at call
  · obtain rfl := Option.some.inj call
    have begun : Storage.Draining hash leveldb writers.storage writers.storage
        (Function.update writers.calls thread WriteBuffer.sync thread) [] := by
      rw [Function.update_self]
      exact Storage.start_draining coherent
    obtain ⟨draining, bound⟩ := run_draining (few.enough page) begun own went
    dsimp only at bound
    rw [Function.update_self] at bound
    refine ⟨(Nat.le_add_left _ _).trans bound, few.capacity, ?_, fun returned => ?_⟩
    · exact (draining.running.imp (sync_goes_on leveldb hash) And.left).symm
    · rw [returned] at draining
      exact draining.synced coherent
  · cases call

/-- What a lone thread calls is kept apart. -/
theorem apart_of_lone [Subsingleton Thread] {events : List (Event Thread)}
    {final : Writers Thread Db} (ran : (machine hash leveldb).run writers events = some final) :
    (machine hash leveldb).Along Apart writers events := by
  induction events generalizing writers with
  | nil => trivial
  | cons event events ih =>
    obtain ⟨next, stepped, rest⟩ := Machine.run_cons.mp ran
    refine ⟨?_, fun other taken => ?_⟩
    · cases event with
      | step | flush => trivial
      | write thread | sync thread =>
        have returned (other : Thread) : ∃ status, writers.calls other = .returned status := by
          rw [Subsingleton.elim other thread]
          simp only [machine] at stepped
          split at stepped
          · next status standing => exact ⟨status, standing⟩
          · cases stepped
        first
        | exact returned
        | exact fun other => not_syncing_of_returned (returned other)
    · obtain rfl := Option.some.inj (stepped.symm.trans taken)
      exact ih rest

/-- A write by a thread that nothing holds up. -/
theorem run_write {key : String} {value : List UInt8} {before status : Int} {buffer : WriteBuffer}
    (free : writers.calls thread = .returned before) (short : ¬ value.length > slabSize 10)
    (below : ¬ writers.storage.buffer.totalSize >
      writers.storage.buffer.maxPageNum * writers.storage.buffer.pageSize)
    (stored : writers.storage.buffer.writeLocked hash key value = some (status, buffer)) :
    (machine hash leveldb).run writers
        (.write thread key value :: List.replicate 3 (.step thread false)) =
      some { storage := { writers.storage with buffer }
             calls := Function.update writers.calls thread (.returned status) } := by
  have begun : WriteBuffer.write key value = .waitTotal key value := if_neg short
  simp only [List.replicate, Machine.run, machine, free, begun, Option.bind_some,
    Function.update_self, WriteBuffer.step, if_neg below, Option.map_some, Function.update_idem,
    stored, Bool.false_eq_true, if_false]

/-- A short value under "a", two largest ones under "bb" and "ccc", and a short one under "dddd". -/
def writeFour : List (Event Unit) :=
  (.write () "a" [1, 2] :: List.replicate 3 (.step () false)) ++
    ((.write () "bb" WriteTraffic.largest :: List.replicate 3 (.step () false)) ++
      ((.write () "ccc" WriteTraffic.largest :: List.replicate 3 (.step () false)) ++
        (.write () "dddd" [3] :: List.replicate 3 (.step () false))))

/-- A call of `sync` packs what is left and returns after the flushes of both blocks. -/
def syncRest : List (Event Unit) :=
  List.replicate 5 (Event.step () false) ++ [Event.flush 2, Event.flush 1, Event.step () false]

/-- Blocks of 2 MiB: the third write packs the first two values, so the `sync` finds two values in
the queue and one flush that has not run. -/
theorem ran_writeFour : ∃ writers called final : Writers Unit _,
    (machine Storage.lengthHash LevelDb.table).run (start LevelDb.table (1024 * 1024) 2 64)
      writeFour = some writers ∧
    writers.storage.buffer.kvList = [3, 4] ∧ writers.storage.buffer.flushThreadPool = [1] ∧
    (machine Storage.lengthHash LevelDb.table).step writers (.sync ()) = some called ∧
    ((machine Storage.lengthHash LevelDb.table).observed (schedules Storage.lengthHash)).run
      (called, []) syncRest =
        some (final, [(2, [⟨"ccc", WriteTraffic.largest, 10⟩, ⟨"dddd", [3], 0⟩])]) ∧
    final.calls () = .returned 0 := by
  have short : ¬ WriteTraffic.largest.length > slabSize 10 := by
    rw [WriteTraffic.largest_length]
    decide
  have steps : ∃ writers : Writers Unit _,
      (machine Storage.lengthHash LevelDb.table).run (start LevelDb.table (1024 * 1024) 2 64)
        (.write () "a" [1, 2] :: List.replicate 3 (.step () false)) = some writers ∧
      writers.calls () = .returned 0 ∧ ¬ writers.storage.buffer.totalSize >
        writers.storage.buffer.maxPageNum * writers.storage.buffer.pageSize ∧
      ∃ second, writers.storage.buffer.writeLocked Storage.lengthHash "bb" WriteTraffic.largest =
        some (0, second) ∧ ¬ second.totalSize > second.maxPageNum * second.pageSize ∧
      ∃ third, second.writeLocked Storage.lengthHash "ccc" WriteTraffic.largest =
        some (0, third) ∧
      ∃ last called final : Writers Unit _,
        (machine Storage.lengthHash LevelDb.table).run
          { storage := { writers.storage with buffer := third }
            calls := Function.update (Function.update writers.calls () (.returned 0)) ()
              (.returned 0) }
          (.write () "dddd" [3] :: List.replicate 3 (.step () false)) = some last ∧
        last.storage.buffer.kvList = [3, 4] ∧ last.storage.buffer.flushThreadPool = [1] ∧
        (machine Storage.lengthHash LevelDb.table).step last (.sync ()) = some called ∧
        ((machine Storage.lengthHash LevelDb.table).observed (schedules Storage.lengthHash)).run
          (called, []) syncRest =
            some (final, [(2, [⟨"ccc", WriteTraffic.largest, 10⟩, ⟨"dddd", [3], 0⟩])]) ∧
        final.calls () = .returned 0 := by
    refine ⟨_, rfl, rfl, by decide, ?_⟩
    unfold WriteBuffer.writeLocked WriteBuffer.store
    rw [WriteTraffic.slabType_largest]
    exact ⟨_, rfl, by decide, _, rfl, _, _, _, rfl, rfl, rfl, rfl, rfl, rfl⟩
  obtain ⟨writers, ran, free, below, second, stored, under, third, packed, last, called, final,
    rest, queue, pool, call, went, returned⟩ := steps
  refine ⟨last, called, final, ?_, queue, pool, call, went, returned⟩
  have two : (machine Storage.lengthHash LevelDb.table).run writers
      (.write () "bb" WriteTraffic.largest :: List.replicate 3 (.step () false)) = some _ :=
    run_write free short below stored
  have again : Function.update writers.calls () (.returned 0) () = .returned 0 :=
    Function.update_self ..
  have three : (machine Storage.lengthHash LevelDb.table).run
      { storage := { writers.storage with buffer := second }
        calls := Function.update writers.calls () (.returned 0) }
      (.write () "ccc" WriteTraffic.largest :: List.replicate 3 (.step () false)) = some _ :=
    run_write again short under packed
  exact Machine.run_append.mpr ⟨writers, ran, Machine.run_append.mpr
    ⟨_, two, Machine.run_append.mpr ⟨_, three, rest⟩⟩⟩

/-- The two values that are left are packed into block 2, and both blocks are flushed. -/
theorem sync_drains_writeFour : ∃ writers called final : Writers Unit _,
    (machine Storage.lengthHash LevelDb.table).run (start LevelDb.table (1024 * 1024) 2 64)
      writeFour = some writers ∧
    writers.storage.buffer.kvList = [3, 4] ∧ writers.storage.buffer.flushThreadPool = [1] ∧
    (machine Storage.lengthHash LevelDb.table).step writers (.sync ()) = some called ∧
    ((machine Storage.lengthHash LevelDb.table).observed (schedules Storage.lengthHash)).run
      (called, []) syncRest =
        some (final, [(2, [⟨"ccc", WriteTraffic.largest, 10⟩, ⟨"dddd", [3], 0⟩])]) ∧
    Storage.Synced LevelDb.table writers.storage
      [(2, [⟨"ccc", WriteTraffic.largest, 10⟩, ⟨"dddd", [3], 0⟩])] final.storage := by
  obtain ⟨writers, called, final, ran, queue, pool, call, went, returned⟩ := ran_writeFour
  have apart : (machine Storage.lengthHash LevelDb.table).Along Apart
      (start LevelDb.table (1024 * 1024) 2 64) (writeFour ++ [.sync ()]) :=
    apart_of_lone (Machine.run_append.mpr ⟨writers, ran, Machine.run_cons.mpr ⟨called, call, rfl⟩⟩)
  have own : ∀ event ∈ syncRest, OfSync () event := by
    intro event member
    cases event with
    | write _ _ _ | sync _ => simp [syncRest] at member
    | step => exact Subsingleton.elim ..
    | flush => exact True.intro
  obtain ⟨-, -, -, drained⟩ := sync_drains (by decide) apart ran call own went
  exact ⟨writers, called, final, ran, queue, pool, call, went, drained returned⟩

end Writers

end CudaDb
