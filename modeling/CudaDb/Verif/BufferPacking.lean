import CudaDb.Verif.BufferRepresentation

/-!
# What a write packs

No more than one block's worth ever waits. So when an accepted write makes more wait than fits
into a block, everything that was waiting before it fits into one: the packing loop moves all of
it, in order of arrival, to a new block, and stops at the entry of the write itself. Whatever calls
of `sync` do in between only lowers what waits.
-/

namespace CudaDb

namespace WriteBuffer

variable {hash : String → UInt64} {buffer next : WriteBuffer} {pending : List Nat}

/-- The sizes that `initial` sets stay. -/
structure SameSizes (buffer next : WriteBuffer) : Prop where
  /-- `page_size` stays. -/
  pageSize : next.pageSize = buffer.pageSize
  /-- `page_per_block` stays. -/
  pagePerBlock : next.pagePerBlock = buffer.pagePerBlock
  /-- `max_page_num` stays. -/
  maxPageNum : next.maxPageNum = buffer.maxPageNum

/-- Entries have moved from the front of the queue, of which `rest` is left, to the newest
block. -/
structure Moves (entries : List KvInfo) (rest : List UInt64) (buffer next : WriteBuffer) :
    Prop where
  /-- What is left of the queue. -/
  kvList : next.kvList = rest
  /-- The newest block has grown by the entries. -/
  newest : next.blocks.slot buffer.latestBlockId =
    buffer.blocks.slot buffer.latestBlockId ++ entries
  /-- The other blocks are as they were. -/
  others : ∀ blockId, blockId ≠ buffer.latestBlockId →
    next.blocks.lookup blockId = buffer.blocks.lookup blockId
  /-- The entries wait no longer. -/
  waiting : next.totalSizeWithoutBlock =
    buffer.totalSizeWithoutBlock - (entries.map slabOf).sum
  /-- The rest of the buffer is as it was. -/
  frame : next = { buffer with
    kvList := next.kvList
    blocks := next.blocks
    totalSizeWithoutBlock := next.totalSizeWithoutBlock }

/-- Moving entries leaves the sizes. -/
theorem Moves.sizes {entries : List KvInfo} {rest : List UInt64}
    (moves : Moves entries rest buffer next) : SameSizes buffer next := by
  rw [moves.frame]
  exact ⟨rfl, rfl, rfl⟩

/-- Moving no entry changes nothing. -/
theorem Moves.refl (buffer : WriteBuffer) : Moves [] buffer.kvList buffer buffer where
  kvList := rfl
  newest := (List.append_nil _).symm
  others := fun _ _ => rfl
  waiting := (sub_zero _).symm
  frame := rfl

/-- Moving the front entry and then others. -/
theorem Moves.cons {info : KvInfo} {entries : List KvInfo} {rest last : List UInt64}
    (later : Moves entries last (buffer.moveFront rest info) next) :
    Moves (info :: entries) last buffer next where
  kvList := later.kvList
  newest := by
    have pushed : (buffer.moveFront rest info).blocks.slot buffer.latestBlockId =
        buffer.blocks.slot buffer.latestBlockId ++ [info] := by
      apply Table.slot_of_lookup
      exact Finmap.lookup_insert _
    have grown := later.newest
    change next.blocks.slot buffer.latestBlockId =
      (buffer.moveFront rest info).blocks.slot buffer.latestBlockId ++ entries at grown
    rw [grown, pushed, List.append_assoc, List.singleton_append]
  others := by
    intro blockId other
    rw [later.others blockId other]
    exact Finmap.lookup_insert_of_ne _ other
  waiting := by
    have less := later.waiting
    change next.totalSizeWithoutBlock =
      buffer.totalSizeWithoutBlock - slabOf info - (entries.map slabOf).sum at less
    rw [List.map_cons, List.sum_cons, less]
    omega
  frame := later.frame

/-- No sum of slab sizes is negative. -/
theorem sum_slabOf_nonneg (entries : List KvInfo) : 0 ≤ (entries.map slabOf).sum := by
  apply List.sum_nonneg
  intro size member
  obtain ⟨info, -, rfl⟩ := List.mem_map.mp member
  exact Int.natCast_nonneg _

/-- What waits is the sum of the slab sizes of the queued records. -/
theorem Coherent.waiting_records (coherent : buffer.Coherent hash pending) :
    buffer.totalSizeWithoutBlock = ((buffer.kvList.map buffer.kvStore.slot).map slabOf).sum := by
  rw [coherent.waiting, List.map_map]
  rfl

/-- Where all entries but the last one fit into the block, and not this one as well, the packing
loop moves all but the last one. -/
theorem packLoop_moves {older : List UInt64} {last : UInt64} {newBlockSize : Nat}
    (coherent : buffer.Coherent hash pending) (front : buffer.kvList = older ++ [last])
    (open_block : buffer.latestBlockId ∈ pending)
    (fits : newBlockSize + ((older.map buffer.kvStore.slot).map slabOf).sum ≤
      buffer.blockCapacity)
    (exceeds : buffer.blockCapacity < newBlockSize + buffer.totalSizeWithoutBlock) :
    ∃ next, packLoop (older ++ [last]) newBlockSize buffer = some next ∧
      Moves (older.map buffer.kvStore.slot) [last] buffer next := by
  induction older generalizing buffer newBlockSize with
  | nil =>
    obtain ⟨info, found, step⟩ := packFront_cases coherent front newBlockSize
    have alone := coherent.waiting_records
    rw [front, List.nil_append, List.map_singleton, List.map_singleton, List.sum_singleton,
      Table.slot_of_lookup found, slabOf] at alone
    have full : newBlockSize + slabSize info.valueLengthType > buffer.blockCapacity := by omega
    refine ⟨buffer, ?_, ?_⟩
    · rw [List.nil_append, packLoop, step, if_pos full]
    · rw [List.nil_append] at front
      rw [← front]
      exact Moves.refl buffer
  | cons hashed older ih =>
    rw [List.cons_append] at front
    obtain ⟨info, found, step⟩ := packFront_cases coherent front newBlockSize
    have record : buffer.kvStore.slot hashed = info := Table.slot_of_lookup found
    rw [List.map_cons, List.map_cons, List.sum_cons, record] at fits
    have others := sum_slabOf_nonneg (older.map buffer.kvStore.slot)
    have slab : slabOf info = slabSize info.valueLengthType := rfl
    have room : ¬ newBlockSize + slabSize info.valueLengthType > buffer.blockCapacity := by omega
    have moved := moveFront_coherent coherent front found open_block
    have still : ((newBlockSize + slabSize info.valueLengthType : Nat) : Int) +
        ((older.map (buffer.moveFront (older ++ [last]) info).kvStore.slot).map slabOf).sum ≤
        (buffer.moveFront (older ++ [last]) info).blockCapacity := by
      change ((newBlockSize + slabSize info.valueLengthType : Nat) : Int) +
        ((older.map buffer.kvStore.slot).map slabOf).sum ≤ buffer.blockCapacity
      omega
    have over_full : ((buffer.moveFront (older ++ [last]) info).blockCapacity : Int) <
        (newBlockSize + slabSize info.valueLengthType : Nat) +
          (buffer.moveFront (older ++ [last]) info).totalSizeWithoutBlock := by
      change (buffer.blockCapacity : Int) < (newBlockSize + slabSize info.valueLengthType : Nat) +
        (buffer.totalSizeWithoutBlock - slabOf info)
      omega
    obtain ⟨next, packed, moves⟩ := ih moved rfl open_block still over_full
    refine ⟨next, ?_, ?_⟩
    · rw [List.cons_append, packLoop, step, if_neg room]
      exact packed
    · rw [List.map_cons, record]
      exact moves.cons

/-- What an accepted write does that makes more wait than fits into a block. -/
structure Packs (hash : String → UInt64) (key : String) (value : List UInt8)
    (buffer next : WriteBuffer) (entries : List KvInfo) : Prop where
  /-- The entries of the new block are the records of the queued hashes, in their order. -/
  records : buffer.kvList.map buffer.kvStore.lookup = entries.map some
  /-- There is at least one. -/
  nonempty : entries ≠ []
  /-- Their slabs fit into a block. -/
  fits : (entries.map slabOf).sum ≤ buffer.blockCapacity
  /-- The new block has a new id. -/
  latest : next.latestBlockId = buffer.latestBlockId + 1
  /-- No block has that id, and no flush of that id is scheduled. -/
  fresh : next.latestBlockId ∉ buffer.blocks ∧ next.latestBlockId ∉ buffer.flushThreadPool
  /-- The new block is made, and no other block changes. -/
  blocks : next.blocks = buffer.blocks.insert next.latestBlockId entries
  /-- Its flush, and nothing else, is scheduled. -/
  scheduled : next.flushThreadPool = buffer.flushThreadPool ++ [next.latestBlockId]
  /-- The entry of the write is the only one that is left in the queue. -/
  left : next.kvList = [hash key]
  /-- It is stored under its hash. -/
  stored : next.kvStore = buffer.kvStore.insert (hash key)
    { key, value, valueLengthType := slabType value.length }
  /-- Only its slab waits. -/
  waiting : next.totalSizeWithoutBlock = slabSize (slabType value.length)
  /-- The sizes stay. -/
  sizes : SameSizes buffer next

/-- The records of queued hashes are there. -/
theorem Coherent.records (coherent : buffer.Coherent hash pending) :
    buffer.kvList.map buffer.kvStore.lookup = (buffer.kvList.map buffer.kvStore.slot).map some := by
  rw [List.map_map]
  apply List.map_congr_left
  intro hashed queued
  obtain ⟨info, found⟩ := coherent.lookup_queued queued
  rw [Function.comp_apply, found, Table.slot_of_lookup found]

/-- The records of the queued hashes stay when a new key is stored. -/
theorem Coherent.store_slots (coherent : buffer.Coherent hash pending) {key : String}
    (value : List UInt8) (absent : hash key ∉ buffer.kvStore) :
    buffer.kvList.map (buffer.store hash key value).kvStore.slot =
      buffer.kvList.map buffer.kvStore.slot := by
  apply List.map_congr_left
  intro hashed queued
  obtain ⟨info, found⟩ := coherent.lookup_queued queued
  have apart : hashed ≠ hash key := by
    intro same
    rw [same, Finmap.lookup_eq_none.mpr absent] at found
    cases found
  have kept : (buffer.store hash key value).kvStore.lookup hashed = some info := by
    rw [store, Table.lookup_insert_if, if_neg apart]
    exact found
  rw [Table.slot_of_lookup kept, Table.slot_of_lookup found]

/-- An accepted write that makes more wait than fits into a block packs what was waiting. -/
theorem writeLocked_packs {key : String} {value : List UInt8}
    (coherent : buffer.Coherent hash pending) (pool : buffer.flushThreadPool ⊆ pending)
    (short : value.length ≤ slabSize 10) (enough : slabSize 10 ≤ buffer.blockCapacity)
    (few : buffer.totalSizeWithoutBlock ≤ buffer.blockCapacity)
    (absent : hash key ∉ buffer.kvStore)
    (exceeds : buffer.blockCapacity <
      buffer.totalSizeWithoutBlock + slabSize (slabType value.length)) :
    ∃ next entries, writeLocked hash key value buffer = some (0, next) ∧
      Packs hash key value buffer next entries := by
  have opened := openBlock_coherent (store_coherent coherent short absent)
  have slots := coherent.store_slots value absent
  have queued := coherent.waiting_records
  have fits : (0 : Nat) + ((buffer.kvList.map
      (buffer.store hash key value).openBlock.kvStore.slot).map slabOf).sum ≤
      ((buffer.store hash key value).openBlock.blockCapacity : Int) := by
    change (0 : Nat) + ((buffer.kvList.map (buffer.store hash key value).kvStore.slot).map
      slabOf).sum ≤ (buffer.blockCapacity : Int)
    rw [slots, ← queued]
    omega
  have exceeding : ((buffer.store hash key value).openBlock.blockCapacity : Int) <
      (0 : Nat) + (buffer.store hash key value).openBlock.totalSizeWithoutBlock := by
    change (buffer.blockCapacity : Int) <
      (0 : Nat) + (buffer.totalSizeWithoutBlock + slabSize (slabType value.length))
    omega
  obtain ⟨packed, loop, moves⟩ := packLoop_moves opened rfl
    (List.mem_append_right _ List.mem_cons_self) fits exceeding
  have full : (buffer.store hash key value).totalSizeWithoutBlock >
      (buffer.store hash key value).blockCapacity := exceeds
  have written : writeLocked hash key value buffer = some (0, packed.schedule) := by
    rw [writeLocked, if_neg absent]
    dsimp only
    rw [if_pos full]
    exact congrArg _ loop
  have later : packed.latestBlockId = buffer.latestBlockId + 1 := by
    rw [moves.frame]
    rfl
  have unused : buffer.latestBlockId + 1 ∉ pending := by
    intro old
    have bound := coherent.ids.2 _ old
    omega
  have no_block : buffer.blocks.lookup (buffer.latestBlockId + 1) = none := by
    cases block : buffer.blocks.lookup (buffer.latestBlockId + 1) with
    | none => rfl
    | some entries => exact absurd (coherent.packed _ _ block).1 unused
  have some_queued : buffer.kvList.map buffer.kvStore.slot ≠ [] := by
    intro empty
    rw [empty, List.map_nil, List.sum_nil] at queued
    have own : slabSize (slabType value.length) ≤ slabSize 10 :=
      slabSize_le (slabType_le_ten.mpr short)
    omega
  have moved : Moves (buffer.kvList.map buffer.kvStore.slot) [hash key]
      (buffer.store hash key value).openBlock packed := by
    rw [← slots]
    exact moves
  refine ⟨packed.schedule, buffer.kvList.map buffer.kvStore.slot, written, ?_⟩
  exact
    { records := coherent.records
      nonempty := some_queued
      fits := queued ▸ few
      latest := later
      fresh := by
        change packed.latestBlockId ∉ buffer.blocks ∧ packed.latestBlockId ∉ _
        rw [later]
        exact ⟨Finmap.lookup_eq_none.mp no_block, fun old => unused (pool old)⟩
      blocks := by
        change packed.blocks = buffer.blocks.insert packed.latestBlockId _
        rw [later]
        apply Finmap.ext_lookup
        intro blockId
        rw [Table.lookup_insert_if]
        by_cases newest : blockId = buffer.latestBlockId + 1
        · rw [if_pos newest, newest]
          have made := moved.newest
          change packed.blocks.slot (buffer.latestBlockId + 1) =
            buffer.blocks.slot (buffer.latestBlockId + 1) ++ _ at made
          rw [Table.slot, Table.slot, no_block, Option.getD_none] at made
          cases block : packed.blocks.lookup (buffer.latestBlockId + 1) with
          | none =>
            rw [block, Option.getD_none] at made
            exact absurd made.symm some_queued
          | some entries =>
            rw [block, Option.getD_some] at made
            exact congrArg some made
        · rw [if_neg newest]
          exact moved.others blockId newest
      scheduled := by
        change packed.flushThreadPool ++ [packed.latestBlockId] =
          buffer.flushThreadPool ++ [packed.latestBlockId]
        rw [moves.frame]
        rfl
      left := moves.kvList
      stored := by
        change packed.kvStore = _
        rw [moves.frame]
        rfl
      waiting := by
        have less := moved.waiting
        change packed.totalSizeWithoutBlock =
          buffer.totalSizeWithoutBlock + slabSize (slabType value.length) - _ at less
        change packed.totalSizeWithoutBlock = _
        rw [less, queued]
        omega
      sizes := by
        have same := moves.sizes
        exact ⟨same.pageSize, same.pagePerBlock, same.maxPageNum⟩ }

/-- What `write` does under its lock when no more than a block is waiting: it finds the front of
the queue whenever it takes it, it accepts exactly a hash that is not stored, and it leaves no more
than a block waiting. -/
theorem writeLocked_result (consistent : buffer.Consistent hash) (key : String)
    {value : List UInt8} (short : value.length ≤ slabSize 10)
    (enough : slabSize 10 ≤ buffer.blockCapacity)
    (few : buffer.totalSizeWithoutBlock ≤ buffer.blockCapacity) :
    ∃ status next, writeLocked hash key value buffer = some (status, next) ∧
      SameSizes buffer next ∧ next.totalSizeWithoutBlock ≤ buffer.blockCapacity ∧
      (status = 0 ↔ hash key ∉ buffer.kvStore) ∧
      (hash key ∉ buffer.kvStore → buffer.blockCapacity <
          buffer.totalSizeWithoutBlock + slabSize (slabType value.length) →
        ∃ entries, Packs hash key value buffer next entries) := by
  obtain ⟨pending, coherent, pool⟩ := consistent
  by_cases present : hash key ∈ buffer.kvStore
  · refine ⟨-1, buffer, if_pos present, ⟨rfl, rfl, rfl⟩, few, ?_, ?_⟩
    · exact iff_of_false (by decide) (not_not.mpr present)
    · exact fun absent => absurd present absent
  by_cases exceeds : (buffer.blockCapacity : Int) <
      buffer.totalSizeWithoutBlock + slabSize (slabType value.length)
  · obtain ⟨next, entries, written, packs⟩ :=
      writeLocked_packs coherent pool short enough few present exceeds
    have own : slabSize (slabType value.length) ≤ slabSize 10 :=
      slabSize_le (slabType_le_ten.mpr short)
    refine ⟨0, next, written, packs.sizes, ?_, iff_of_true rfl present, fun _ _ => ⟨entries, packs⟩⟩
    rw [packs.waiting]
    omega
  · have room : ¬ (buffer.store hash key value).totalSizeWithoutBlock >
        (buffer.store hash key value).blockCapacity := exceeds
    have written : writeLocked hash key value buffer = some (0, buffer.store hash key value) := by
      rw [writeLocked, if_neg present]
      exact if_neg room
    exact ⟨0, _, written, ⟨rfl, rfl, rfl⟩, not_lt.mp exceeds, iff_of_true rfl present,
      fun _ larger => absurd larger exceeds⟩

/-- Every step of a call leaves the sizes, and no more than a block waiting. -/
theorem step_waiting {ssdFull : Bool} {pc after : Pc} (consistent : buffer.Consistent hash)
    (short : pc.Short) (enough : slabSize 10 ≤ buffer.blockCapacity)
    (few : buffer.totalSizeWithoutBlock ≤ buffer.blockCapacity)
    (stepped : buffer.step hash ssdFull pc = some (after, next)) :
    SameSizes buffer next ∧ next.totalSizeWithoutBlock ≤ buffer.blockCapacity := by
  cases pc with
  | waitTotal key value | waitSsd key value | syncOuter | syncDrain =>
    simp only [step] at stepped
    split at stepped
    all_goals cases stepped
    all_goals exact ⟨⟨rfl, rfl, rfl⟩, few⟩
  | locked key value =>
    obtain ⟨⟨status, written⟩, accepted, same⟩ := Option.map_eq_some_iff.mp stepped
    obtain ⟨-, rfl⟩ := Prod.mk.inj same
    obtain ⟨_, own, result, sizes, less, -⟩ :=
      writeLocked_result consistent key (short key value rfl) enough few
    obtain ⟨-, rfl⟩ := Prod.mk.inj (Option.some.inj (accepted.symm.trans result))
    exact ⟨sizes, less⟩
  | syncInner newBlockSize =>
    simp only [step] at stepped
    split at stepped
    · cases stepped
      exact ⟨⟨rfl, rfl, rfl⟩, few⟩
    · next hashed rest front =>
      obtain ⟨pending, coherent, -⟩ := consistent
      obtain ⟨info, found, packed⟩ := packFront_cases coherent front newBlockSize
      rw [packed] at stepped
      by_cases full : newBlockSize + slabSize info.valueLengthType > buffer.blockCapacity
      · rw [if_pos full] at stepped
        cases stepped
        exact ⟨⟨rfl, rfl, rfl⟩, few⟩
      · rw [if_neg full] at stepped
        cases stepped
        refine ⟨⟨rfl, rfl, rfl⟩, ?_⟩
        have slab : 0 ≤ slabOf info := Int.natCast_nonneg _
        change buffer.totalSizeWithoutBlock - slabOf info ≤ _
        omega
  | returned status => cases stepped

end WriteBuffer

namespace Writers

variable {Thread Db : Type*} [DecidableEq Thread] {hash : String → UInt64} {leveldb : LevelDb Db}
  {writers next : Writers Thread Db} {event : Event Thread} {pagePerBlock : Nat}

/-- What holds in every interleaving when a block has at least one page. -/
structure Few (hash : String → UInt64) (pagePerBlock : Nat) (writers : Writers Thread Db) :
    Prop where
  /-- The buffer is consistent and the calls carry short values. -/
  sound : writers.Sound hash
  /-- `page_per_block` is the one that was set. -/
  pages : writers.storage.buffer.pagePerBlock = pagePerBlock
  /-- No more than a block is waiting. -/
  few : writers.storage.buffer.totalSizeWithoutBlock ≤ (pagePerBlock * 1024 * 1024 : Nat)

omit [DecidableEq Thread] in
/-- The size of a full block. -/
theorem Few.capacity (few : writers.Few hash pagePerBlock) :
    writers.storage.buffer.blockCapacity = pagePerBlock * 1024 * 1024 := by
  unfold WriteBuffer.blockCapacity
  rw [few.pages]

omit [DecidableEq Thread] in
/-- The largest slab fits into a block. -/
theorem Few.enough (few : writers.Few hash pagePerBlock) (page : 1 ≤ pagePerBlock) :
    slabSize 10 ≤ writers.storage.buffer.blockCapacity := by
  have size : slabSize 10 = 1024 * 1024 := rfl
  rw [few.capacity, size]
  omega

/-- Every event leaves no more than a block waiting. -/
theorem step_few (page : 1 ≤ pagePerBlock) (few : writers.Few hash pagePerBlock)
    (stepped : (machine hash leveldb).step writers event = some next) :
    next.Few hash pagePerBlock := by
  have sound := step_sound few.sound stepped
  cases event with
  | write thread key value | sync thread =>
    simp only [machine] at stepped
    split at stepped
    · obtain rfl := Option.some.inj stepped
      exact ⟨sound, few.pages, few.few⟩
    · cases stepped
  | step thread ssdFull =>
    obtain ⟨⟨pc, buffer⟩, taken, rfl⟩ := Option.map_eq_some_iff.mp stepped
    have within : writers.storage.buffer.totalSizeWithoutBlock ≤
        writers.storage.buffer.blockCapacity := by
      rw [few.capacity]
      exact few.few
    obtain ⟨sizes, less⟩ := WriteBuffer.step_waiting few.sound.buffer (few.sound.short thread)
      (few.enough page) within taken
    rw [few.capacity] at less
    exact ⟨sound, sizes.pagePerBlock.trans few.pages, less⟩
  | flush blockId =>
    obtain ⟨storage, ran, rfl⟩ := Option.map_eq_some_iff.mp stepped
    obtain ⟨-, rfl⟩ := Storage.runFlush_eq_some.mp ran
    exact ⟨sound, few.pages, few.few⟩

/-- In every run no more than a block is waiting. -/
theorem run_few {pageSize pageNum : Nat} {events : List (Event Thread)} (page : 1 ≤ pagePerBlock)
    (ran : (machine hash leveldb).run (start leveldb pageSize pagePerBlock pageNum) events =
      some writers) : writers.Few hash pagePerBlock :=
  Machine.run_invariant (fun writers => writers.Few hash pagePerBlock)
    (fun _ _ _ few stepped => step_few page few stepped)
    ⟨start_sound leveldb pageSize pagePerBlock pageNum, rfl, Int.natCast_nonneg _⟩ ran

/-- In every state that calls of `write` and `sync` and flushes reach, a write under its lock never
takes the front of an empty queue and leaves no more than a block waiting; and if it is accepted
and more would wait, then it packs what was waiting into one new block. -/
theorem write_packs {pageSize pageNum : Nat} {events : List (Event Thread)}
    (page : 1 ≤ pagePerBlock)
    (ran : (machine hash leveldb).run (start leveldb pageSize pagePerBlock pageNum) events =
      some writers)
    {thread : Thread} {key : String} {value : List UInt8}
    (under_lock : writers.calls thread = .locked key value) :
    writers.storage.buffer.blockCapacity = pagePerBlock * 1024 * 1024 ∧
    ∃ status buffer,
      writers.storage.buffer.writeLocked hash key value = some (status, buffer) ∧
      buffer.totalSizeWithoutBlock ≤ (pagePerBlock * 1024 * 1024 : Nat) ∧
      (status = 0 ↔ hash key ∉ writers.storage.buffer.kvStore) ∧
      (status = 0 → (pagePerBlock * 1024 * 1024 : Nat) <
          writers.storage.buffer.totalSizeWithoutBlock + slabSize (slabType value.length) →
        ∃ entries, WriteBuffer.Packs hash key value writers.storage.buffer buffer entries) := by
  have few : writers.Few hash pagePerBlock := run_few page ran
  have within : writers.storage.buffer.totalSizeWithoutBlock ≤
      writers.storage.buffer.blockCapacity := by
    rw [few.capacity]
    exact few.few
  have short : value.length ≤ slabSize 10 := few.sound.short thread key value (by
    rw [under_lock]
    rfl)
  obtain ⟨status, buffer, written, -, less, accepts, packs⟩ :=
    WriteBuffer.writeLocked_result few.sound.buffer key short (few.enough page) within
  rw [few.capacity] at less packs
  exact ⟨few.capacity, status, buffer, written, less, accepts,
    fun accepted exceeds => packs (accepts.mp accepted) exceeds⟩

/-- A thread calls `write` and passes both waiting loops. -/
def callWrite (thread : Thread) (key : String) (value : List UInt8) : List (Event Thread) :=
  [.write thread key value, .step thread false, .step thread false]

/-- A thread comes to the lock, if the value is short and the buffer is not above its limit. -/
theorem run_callWrite {thread : Thread} {status : Int} {key : String} {value : List UInt8}
    (idle : writers.calls thread = .returned status) (short : value.length ≤ slabSize 10)
    (below : writers.storage.buffer.totalSize ≤
      writers.storage.buffer.maxPageNum * writers.storage.buffer.pageSize) :
    (machine hash leveldb).run writers (callWrite thread key value) =
      some { writers with
        calls := Function.update writers.calls thread (.locked key value) } := by
  have called : WriteBuffer.write key value = .waitTotal key value := if_neg (not_lt.mpr short)
  unfold callWrite
  simp only [Machine.run, machine, idle, called, WriteBuffer.step, Function.update_self,
    if_neg (not_lt.mpr below), Option.map_some, Option.bind_some, Function.update_idem,
    Bool.false_eq_true, if_false]

/-- A value that fits into the block with what is waiting is stored. -/
theorem run_store {thread : Thread} {status : Int} {key : String} {value : List UInt8}
    (idle : writers.calls thread = .returned status) (short : value.length ≤ slabSize 10)
    (below : writers.storage.buffer.totalSize ≤
      writers.storage.buffer.maxPageNum * writers.storage.buffer.pageSize)
    (absent : hash key ∉ writers.storage.buffer.kvStore)
    (room : writers.storage.buffer.totalSizeWithoutBlock + slabSize (slabType value.length) ≤
      writers.storage.buffer.blockCapacity) :
    (machine hash leveldb).run writers (callWrite thread key value ++ [.step thread false]) =
      some
        { storage := { writers.storage with
            buffer := writers.storage.buffer.store hash key value }
          calls := Function.update writers.calls thread (.returned 0) } := by
  have written : writers.storage.buffer.writeLocked hash key value =
      some (0, writers.storage.buffer.store hash key value) :=
    (if_neg absent).trans (if_neg (not_lt.mpr room))
  refine Machine.run_append.mpr ⟨_, run_callWrite idle short below, ?_⟩
  simp only [Machine.run, machine, WriteBuffer.step, Function.update_self, written,
    Option.map_some, Option.bind_some, Function.update_idem]

/-- With blocks of one page, the second of two values of 1 MiB packs the first one. -/
theorem write_packs_second : ∃ (value : List UInt8) (writers : Writers Unit _),
    (machine Storage.lengthHash LevelDb.table).run (start LevelDb.table (2 ^ 20) 1 64)
      (callWrite () "a" value ++ [.step () false] ++ callWrite () "bb" value) = some writers ∧
    ∃ buffer entries, writers.storage.buffer.writeLocked Storage.lengthHash "bb" value =
        some (0, buffer) ∧
      WriteBuffer.Packs Storage.lengthHash "bb" value writers.storage.buffer buffer entries := by
  obtain ⟨value, full⟩ : ∃ value : List UInt8, value.length = 2 ^ 10 * 1024 :=
    ⟨List.replicate (2 ^ 10 * 1024) 0, List.length_replicate⟩
  have short : value.length ≤ slabSize 10 := by
    rw [full]
    decide
  have slab : (slabSize (slabType value.length) : Int) = 2 ^ 20 := by
    rw [full, slabType_full]
    decide
  have below : (0 : Int) + slabSize (slabType value.length) ≤ (76 : Nat) * (2 ^ 20 : Nat) := by
    rw [slab]
    decide
  have fits : (0 : Int) + slabSize (slabType value.length) ≤ (1 * 1024 * 1024 : Nat) := by
    rw [slab]
    decide
  have idle : (start LevelDb.table (2 ^ 20) 1 64 : Writers Unit _).calls () = .returned 0 := rfl
  have first := @run_store Unit _ _ Storage.lengthHash LevelDb.table _ _ _ "a" value idle short
    (by decide) Finmap.notMem_empty fits
  obtain ⟨writers, ran, waiting, absent, under_lock⟩ :
      ∃ writers, (machine Storage.lengthHash LevelDb.table).run (start LevelDb.table (2 ^ 20) 1 64)
        (callWrite () "a" value ++ [.step () false] ++ callWrite () "bb" value) = some writers ∧
      writers.storage.buffer.totalSizeWithoutBlock = 0 + slabSize (slabType value.length) ∧
      Storage.lengthHash "bb" ∉ writers.storage.buffer.kvStore ∧
      writers.calls () = .locked "bb" value := by
    have second := Machine.run_append.mpr ⟨_, first,
      @run_callWrite Unit _ _ _ _ _ () 0 "bb" value rfl short below⟩
    refine ⟨_, second, rfl, fun member => ?_, rfl⟩
    rcases Finmap.mem_insert.mp member with same | old
    · exact absurd same (by decide)
    · exact Finmap.notMem_empty old
  obtain ⟨-, status, buffer, written, -, accepts, packs⟩ := write_packs le_rfl ran under_lock
  obtain rfl := accepts.mpr absent
  rw [waiting, slab] at packs
  obtain ⟨entries, packed⟩ := packs rfl (by decide)
  exact ⟨value, writers, ran, buffer, entries, written, packed⟩

end Writers

end CudaDb
