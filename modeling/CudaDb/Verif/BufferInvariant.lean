import CudaDb.Model.WriteBuffer

/-!
# The representation of the write buffer

`kv_store`, `kv_list`, `blocks` and the two totals describe one set of buffered entries. The
invariant `WriteBuffer.Coherent` says how, for any hash function: each hash in the store is
either queued or in one block, once, the records of the blocks are those of the store, and the
totals are sums of slab sizes. Storing, packing and flushing keep it.
-/

namespace CudaDb.WriteBuffer

/-- The hashes of the entries in all blocks, with multiplicity. -/
def blockHashes (hash : String → UInt64) (blocks : Table Nat (List KvInfo)) : Multiset UInt64 :=
  blocks.total fun _ entries =>
    (entries.map fun info => ({hash info.key} : Multiset UInt64)).sum

/-- The slab size of an entry. -/
def slabOf (info : KvInfo) : Int := slabSize info.valueLengthType

/-- The invariant of a buffer whose blocks to be flushed, or being filled, are `pending`. -/
structure Coherent (hash : String → UInt64) (buffer : WriteBuffer) (pending : List Nat) :
    Prop where
  /-- Every record lies under the hash of its key, and its type is that of its length. -/
  entries : ∀ hashed info, buffer.kvStore.lookup hashed = some info → hash info.key = hashed ∧
    info.value.length ≤ slabSize 10 ∧ info.valueLengthType = slabType info.value.length
  /-- Every hash in the store is queued or in one block, once. -/
  queued : (buffer.kvList : Multiset UInt64) + blockHashes hash buffer.blocks =
    buffer.kvStore.keys.val
  /-- The blocks are pending, and their records are those of the store. -/
  packed : ∀ blockId entries, buffer.blocks.lookup blockId = some entries →
    blockId ∈ pending ∧ ∀ info ∈ entries, buffer.kvStore.lookup (hash info.key) = some info
  /-- The pending blocks are distinct and none is newer than the newest one. -/
  ids : pending.Nodup ∧ ∀ blockId ∈ pending, blockId ≤ buffer.latestBlockId
  /-- `total_size_without_block` is what is queued. -/
  waiting : buffer.totalSizeWithoutBlock =
    (buffer.kvList.map fun hashed => slabOf (buffer.kvStore.slot hashed)).sum
  /-- `total_size` is what is stored. -/
  total : buffer.totalSize = buffer.kvStore.total fun _ => slabOf

variable {hash : String → UInt64} {buffer next : WriteBuffer} {pending : List Nat}

/-- A buffer without entries is coherent once it is initialised, with nothing pending. -/
theorem initial_coherent (kvStore : buffer.kvStore = ∅) (blocks : buffer.blocks = ∅)
    (kvList : buffer.kvList = []) (pageSize pagePerBlock pageNum : Nat) :
    (buffer.initial pageSize pagePerBlock pageNum).Coherent hash [] where
  entries := by simp [initial, kvStore]
  queued := by
    simp only [initial, kvStore, blocks, kvList]
    rfl
  packed := by simp [initial, blocks]
  ids := by simp
  waiting := by simp [initial, kvList]
  total := by simp [initial, kvStore]

/-- With nothing pending there are no blocks. -/
theorem Coherent.no_blocks (coherent : buffer.Coherent hash []) : buffer.blocks = ∅ := by
  apply Finmap.ext_lookup
  intro blockId
  rw [Finmap.lookup_empty]
  cases block : buffer.blocks.lookup blockId with
  | none => rfl
  | some entries => exact absurd (coherent.packed blockId entries block).1 List.not_mem_nil

/-- Every queued hash has a record. -/
theorem Coherent.lookup_queued (coherent : buffer.Coherent hash pending) {hashed : UInt64}
    (queued : hashed ∈ buffer.kvList) : ∃ info, buffer.kvStore.lookup hashed = some info := by
  have key : hashed ∈ buffer.kvStore.keys := by
    change hashed ∈ buffer.kvStore.keys.val
    rw [← coherent.queued]
    exact Multiset.mem_add.mpr (Or.inl queued)
  rw [Finmap.mem_keys, Finmap.mem_iff] at key
  exact key

/-- No hash is queued twice. -/
theorem Coherent.nodup (coherent : buffer.Coherent hash pending) :
    ((buffer.kvList : Multiset UInt64) + blockHashes hash buffer.blocks).Nodup := by
  rw [coherent.queued]
  exact buffer.kvStore.keys.nodup

/-- The pool of the flush threads is not part of the representation. -/
theorem Coherent.withPool (coherent : buffer.Coherent hash pending) (pool : List Nat) :
    ({ buffer with flushThreadPool := pool } : WriteBuffer).Coherent hash pending :=
  ⟨coherent.entries, coherent.queued, coherent.packed, coherent.ids, coherent.waiting,
    coherent.total⟩

/-! ## Storing -/

/-- A new key with a value of at most the largest slab keeps the buffer coherent. -/
theorem store_coherent (coherent : buffer.Coherent hash pending) {key : String}
    {value : List UInt8} (short : value.length ≤ slabSize 10)
    (absent : hash key ∉ buffer.kvStore) : (buffer.store hash key value).Coherent hash pending where
  entries := by
    intro hashed info found
    rw [store, Table.lookup_insert_if] at found
    by_cases same : hashed = hash key
    · rw [if_pos same] at found
      obtain rfl := Option.some.inj found
      exact ⟨same.symm, short, rfl⟩
    · rw [if_neg same] at found
      exact coherent.entries hashed info found
  queued := by
    have keys : (buffer.kvStore.insert (hash key)
        { key, value, valueLengthType := slabType value.length }).keys.val =
        {hash key} + buffer.kvStore.keys.val := by
      rw [← Table.total_keys, Table.total_insert_of_notMem _ _ absent, Table.total_keys]
    have list : ((buffer.kvList ++ [hash key] : List UInt64) : Multiset UInt64) =
        {hash key} + (buffer.kvList : Multiset UInt64) := by
      rw [← Multiset.coe_add, add_comm, Multiset.coe_singleton]
    change ((buffer.kvList ++ [hash key] : List UInt64) : Multiset UInt64) +
      blockHashes hash buffer.blocks = _
    rw [list, add_assoc, coherent.queued]
    exact keys.symm
  packed := by
    intro blockId entries found
    have before := coherent.packed blockId entries found
    refine ⟨before.1, fun info inside => ?_⟩
    have there := before.2 info inside
    have apart : hash info.key ≠ hash key := by
      intro same
      rw [same, Finmap.lookup_eq_none.mpr absent] at there
      cases there
    rw [store, Table.lookup_insert_if, if_neg apart]
    exact there
  ids := coherent.ids
  waiting := by
    have others : ∀ hashed ∈ buffer.kvList, (buffer.store hash key value).kvStore.slot hashed =
        buffer.kvStore.slot hashed := by
      intro hashed queued
      obtain ⟨info, found⟩ := coherent.lookup_queued queued
      have apart : hashed ≠ hash key := by
        intro same
        rw [same, Finmap.lookup_eq_none.mpr absent] at found
        cases found
      rw [Table.slot, store, Table.lookup_insert_if, if_neg apart, Table.slot]
    have last : (buffer.store hash key value).kvStore.slot (hash key) =
        { key, value, valueLengthType := slabType value.length } := by
      rw [Table.slot, store, Table.lookup_insert_if, if_pos rfl, Option.getD_some]
    have list : (buffer.store hash key value).kvList = buffer.kvList ++ [hash key] := rfl
    rw [list, List.map_append, List.sum_append, List.map_singleton, List.sum_singleton, last,
      List.map_congr_left fun hashed queued => congrArg slabOf (others hashed queued),
      ← coherent.waiting]
    rfl
  total := by
    have sum := Table.total_insert_of_notMem (fun _ => slabOf)
      { key, value, valueLengthType := slabType value.length } absent
    change buffer.totalSize + slabSize (slabType value.length) = _
    rw [coherent.total, add_comm]
    exact sum.symm

/-! ## Packing -/

/-- Opening a block makes a fresh id pending. -/
theorem openBlock_coherent (coherent : buffer.Coherent hash pending) :
    buffer.openBlock.Coherent hash (pending ++ [buffer.latestBlockId + 1]) where
  entries := coherent.entries
  queued := coherent.queued
  packed := by
    intro blockId entries found
    have before := coherent.packed blockId entries found
    exact ⟨List.mem_append_left _ before.1, before.2⟩
  ids := by
    have fresh : buffer.latestBlockId + 1 ∉ pending := by
      intro old
      have := coherent.ids.2 _ old
      omega
    refine ⟨List.nodup_append.mpr ⟨coherent.ids.1, List.nodup_singleton _, ?_⟩, ?_⟩
    · intro blockId old other new
      rw [List.mem_singleton.mp new]
      exact fun same => fresh (same ▸ old)
    · intro blockId member
      rcases List.mem_append.mp member with old | new
      · exact Nat.le_succ_of_le (coherent.ids.2 _ old)
      · exact (List.mem_singleton.mp new).le
  waiting := coherent.waiting
  total := coherent.total

/-- The state after the front entry has moved to the newest block. -/
def moveFront (buffer : WriteBuffer) (rest : List UInt64) (info : KvInfo) : WriteBuffer :=
  { buffer with
    kvList := rest
    blocks := buffer.blocks.insert buffer.latestBlockId
      (buffer.blocks.slot buffer.latestBlockId ++ [info])
    totalSizeWithoutBlock := buffer.totalSizeWithoutBlock - slabOf info }

/-- An iteration of a packing loop either finds that the front entry does not fit and changes
nothing, or moves it. -/
theorem packFront_cases (coherent : buffer.Coherent hash pending) {hashed : UInt64}
    {rest : List UInt64} (front : buffer.kvList = hashed :: rest) (newBlockSize : Nat) :
    ∃ info, buffer.kvStore.lookup hashed = some info ∧
      buffer.packFront newBlockSize hashed rest =
        if newBlockSize + slabSize info.valueLengthType > buffer.blockCapacity then (buffer, none)
        else (buffer.moveFront rest info, some (newBlockSize + slabSize info.valueLengthType)) := by
  have queued : hashed ∈ buffer.kvList := front ▸ List.mem_cons_self
  obtain ⟨info, found⟩ := coherent.lookup_queued queued
  have present : hashed ∈ buffer.kvStore := Finmap.mem_iff.mpr ⟨info, found⟩
  refine ⟨info, found, ?_⟩
  unfold packFront moveFront slabOf
  rw [Table.touch_of_mem present, Table.slot_of_lookup found]

/-- Moving the front entry to a pending newest block keeps the buffer coherent. -/
theorem moveFront_coherent (coherent : buffer.Coherent hash pending) {hashed : UInt64}
    {rest : List UInt64} {info : KvInfo} (front : buffer.kvList = hashed :: rest)
    (found : buffer.kvStore.lookup hashed = some info)
    (open_block : buffer.latestBlockId ∈ pending) :
    (buffer.moveFront rest info).Coherent hash pending where
  entries := coherent.entries
  queued := by
    have before := coherent.queued
    rw [front, ← Multiset.cons_coe, ← Multiset.singleton_add,
      ← (coherent.entries hashed info found).1] at before
    have pushed : blockHashes hash (buffer.moveFront rest info).blocks =
        blockHashes hash buffer.blocks + {hash info.key} := Table.total_push _ _ _ _
    rw [pushed, ← add_assoc, add_comm, ← add_assoc]
    exact before
  packed := by
    intro blockId entries lookup
    rw [moveFront, Table.lookup_insert_if] at lookup
    by_cases newest : blockId = buffer.latestBlockId
    · rw [if_pos newest] at lookup
      obtain rfl := Option.some.inj lookup
      refine ⟨newest ▸ open_block, fun other inside => ?_⟩
      rcases List.mem_append.mp inside with old | new
      · cases block : buffer.blocks.lookup buffer.latestBlockId with
        | none => simp [Table.slot, block, default] at old
        | some entries =>
          rw [Table.slot_of_lookup block] at old
          exact (coherent.packed _ entries block).2 other old
      · rw [List.mem_singleton.mp new, (coherent.entries hashed info found).1]
        exact found
    · rw [if_neg newest] at lookup
      exact coherent.packed blockId entries lookup
  ids := coherent.ids
  waiting := by
    have before := coherent.waiting
    rw [front, List.map_cons, List.sum_cons, Table.slot_of_lookup found] at before
    change buffer.totalSizeWithoutBlock - slabOf info = _
    rw [before, add_sub_cancel_left]
    rfl
  total := coherent.total

/-- The packing loop of `write` keeps the buffer coherent and touches only `kv_list`, the newest
block and `total_size_without_block`. -/
theorem packLoop_coherent {queue : List UInt64} {newBlockSize : Nat}
    (coherent : buffer.Coherent hash pending) (front : buffer.kvList = queue)
    (open_block : buffer.latestBlockId ∈ pending)
    (packed : packLoop queue newBlockSize buffer = some next) :
    next.Coherent hash pending ∧ next.kvStore = buffer.kvStore ∧
      next.latestBlockId = buffer.latestBlockId ∧
      next.flushThreadPool = buffer.flushThreadPool := by
  induction queue generalizing buffer newBlockSize with
  | nil => cases packed
  | cons hashed rest ih =>
    obtain ⟨info, found, step⟩ := packFront_cases coherent front newBlockSize
    rw [packLoop, step] at packed
    by_cases full : newBlockSize + slabSize info.valueLengthType > buffer.blockCapacity
    · rw [if_pos full] at packed
      obtain rfl := Option.some.inj packed
      exact ⟨coherent, rfl, rfl, rfl⟩
    · rw [if_neg full] at packed
      have moved := moveFront_coherent coherent front found open_block
      have later := ih moved rfl open_block packed
      exact later

/-- The packing loop never takes the front of an empty queue when the queued entries do not all
fit. -/
theorem packLoop_isSome {queue : List UInt64} (newBlockSize : Nat)
    (coherent : buffer.Coherent hash pending) (front : buffer.kvList = queue)
    (open_block : buffer.latestBlockId ∈ pending)
    (fits : newBlockSize ≤ buffer.blockCapacity)
    (exceeds : (buffer.blockCapacity : Int) < newBlockSize + buffer.totalSizeWithoutBlock) :
    (packLoop queue newBlockSize buffer).isSome := by
  induction queue generalizing buffer newBlockSize with
  | nil =>
    have none_waiting := coherent.waiting
    rw [front, List.map_nil, List.sum_nil] at none_waiting
    omega
  | cons hashed rest ih =>
    obtain ⟨info, found, step⟩ := packFront_cases coherent front newBlockSize
    rw [packLoop, step]
    by_cases full : newBlockSize + slabSize info.valueLengthType > buffer.blockCapacity
    · rw [if_pos full]
      rfl
    · rw [if_neg full]
      have moved := moveFront_coherent coherent front found open_block
      refine ih _ moved rfl open_block (Nat.le_of_not_lt full) ?_
      change (buffer.blockCapacity : Int) <
        (newBlockSize + slabSize info.valueLengthType : Nat) +
          (buffer.totalSizeWithoutBlock - slabSize info.valueLengthType)
      push_cast
      omega

/-! ## Whole calls -/

/-- A block that has been flushed: it is not pending, and its id will not be given out again. -/
def Settled (buffer : WriteBuffer) (pending : List Nat) (blockId : Nat) : Prop :=
  blockId ≤ buffer.latestBlockId ∧ blockId ∉ pending

/-- What `write` does under its lock: it refuses a hash that is stored, and otherwise stores the
entry, keeps the buffer coherent, and does not make a flushed block pending. -/
theorem writeLocked_cases {key : String} {value : List UInt8} {status : Int}
    (coherent : buffer.Coherent hash buffer.flushThreadPool) (short : value.length ≤ slabSize 10)
    (written : writeLocked hash key value buffer = some (status, next)) :
    (hash key ∈ buffer.kvStore ∧ status = -1 ∧ next = buffer) ∨
    (hash key ∉ buffer.kvStore ∧ status = 0 ∧ next.Coherent hash next.flushThreadPool ∧
      next.kvStore = buffer.kvStore.insert (hash key)
        { key, value, valueLengthType := slabType value.length } ∧
      ∀ blockId, buffer.Settled buffer.flushThreadPool blockId →
        next.Settled next.flushThreadPool blockId) := by
  unfold writeLocked at written
  by_cases present : hash key ∈ buffer.kvStore
  · rw [if_pos present] at written
    obtain ⟨rfl, rfl⟩ := Prod.mk.inj (Option.some.inj written)
    exact Or.inl ⟨present, rfl, rfl⟩
  rw [if_neg present] at written
  have stored := store_coherent coherent short present
  refine Or.inr ⟨present, ?_⟩
  by_cases full : (buffer.store hash key value).totalSizeWithoutBlock >
      (buffer.store hash key value).blockCapacity
  · rw [if_pos full] at written
    obtain ⟨packed, loop, same⟩ := Option.map_eq_some_iff.mp written
    obtain ⟨rfl, rfl⟩ := Prod.mk.inj same
    obtain ⟨after, kept, latest, pool⟩ := packLoop_coherent (openBlock_coherent stored) rfl
      (List.mem_append_right _ List.mem_cons_self) loop
    have scheduled : packed.schedule.flushThreadPool =
        buffer.flushThreadPool ++ [buffer.latestBlockId + 1] := by
      rw [schedule, latest, pool]
      rfl
    refine ⟨rfl, ?_, kept, ?_⟩
    · rw [scheduled]
      exact after.withPool _
    · rintro blockId ⟨old, flushed⟩
      rw [scheduled]
      refine ⟨?_, fun member => ?_⟩
      · change blockId ≤ packed.latestBlockId
        rw [latest]
        exact Nat.le_succ_of_le old
      · rcases List.mem_append.mp member with still | newest
        · exact flushed still
        · have := List.mem_singleton.mp newest
          omega
  · rw [if_neg full] at written
    obtain ⟨rfl, rfl⟩ := Prod.mk.inj (Option.some.inj written)
    exact ⟨rfl, stored, rfl, fun _ settled => settled⟩

/-- `write` never takes the front of an empty queue. -/
theorem writeLocked_isSome (coherent : buffer.Coherent hash pending) (key : String)
    {value : List UInt8} (short : value.length ≤ slabSize 10) :
    (writeLocked hash key value buffer).isSome := by
  unfold writeLocked
  by_cases present : hash key ∈ buffer.kvStore
  · rw [if_pos present]
    rfl
  rw [if_neg present]
  have opened := openBlock_coherent (store_coherent coherent short present)
  by_cases full : (buffer.store hash key value).totalSizeWithoutBlock >
      (buffer.store hash key value).blockCapacity
  · have packed := packLoop_isSome 0 opened rfl
      (List.mem_append_right _ List.mem_cons_self) (Nat.zero_le _) (by
        change ((buffer.store hash key value).blockCapacity : Int) <
          (0 : Nat) + (buffer.store hash key value).totalSizeWithoutBlock
        omega)
    simp only [if_pos full, Option.isSome_map]
    exact packed
  · simp only [if_neg full]
    rfl

/-- The key and the value of a call of `write` that has not returned. -/
def Pc.call : Pc → Option (String × List UInt8)
  | .waitTotal key value | .waitSsd key value | .locked key value => some (key, value)
  | _ => none

/-- The value of a call of `write` that has passed its first test is short enough. -/
def Pc.Short (pc : Pc) : Prop :=
  ∀ key value, pc.call = some (key, value) → value.length ≤ slabSize 10

/-- A call of `write` starts short, with its own key and value. -/
theorem write_call {key other : String} {value bytes : List UInt8}
    (call : (write key value).call = some (other, bytes)) :
    other = key ∧ bytes = value ∧ bytes.length ≤ slabSize 10 := by
  unfold write at call
  by_cases long : value.length > slabSize 10
  · rw [if_pos long] at call
    cases call
  · rw [if_neg long] at call
    obtain ⟨rfl, rfl⟩ := Prod.mk.inj (Option.some.inj call)
    exact ⟨rfl, rfl, Nat.le_of_not_lt long⟩

/-- A step does not change the key and the value of a call. -/
theorem step_call {ssdFull : Bool} {pc after : Pc} {call : String × List UInt8}
    (stepped : buffer.step hash ssdFull pc = some (after, next))
    (unfinished : after.call = some call) : pc.call = some call := by
  cases pc with
  | waitTotal key value | waitSsd key value =>
    simp only [step] at stepped
    split at stepped
    · cases stepped
    · obtain ⟨rfl, rfl⟩ := Prod.mk.inj (Option.some.inj stepped)
      exact unfinished
  | locked key value =>
    obtain ⟨⟨status, written⟩, accepted, same⟩ := Option.map_eq_some_iff.mp stepped
    obtain ⟨rfl, rfl⟩ := Prod.mk.inj same
    cases unfinished
  | syncOuter | syncDrain =>
    simp only [step] at stepped
    split at stepped
    all_goals cases stepped
    all_goals cases unfinished
  | syncInner newBlockSize =>
    simp only [step] at stepped
    split at stepped
    · cases stepped
      cases unfinished
    · split at stepped
      all_goals cases stepped
      all_goals cases unfinished
  | returned status => cases stepped

/-- A call of `write` goes on with its key and value, or returns from under the lock. -/
theorem step_write {ssdFull : Bool} {pc after : Pc} {key : String} {value : List UInt8}
    (call : pc.call = some (key, value))
    (stepped : buffer.step hash ssdFull pc = some (after, next)) :
    after.call = some (key, value) ∨
      pc = .locked key value ∧ ∃ status, after = .returned status := by
  cases pc with
  | waitTotal own bytes | waitSsd own bytes =>
    simp only [step] at stepped
    split at stepped
    · cases stepped
    · obtain ⟨rfl, rfl⟩ := Prod.mk.inj (Option.some.inj stepped)
      exact Or.inl call
  | locked own bytes =>
    obtain ⟨rfl, rfl⟩ := Prod.mk.inj (Option.some.inj call)
    obtain ⟨⟨status, written⟩, -, same⟩ := Option.map_eq_some_iff.mp stepped
    obtain ⟨rfl, -⟩ := Prod.mk.inj same
    exact Or.inr ⟨rfl, status, rfl⟩
  | _ => cases call

/-- The blocks that are to be flushed or are being filled. -/
def pendingAt (buffer : WriteBuffer) : Pc → List Nat
  | .syncInner _ => buffer.flushThreadPool ++ [buffer.latestBlockId]
  | _ => buffer.flushThreadPool

/-- A call of `write` starts with nothing pending that was not so before. -/
@[simp] theorem pendingAt_write (buffer : WriteBuffer) (key : String) (value : List UInt8) :
    buffer.pendingAt (write key value) = buffer.flushThreadPool := by
  unfold write
  split <;> rfl

/-- What a step of a call preserves, whatever the call. -/
structure Kept (hash : String → UInt64) (buffer next : WriteBuffer) (pc after : Pc) : Prop where
  /-- The buffer stays coherent. -/
  coherent : next.Coherent hash (next.pendingAt after)
  /-- Flushed blocks stay so. -/
  settled : ∀ blockId, buffer.Settled (buffer.pendingAt pc) blockId →
    next.Settled (next.pendingAt after) blockId

/-- Every step of a call keeps the buffer; the store changes only where `write` accepts a value. -/
theorem step_kept {ssdFull : Bool} {pc after : Pc}
    (coherent : buffer.Coherent hash (buffer.pendingAt pc)) (short : pc.Short)
    (stepped : buffer.step hash ssdFull pc = some (after, next)) :
    Kept hash buffer next pc after ∧
      ((∃ key value, pc = .locked key value ∧ after = .returned 0 ∧ hash key ∉ buffer.kvStore ∧
        next.kvStore = buffer.kvStore.insert (hash key)
          { key, value, valueLengthType := slabType value.length }) ∨
      (next.kvStore = buffer.kvStore ∧ ∀ key value, pc = .locked key value →
        after = .returned (-1) ∧ hash key ∈ buffer.kvStore ∧ next = buffer)) := by
  cases pc with
  | waitTotal key value =>
    simp only [step] at stepped
    split at stepped
    · cases stepped
    · obtain ⟨rfl, rfl⟩ := Prod.mk.inj (Option.some.inj stepped)
      exact ⟨⟨coherent, fun _ settled => settled⟩, Or.inr ⟨rfl, nofun⟩⟩
  | waitSsd key value =>
    simp only [step] at stepped
    split at stepped
    · cases stepped
    · obtain ⟨rfl, rfl⟩ := Prod.mk.inj (Option.some.inj stepped)
      exact ⟨⟨coherent, fun _ settled => settled⟩, Or.inr ⟨rfl, nofun⟩⟩
  | locked key value =>
    obtain ⟨⟨status, written⟩, accepted, same⟩ := Option.map_eq_some_iff.mp stepped
    obtain ⟨rfl, rfl⟩ := Prod.mk.inj same
    rcases writeLocked_cases coherent (short key value rfl) accepted with
      ⟨present, rfl, rfl⟩ | ⟨absent, rfl, later, stored, settled⟩
    · refine ⟨⟨coherent, fun _ settled => settled⟩, Or.inr ⟨rfl, ?_⟩⟩
      rintro _ _ ⟨⟩
      exact ⟨rfl, present, rfl⟩
    · exact ⟨⟨later, settled⟩, Or.inl ⟨key, value, rfl, rfl, absent, stored⟩⟩
  | syncOuter =>
    simp only [step] at stepped
    split at stepped
    · obtain ⟨rfl, rfl⟩ := Prod.mk.inj (Option.some.inj stepped)
      exact ⟨⟨coherent, fun _ settled => settled⟩, Or.inr ⟨rfl, nofun⟩⟩
    · obtain ⟨rfl, rfl⟩ := Prod.mk.inj (Option.some.inj stepped)
      refine ⟨⟨openBlock_coherent coherent, ?_⟩, Or.inr ⟨rfl, nofun⟩⟩
      rintro blockId ⟨old, flushed⟩
      refine ⟨Nat.le_succ_of_le old, fun member => ?_⟩
      rcases List.mem_append.mp member with still | newest
      · exact flushed still
      · have : blockId = buffer.latestBlockId + 1 := List.mem_singleton.mp newest
        omega
  | syncInner newBlockSize =>
    have scheduled (queue : WriteBuffer) (same : queue = buffer) :
        Kept hash buffer queue.schedule (.syncInner newBlockSize) .syncOuter := by
      subst same
      exact ⟨coherent.withPool _, fun _ settled => settled⟩
    simp only [step] at stepped
    split at stepped
    · obtain ⟨rfl, rfl⟩ := Prod.mk.inj (Option.some.inj stepped)
      exact ⟨scheduled buffer rfl, Or.inr ⟨rfl, nofun⟩⟩
    · next hashed rest front =>
      obtain ⟨info, found, packed⟩ := packFront_cases coherent front newBlockSize
      rw [packed] at stepped
      by_cases full : newBlockSize + slabSize info.valueLengthType > buffer.blockCapacity
      · rw [if_pos full] at stepped
        obtain ⟨rfl, rfl⟩ := Prod.mk.inj (Option.some.inj stepped)
        exact ⟨scheduled buffer rfl, Or.inr ⟨rfl, nofun⟩⟩
      · rw [if_neg full] at stepped
        obtain ⟨rfl, rfl⟩ := Prod.mk.inj (Option.some.inj stepped)
        have moved := moveFront_coherent coherent front found
          (List.mem_append_right _ List.mem_cons_self)
        exact ⟨⟨moved, fun _ settled => settled⟩, Or.inr ⟨rfl, nofun⟩⟩
  | syncDrain =>
    simp only [step] at stepped
    split at stepped
    · obtain ⟨rfl, rfl⟩ := Prod.mk.inj (Option.some.inj stepped)
      exact ⟨⟨coherent, fun _ settled => settled⟩, Or.inr ⟨rfl, nofun⟩⟩
    · cases stepped
  | returned status => cases stepped

end CudaDb.WriteBuffer
