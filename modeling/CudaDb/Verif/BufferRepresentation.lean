import CudaDb.Model.Writers
import CudaDb.Lib.Threads
import CudaDb.Verif.BufferLookup

/-!
# The representation of the write buffer

Whoever calls `write` and `sync`, and in whatever order the scheduled flushes run, the hashes in
the store are those that are queued and those of the packed entries, each once, and both totals
are sums of slab sizes. The invariant is coherence with some list of pending blocks: a block that
a call of `sync` is still filling when another call has scheduled it, or when it has been flushed,
counts as pending again.
-/

namespace CudaDb

namespace WriteBuffer

variable {hash : String → UInt64} {buffer next : WriteBuffer} {pending : List Nat}

/-- The representation invariant. -/
structure Represented (hash : String → UInt64) (buffer : WriteBuffer) : Prop where
  /-- The keys of `kv_store` are the hashes in `kv_list` with those of the entries of all blocks. -/
  keys : (buffer.kvList : Multiset UInt64) + blockHashes hash buffer.blocks =
    buffer.kvStore.keys.val
  /-- Each hash occurs once in total. -/
  once : ((buffer.kvList : Multiset UInt64) + blockHashes hash buffer.blocks).Nodup
  /-- Every entry of a block is the record of `kv_store` under its hash. -/
  packed : ∀ blockId entries, buffer.blocks.lookup blockId = some entries →
    ∀ entry ∈ entries, buffer.kvStore.lookup (hash entry.key) = some entry
  /-- `total_size` is the sum of the slab sizes of all records. -/
  total : buffer.totalSize = buffer.kvStore.total fun _ => slabOf
  /-- `total_size_without_block` is the sum over `kv_list`. -/
  waiting : buffer.totalSizeWithoutBlock =
    (buffer.kvList.map fun hashed => slabOf (buffer.kvStore.slot hashed)).sum
  /-- `total_size` is not negative. -/
  total_nonneg : 0 ≤ buffer.totalSize
  /-- `total_size_without_block` is not negative. -/
  waiting_nonneg : 0 ≤ buffer.totalSizeWithoutBlock

/-- The buffer is coherent with some list of pending blocks, the scheduled ones among them. -/
def Consistent (hash : String → UInt64) (buffer : WriteBuffer) : Prop :=
  ∃ pending, buffer.Coherent hash pending ∧ buffer.flushThreadPool ⊆ pending

/-- A coherent buffer is represented as it should be. -/
theorem Coherent.represented (coherent : buffer.Coherent hash pending) :
    buffer.Represented hash where
  keys := coherent.queued
  once := coherent.nodup
  packed := fun blockId entries found => (coherent.packed blockId entries found).2
  total := coherent.total
  waiting := coherent.waiting
  total_nonneg := by
    rw [coherent.total]
    apply Multiset.sum_nonneg
    intro size member
    obtain ⟨entry, -, rfl⟩ := Multiset.mem_map.mp member
    exact Int.natCast_nonneg _
  waiting_nonneg := by
    rw [coherent.waiting]
    apply List.sum_nonneg
    intro size member
    obtain ⟨hashed, -, rfl⟩ := List.mem_map.mp member
    exact Int.natCast_nonneg _

/-- A block that is not newer than the newest one may count as pending. -/
theorem Coherent.reopen (coherent : buffer.Coherent hash pending) {blockId : Nat}
    (old : blockId ≤ buffer.latestBlockId) :
    ∃ more, blockId ∈ more ∧ pending ⊆ more ∧ buffer.Coherent hash more := by
  by_cases member : blockId ∈ pending
  · exact ⟨pending, member, List.Subset.refl _, coherent⟩
  · refine ⟨blockId :: pending, List.mem_cons_self, List.subset_cons_self _ _,
      ⟨coherent.entries, coherent.queued, ?_, ?_, coherent.waiting, coherent.total⟩⟩
    · intro other entries found
      have before := coherent.packed other entries found
      exact ⟨List.mem_cons_of_mem _ before.1, before.2⟩
    · refine ⟨List.nodup_cons.mpr ⟨member, coherent.ids.1⟩, fun other listed => ?_⟩
      rcases List.mem_cons.mp listed with rfl | still
      · exact old
      · exact coherent.ids.2 other still

/-- Scheduling the newest block keeps the buffer consistent. -/
theorem Consistent.schedule (consistent : buffer.Consistent hash) :
    buffer.schedule.Consistent hash := by
  obtain ⟨pending, coherent, pool⟩ := consistent
  obtain ⟨more, newest, wider, still⟩ := coherent.reopen le_rfl
  refine ⟨more, still.withPool _, fun blockId scheduled => ?_⟩
  rcases List.mem_append.mp scheduled with old | new
  · exact wider (pool old)
  · rw [List.mem_singleton.mp new]
    exact newest

/-- `write` under its lock keeps the buffer consistent. -/
theorem writeLocked_consistent {key : String} {value : List UInt8} {status : Int}
    (consistent : buffer.Consistent hash) (short : value.length ≤ slabSize 10)
    (written : writeLocked hash key value buffer = some (status, next)) :
    next.Consistent hash := by
  obtain ⟨pending, coherent, pool⟩ := consistent
  unfold writeLocked at written
  by_cases present : hash key ∈ buffer.kvStore
  · rw [if_pos present] at written
    obtain ⟨-, rfl⟩ := Prod.mk.inj (Option.some.inj written)
    exact ⟨pending, coherent, pool⟩
  rw [if_neg present] at written
  have stored := store_coherent coherent short present
  by_cases full : (buffer.store hash key value).totalSizeWithoutBlock >
      (buffer.store hash key value).blockCapacity
  · rw [if_pos full] at written
    obtain ⟨packed, loop, same⟩ := Option.map_eq_some_iff.mp written
    obtain ⟨-, rfl⟩ := Prod.mk.inj same
    obtain ⟨later, -, -, scheduled⟩ := packLoop_coherent (openBlock_coherent stored) rfl
      (List.mem_append_right _ List.mem_cons_self) loop
    have consistent : packed.Consistent hash := by
      refine ⟨_, later, ?_⟩
      rw [scheduled]
      exact fun blockId old => List.mem_append_left _ (pool old)
    exact consistent.schedule
  · rw [if_neg full] at written
    obtain ⟨-, rfl⟩ := Prod.mk.inj (Option.some.inj written)
    exact ⟨pending, stored, pool⟩

/-- An iteration of the packing loop of `sync` keeps the buffer consistent. -/
theorem packFront_consistent (consistent : buffer.Consistent hash) {hashed : UInt64}
    {rest : List UInt64} (front : buffer.kvList = hashed :: rest) (newBlockSize : Nat) :
    (buffer.packFront newBlockSize hashed rest).1.Consistent hash := by
  obtain ⟨pending, coherent, pool⟩ := consistent
  obtain ⟨info, found, packed⟩ := packFront_cases coherent front newBlockSize
  rw [packed]
  by_cases full : newBlockSize + slabSize info.valueLengthType > buffer.blockCapacity
  · rw [if_pos full]
    exact ⟨pending, coherent, pool⟩
  · rw [if_neg full]
    obtain ⟨more, newest, wider, still⟩ := coherent.reopen le_rfl
    exact ⟨more, moveFront_coherent still front found newest, fun _ old => wider (pool old)⟩

/-- Every step of a call keeps the buffer consistent. -/
theorem step_consistent {ssdFull : Bool} {pc after : Pc} (consistent : buffer.Consistent hash)
    (short : pc.Short) (stepped : buffer.step hash ssdFull pc = some (after, next)) :
    next.Consistent hash := by
  cases pc with
  | waitTotal key value | waitSsd key value | syncDrain =>
    simp only [step] at stepped
    split at stepped
    all_goals cases stepped
    exact consistent
  | locked key value =>
    obtain ⟨⟨status, written⟩, accepted, same⟩ := Option.map_eq_some_iff.mp stepped
    obtain ⟨-, rfl⟩ := Prod.mk.inj same
    exact writeLocked_consistent consistent (short key value rfl) accepted
  | syncOuter =>
    simp only [step] at stepped
    split at stepped
    · cases stepped
      exact consistent
    · cases stepped
      obtain ⟨pending, coherent, pool⟩ := consistent
      exact ⟨_, openBlock_coherent coherent, fun _ old => List.mem_append_left _ (pool old)⟩
  | syncInner newBlockSize =>
    simp only [step] at stepped
    split at stepped
    · cases stepped
      exact consistent.schedule
    · next hashed rest front =>
      have packed := packFront_consistent consistent front newBlockSize
      split at stepped
      · next same =>
        cases stepped
        rw [same] at packed
        exact packed.schedule
      · next same =>
        cases stepped
        rw [same] at packed
        exact packed
  | returned status => cases stepped

end WriteBuffer

/-- A flush keeps the buffer consistent, also of a block that is scheduled again. -/
theorem Storage.runFlush_consistent {Db : Type*} {hash : String → UInt64} {leveldb : LevelDb Db}
    {storage next : Storage Db} {blockId : Nat} (consistent : storage.buffer.Consistent hash)
    (ran : storage.runFlush hash leveldb blockId = some next) : next.buffer.Consistent hash := by
  obtain ⟨pending, coherent, pool⟩ := consistent
  obtain ⟨scheduled, rfl⟩ := runFlush_eq_some.mp ran
  have flushed : (Storage.flush hash leveldb blockId { storage with
      buffer := { storage.buffer with
        flushThreadPool := storage.buffer.flushThreadPool.erase blockId } }).buffer.Coherent hash
      (pending.erase blockId) := flush_buffer leveldb blockId (coherent.withPool _)
  obtain ⟨more, again, wider, still⟩ := flushed.reopen (coherent.ids.2 blockId (pool scheduled))
  refine ⟨more, still, fun other left => ?_⟩
  by_cases same : other = blockId
  · rw [same]
    exact again
  · exact wider ((List.mem_erase_of_ne same).mpr (pool (List.mem_of_mem_erase left)))

namespace Writers

variable {Thread Db : Type*} [DecidableEq Thread] {hash : String → UInt64} {leveldb : LevelDb Db}
  {writers next : Writers Thread Db} {event : Event Thread}

/-- What holds in every interleaving. -/
structure Sound (hash : String → UInt64) (writers : Writers Thread Db) : Prop where
  /-- The buffer is consistent. -/
  buffer : writers.storage.buffer.Consistent hash
  /-- The values of the calls of `write` are short. -/
  short : ∀ thread, (writers.calls thread).Short

/-- Every event keeps the buffer consistent. -/
theorem step_sound (sound : writers.Sound hash)
    (stepped : (machine hash leveldb).step writers event = some next) : next.Sound hash := by
  cases event with
  | write thread key value =>
    simp only [machine] at stepped
    split at stepped
    · obtain rfl := Option.some.inj stepped
      have starts : (WriteBuffer.write key value).Short :=
        fun _ _ call => (WriteBuffer.write_call call).2.2
      exact ⟨sound.buffer, Threads.forall_update WriteBuffer.Pc.Short starts sound.short⟩
    · cases stepped
  | sync thread =>
    simp only [machine] at stepped
    split at stepped
    · obtain rfl := Option.some.inj stepped
      have starts : WriteBuffer.sync.Short := fun _ _ call => by cases call
      exact ⟨sound.buffer, Threads.forall_update WriteBuffer.Pc.Short starts sound.short⟩
    · cases stepped
  | step thread ssdFull =>
    obtain ⟨⟨pc, buffer⟩, taken, rfl⟩ := Option.map_eq_some_iff.mp stepped
    have goes_on : pc.Short := fun key value call =>
      sound.short thread key value (WriteBuffer.step_call taken call)
    exact ⟨WriteBuffer.step_consistent sound.buffer (sound.short thread) taken,
      Threads.forall_update WriteBuffer.Pc.Short goes_on sound.short⟩
  | flush blockId =>
    obtain ⟨storage, ran, rfl⟩ := Option.map_eq_some_iff.mp stepped
    exact ⟨Storage.runFlush_consistent sound.buffer ran, sound.short⟩

omit [DecidableEq Thread] in
/-- The fresh buffer is consistent. -/
theorem start_sound (leveldb : LevelDb Db) (pageSize pagePerBlock pageNum : Nat) :
    (start leveldb pageSize pagePerBlock pageNum : Writers Thread Db).Sound hash where
  buffer := ⟨[], WriteBuffer.initial_coherent rfl rfl rfl pageSize pagePerBlock pageNum,
    List.Subset.refl _⟩
  short := fun _ _ _ call => by cases call

/-- In every run the buffer is consistent. -/
theorem run_sound {pageSize pagePerBlock pageNum : Nat} {events : List (Event Thread)}
    (ran : (machine hash leveldb).run (start leveldb pageSize pagePerBlock pageNum) events =
      some writers) : writers.Sound hash :=
  Machine.run_invariant (fun writers => writers.Sound hash)
    (fun _ _ _ sound stepped => step_sound sound stepped)
    (start_sound leveldb pageSize pagePerBlock pageNum) ran

/-- However calls of `write` and `sync` and the scheduled flushes interleave, whatever the sizes
and the hash, the representation invariant holds. -/
theorem represented_along {pageSize pagePerBlock pageNum : Nat} {events : List (Event Thread)}
    (ran : (machine hash leveldb).run (start leveldb pageSize pagePerBlock pageNum) events =
      some writers) : writers.storage.buffer.Represented hash := by
  obtain ⟨pending, coherent, -⟩ := (run_sound ran).buffer
  exact coherent.represented

/-- One thread stores a value, another one begins a sync and packs it, and the first one stores a
second value before the block is flushed. -/
def writeDuringSync : List (Event Bool) :=
  Event.write true "a" [1, 2] :: List.replicate 3 (Event.step true false) ++
    Event.sync false :: List.replicate 2 (Event.step false false) ++
    Event.write true "bb" [3] :: List.replicate 3 (Event.step true false)

/-- The packed value and the queued one are both represented. -/
theorem represented_writeDuringSync : ∃ writers,
    (machine Storage.lengthHash LevelDb.table).run
      (start LevelDb.table (1024 * 1024) 64 64) writeDuringSync = some writers ∧
    writers.storage.buffer.kvList = [2] ∧
    writers.storage.buffer.blocks.lookup 1 = some [⟨"a", [1, 2], 0⟩] ∧
    writers.storage.buffer.Represented Storage.lengthHash := by
  have executed : ∃ writers, (machine Storage.lengthHash LevelDb.table).run
      (start LevelDb.table (1024 * 1024) 64 64) writeDuringSync = some writers ∧
      writers.storage.buffer.kvList = [2] ∧
      writers.storage.buffer.blocks.lookup 1 = some [⟨"a", [1, 2], 0⟩] := ⟨_, rfl, rfl, rfl⟩
  obtain ⟨writers, ran, queued, packed⟩ := executed
  exact ⟨writers, ran, queued, packed, represented_along ran⟩

end Writers

end CudaDb
