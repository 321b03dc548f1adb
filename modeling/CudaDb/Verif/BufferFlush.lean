import CudaDb.Verif.BufferInvariant

/-!
# Flushing a block

A flush writes the values of a block one after another into the file of the block, records each
position in the index, and takes the entries out of the store. This module says what it writes
and that it keeps the storage coherent: after it every value of the block is where the index
says, and nothing else has moved.
-/

namespace CudaDb.Storage

open WriteBuffer (slabOf)

variable {Db : Type*} {hash : String → UInt64} {leveldb : LevelDb Db} {storage : Storage Db}
  {pending : List Nat} {blockId : Nat}

/-- What the index and the block files hold for a key. -/
def onDisk (leveldb : LevelDb Db) (storage : Storage Db) (key : String) : Option (List UInt8) :=
  (CentraIndex.getInfo leveldb storage.db key).bind (slice storage.hdd)

/-- The value of a key, from the buffer first and then from the disk. -/
def lookup (hash : String → UInt64) (leveldb : LevelDb Db) (storage : Storage Db) (key : String) :
    Option (List UInt8) :=
  match storage.buffer.kvStore.lookup (hash key) with
  | some info => some info.value
  | none => storage.onDisk leveldb key

/-- The key is the only buffered one with its hash. -/
def Alone (hash : String → UInt64) (buffer : WriteBuffer) (key : String) : Prop :=
  ∀ hashed info, buffer.kvStore.lookup hashed = some info → hash info.key = hash key →
    info.key = key

/-- The storage invariant: a coherent buffer, and index records of flushed blocks that denote
bytes of their files. -/
structure Coherent (hash : String → UInt64) (leveldb : LevelDb Db) (storage : Storage Db)
    (pending : List Nat) : Prop where
  /-- The write buffer is coherent. -/
  buffer : storage.buffer.Coherent hash pending
  /-- Every record denotes bytes of the file of a flushed block. -/
  indexed : ∀ key info, CentraIndex.getInfo leveldb storage.db key = some info →
    storage.buffer.Settled pending info.blockId ∧ info.length ≤ slabSize 10 ∧
    info.lengthType = slabType info.length ∧ ∃ value, slice storage.hdd info = some value

/-- A storage without entries is coherent once the buffer is initialised and the index is new. -/
theorem opened_coherent {buffer : WriteBuffer} (kvStore : buffer.kvStore = ∅)
    (blocks : buffer.blocks = ∅) (kvList : buffer.kvList = []) (leveldb : LevelDb Db)
    (pageSize pagePerBlock pageNum : Nat) (hdd : Table Nat (List UInt8)) :
    Storage.Coherent hash leveldb
      { buffer := buffer.initial pageSize pagePerBlock pageNum
        db := CentraIndex.setup leveldb
        hdd } [] where
  buffer := WriteBuffer.initial_coherent kvStore blocks kvList pageSize pagePerBlock pageNum
  indexed := by
    intro key info found
    rw [CentraIndex.getInfo_setup] at found
    cases found

/-- The fresh storage is coherent. -/
theorem initial_coherent (leveldb : LevelDb Db) (pageSize pagePerBlock pageNum : Nat) :
    (initial leveldb pageSize pagePerBlock pageNum).Coherent hash leveldb [] :=
  opened_coherent rfl rfl rfl leveldb pageSize pagePerBlock pageNum ∅

/-- A record denotes as many bytes as its length. -/
theorem slice_length {hdd : Table Nat (List UInt8)} {info : IndexInfo} {value : List UInt8}
    (read : slice hdd info = some value) : value.length = info.length := by
  rcases Option.bind_eq_some_iff.mp read with ⟨file, -, inside⟩
  split at inside
  · next fits =>
    obtain rfl := Option.some.inj inside
    rw [List.length_take, List.length_drop]
    omega
  · cases inside

/-- A record denotes the bytes that stand at its offset. -/
theorem slice_append {hdd : Table Nat (List UInt8)} {info : IndexInfo}
    {value : List UInt8} (before after : List UInt8)
    (file : hdd.lookup info.blockId = some (before ++ value ++ after))
    (offset : info.offset = before.length) (length : info.length = value.length) :
    slice hdd info = some value := by
  unfold slice
  rw [file, Option.bind_some, offset, length, if_pos (by simp), List.append_assoc,
    List.drop_left, List.take_left]

/-! ## The loop of a flush -/

/-- The entries of the block. -/
abbrev entriesOf (storage : Storage Db) (blockId : Nat) : List KvInfo :=
  storage.buffer.blocks.slot blockId

/-- The file after the loop is the file before it with all values appended. -/
theorem flushEntries_fout (entries : List KvInfo) (start : Flushing Db) :
    (entries.foldl (flushEntry hash leveldb blockId) start).fout =
      start.fout ++ entries.flatMap KvInfo.value := by
  induction entries generalizing start with
  | nil => simp
  | cons entry entries ih =>
    rw [List.foldl_cons, ih, List.flatMap_cons, ← List.append_assoc]
    rfl

/-- The loop takes the entries out of the store. -/
theorem flushEntries_kvStore (entries : List KvInfo) (start : Flushing Db) :
    (entries.foldl (flushEntry hash leveldb blockId) start).kvStore =
      start.kvStore.eraseAll (entries.map fun entry => hash entry.key) := by
  induction entries generalizing start with
  | nil => rfl
  | cons entry entries ih =>
    rw [List.foldl_cons, ih, List.map_cons, Table.eraseAll_cons]
    rfl

/-- The loop counts the slab sizes of the entries. -/
theorem flushEntries_flushedSize (entries : List KvInfo) (start : Flushing Db) :
    (entries.foldl (flushEntry hash leveldb blockId) start).flushedSize =
      start.flushedSize + (entries.map slabOf).sum := by
  induction entries generalizing start with
  | nil => simp
  | cons entry entries ih =>
    rw [List.foldl_cons, ih, List.map_cons, List.sum_cons, ← add_assoc]
    rfl

/-- After the loop a key has the record of some entry with that key, at the position of its
value in the file, or it has the record that it had and no entry has the key. -/
theorem flushEntries_index (hash : String → UInt64) (leveldb : LevelDb Db) (blockId : Nat)
    (entries : List KvInfo) (start : Flushing Db)
    (running : start.offset = start.fout.length) (key : String) :
    (∃ entry ∈ entries, entry.key = key ∧ ∃ before after,
      (entries.foldl (flushEntry hash leveldb blockId) start).fout = before ++ entry.value ++ after ∧
      CentraIndex.getInfo leveldb (entries.foldl (flushEntry hash leveldb blockId) start).db key =
        some {
          blockId
          offset := before.length
          length := entry.value.length
          lengthType := entry.valueLengthType }) ∨
    ((∀ entry ∈ entries, entry.key ≠ key) ∧
      CentraIndex.getInfo leveldb (entries.foldl (flushEntry hash leveldb blockId) start).db key =
        CentraIndex.getInfo leveldb start.db key) := by
  induction entries generalizing start with
  | nil => exact Or.inr ⟨by simp, rfl⟩
  | cons entry entries ih =>
    have advanced : (flushEntry hash leveldb blockId start entry).offset =
        (flushEntry hash leveldb blockId start entry).fout.length := by
      simp [flushEntry, running]
    rw [List.foldl_cons]
    rcases ih (flushEntry hash leveldb blockId start entry) advanced with
      ⟨found, later, same, written⟩ | ⟨none_later, unchanged⟩
    · exact Or.inl ⟨found, List.mem_cons_of_mem _ later, same, written⟩
    · have put := CentraIndex.getInfo_put leveldb start.db entry.key key {
        blockId
        offset := start.offset
        length := entry.value.length
        lengthType := entry.valueLengthType }
      by_cases same : key = entry.key
      · refine Or.inl ⟨entry, List.mem_cons_self, same.symm, start.fout,
          entries.flatMap KvInfo.value, ?_, ?_⟩
        · exact flushEntries_fout entries _
        · rw [if_pos same] at put
          rw [unchanged, ← running]
          exact put
      · refine Or.inr ⟨?_, ?_⟩
        · intro other member
          rcases List.mem_cons.mp member with rfl | later
          · exact fun equal => same equal.symm
          · exact none_later other later
        · rw [if_neg same] at put
          rw [unchanged]
          exact put

/-! ## The whole flush -/

/-- The file of the flushed block is the values of its entries. -/
theorem flush_hdd : (storage.flush hash leveldb blockId).hdd =
    storage.hdd.insert blockId ((storage.entriesOf blockId).flatMap KvInfo.value) := by
  unfold flush
  simp only [flushEntries_fout, List.nil_append]

/-- The store loses the entries of the block. -/
theorem flush_kvStore : (storage.flush hash leveldb blockId).buffer.kvStore =
    storage.buffer.kvStore.eraseAll
      ((storage.entriesOf blockId).map fun entry => hash entry.key) :=
  flushEntries_kvStore _ _

/-- A flush gives every key of the block the record of one of its entries, whose bytes stand where
the record says, and leaves the record of every other key. -/
theorem flush_index (storage : Storage Db) (hash : String → UInt64) (leveldb : LevelDb Db)
    (blockId : Nat) (key : String) :
    (∃ entry ∈ storage.entriesOf blockId, entry.key = key ∧ ∃ info,
      CentraIndex.getInfo leveldb (storage.flush hash leveldb blockId).db key = some info ∧
      info.blockId = blockId ∧ info.length = entry.value.length ∧
      info.lengthType = entry.valueLengthType ∧
      slice (storage.flush hash leveldb blockId).hdd info = some entry.value) ∨
    ((∀ entry ∈ storage.entriesOf blockId, entry.key ≠ key) ∧
      CentraIndex.getInfo leveldb (storage.flush hash leveldb blockId).db key =
        CentraIndex.getInfo leveldb storage.db key) := by
  rcases flushEntries_index hash leveldb blockId (storage.entriesOf blockId)
    ⟨[], 0, 0, storage.db, storage.buffer.kvStore⟩ rfl key with
    ⟨entry, member, same, before, after, file, written⟩ | unchanged
  · refine Or.inl ⟨entry, member, same, _, written, rfl, rfl, rfl, ?_⟩
    refine slice_append before after ?_ rfl rfl
    rw [← file]
    exact Finmap.lookup_insert _
  · exact Or.inr unchanged

/-- The files of other blocks are not written. -/
theorem flush_slice {info : IndexInfo} (apart : info.blockId ≠ blockId) :
    slice (storage.flush hash leveldb blockId).hdd info = slice storage.hdd info := by
  rw [slice, slice, flush_hdd, Table.lookup_insert_if, if_neg apart]

/-- What a flush leaves on disk for a key, given that its block is pending. -/
theorem flush_onDisk (coherent : storage.Coherent hash leveldb pending)
    (member : blockId ∈ pending) (key : String) :
    (∃ entry ∈ storage.entriesOf blockId, entry.key = key ∧
      (storage.flush hash leveldb blockId).onDisk leveldb key = some entry.value) ∨
    ((∀ entry ∈ storage.entriesOf blockId, entry.key ≠ key) ∧
      (storage.flush hash leveldb blockId).onDisk leveldb key = storage.onDisk leveldb key) := by
  unfold onDisk
  rcases flush_index storage hash leveldb blockId key with
    ⟨entry, inside, same, info, found, -, -, -, read⟩ | ⟨other, unchanged⟩
  · refine Or.inl ⟨entry, inside, same, ?_⟩
    rw [found, Option.bind_some, read]
  · refine Or.inr ⟨other, ?_⟩
    rw [unchanged]
    cases found : CentraIndex.getInfo leveldb storage.db key with
    | none => rfl
    | some info =>
      have flushed := (coherent.indexed key info found).1.2
      have apart : info.blockId ≠ blockId := fun equal => flushed (equal ▸ member)
      rw [Option.bind_some, Option.bind_some, flush_slice apart]

/-- The records of a block are those of the store. -/
theorem entry_stored (coherent : storage.buffer.Coherent hash pending) {entry : KvInfo}
    (inside : entry ∈ storage.entriesOf blockId) :
    storage.buffer.kvStore.lookup (hash entry.key) = some entry := by
  cases block : storage.buffer.blocks.lookup blockId with
  | none => simp [Table.slot, block, default] at inside
  | some entries =>
    rw [entriesOf, Table.slot_of_lookup block] at inside
    exact (coherent.packed blockId entries block).2 entry inside

/-- Flushing a pending block changes no key's value, unless another buffered key has its hash. -/
theorem flush_lookup (coherent : storage.Coherent hash leveldb pending)
    (member : blockId ∈ pending) {key : String} (alone : Alone hash storage.buffer key) :
    (storage.flush hash leveldb blockId).lookup hash leveldb key =
      storage.lookup hash leveldb key := by
  unfold lookup
  rw [flush_kvStore, Table.lookup_eraseAll]
  rcases flush_onDisk coherent member key with ⟨entry, inside, rfl, written⟩ | ⟨other, unchanged⟩
  · have erased : hash entry.key ∈ (storage.entriesOf blockId).map fun entry => hash entry.key :=
      List.mem_map_of_mem inside
    rw [if_pos erased, entry_stored coherent.buffer inside]
    exact written
  · have kept : hash key ∉ (storage.entriesOf blockId).map fun entry => hash entry.key := by
      intro erased
      obtain ⟨entry, inside, same⟩ := List.mem_map.mp erased
      exact other entry inside (alone _ entry (entry_stored coherent.buffer inside) same)
    rw [if_neg kept, unchanged]

/-! ## A flush keeps the invariant -/

/-- The hashes of the block and those of the other blocks. -/
theorem blockHashes_split (blockId : Nat) : WriteBuffer.blockHashes hash storage.buffer.blocks =
    (((storage.entriesOf blockId).map fun entry => hash entry.key : List UInt64) :
      Multiset UInt64) +
    WriteBuffer.blockHashes hash (storage.buffer.blocks.erase blockId) := by
  rw [← Table.sum_singletons]
  exact (Table.total_slot _ _ _).symm

/-- The hashes that a flush does not take from the store: those queued and in other blocks. -/
theorem block_apart (coherent : storage.buffer.Coherent hash pending) (blockId : Nat) :
    ((storage.entriesOf blockId).map fun entry => hash entry.key).Nodup ∧
    (∀ hashed ∈ storage.buffer.kvList,
      hashed ∉ (storage.entriesOf blockId).map fun entry => hash entry.key) ∧
    ∀ hashed ∈ WriteBuffer.blockHashes hash (storage.buffer.blocks.erase blockId),
      hashed ∉ (storage.entriesOf blockId).map fun entry => hash entry.key := by
  have nodup := coherent.nodup
  rw [blockHashes_split blockId, Multiset.nodup_add, Multiset.nodup_add] at nodup
  obtain ⟨-, ⟨distinct, -, others⟩, queue⟩ := nodup
  refine ⟨Multiset.coe_nodup.mp distinct, fun hashed queued inside => ?_,
    fun hashed elsewhere inside => ?_⟩
  · exact Multiset.disjoint_left.mp queue queued (Multiset.mem_add.mpr (Or.inl inside))
  · exact Multiset.disjoint_left.mp others inside elsewhere

/-- A record that is not of the block stays in the store. -/
theorem flush_kept {hashed : UInt64}
    (other : hashed ∉ (storage.entriesOf blockId).map fun entry => hash entry.key) :
    (storage.flush hash leveldb blockId).buffer.kvStore.lookup hashed =
      storage.buffer.kvStore.lookup hashed := by
  rw [flush_kvStore, Table.lookup_eraseAll, if_neg other]

/-- A flush keeps the buffer coherent, without the block. -/
theorem flush_buffer (leveldb : LevelDb Db) (blockId : Nat)
    (coherent : storage.buffer.Coherent hash pending) :
    (storage.flush hash leveldb blockId).buffer.Coherent hash (pending.erase blockId) where
  entries := by
    intro hashed info found
    rw [flush_kvStore, Table.lookup_eraseAll] at found
    split at found
    · cases found
    · exact coherent.entries hashed info found
  queued := by
    have erased := Table.total_eraseAll (fun key _ => ({key} : Multiset UInt64))
      (fun entry : KvInfo => hash entry.key) (fun _ => entry_stored coherent)
      (block_apart coherent blockId).1
    rw [Table.total_keys, Table.total_keys, Table.sum_singletons, ← flush_kvStore,
      ← coherent.queued, blockHashes_split blockId, add_left_comm] at erased
    exact (add_left_cancel erased).symm
  packed := by
    intro other entries found
    have lookup : (storage.buffer.blocks.erase blockId).lookup other = some entries := found
    rw [Table.lookup_erase_if] at lookup
    split at lookup
    · cases lookup
    next different =>
    have before := coherent.packed other entries lookup
    refine ⟨(List.mem_erase_of_ne different).mpr before.1, fun info inside => ?_⟩
    have elsewhere : hash info.key ∈
        WriteBuffer.blockHashes hash (storage.buffer.blocks.erase blockId) := by
      refine Table.mem_total.mpr ⟨other, entries, found, ?_⟩
      rw [Table.sum_singletons]
      exact List.mem_map.mpr ⟨info, inside, rfl⟩
    rw [flush_kept ((block_apart coherent blockId).2.2 _ elsewhere)]
    exact before.2 info inside
  ids := ⟨coherent.ids.1.erase _, fun other still =>
    coherent.ids.2 other (List.mem_of_mem_erase still)⟩
  waiting := by
    have same : ∀ hashed ∈ storage.buffer.kvList,
        slabOf ((storage.flush hash leveldb blockId).buffer.kvStore.slot hashed) =
          slabOf (storage.buffer.kvStore.slot hashed) := by
      intro hashed queued
      rw [Table.slot, flush_kept ((block_apart coherent blockId).2.1 hashed queued), Table.slot]
    change storage.buffer.totalSizeWithoutBlock = _
    rw [coherent.waiting]
    exact congrArg List.sum (List.map_congr_left same).symm
  total := by
    have erased := Table.total_eraseAll (fun _ => slabOf)
      (fun entry : KvInfo => hash entry.key) (fun _ => entry_stored coherent)
      (block_apart coherent blockId).1
    have counted : (storage.flush hash leveldb blockId).buffer.totalSize =
        storage.buffer.totalSize - ((storage.entriesOf blockId).map slabOf).sum := by
      unfold flush
      simp only [flushEntries_flushedSize, zero_add]
    rw [counted, coherent.total, ← erased, flush_kvStore]
    exact add_sub_cancel_left _ _

/-- A flushed block stays so, and the one that is flushed becomes so. -/
theorem flush_settled (leveldb : LevelDb Db) (coherent : storage.buffer.Coherent hash pending)
    (member : blockId ∈ pending) (other : Nat) :
    (storage.flush hash leveldb blockId).buffer.Settled (pending.erase blockId) other ↔
      storage.buffer.Settled pending other ∨ other = blockId := by
  change other ≤ storage.buffer.latestBlockId ∧ other ∉ pending.erase blockId ↔ _
  rw [coherent.ids.1.mem_erase_iff, not_and_or, not_not]
  constructor
  · rintro ⟨old, same | absent⟩
    · exact Or.inr same
    · exact Or.inl ⟨old, absent⟩
  · rintro (⟨old, absent⟩ | rfl)
    · exact ⟨old, Or.inr absent⟩
    · exact ⟨coherent.ids.2 other member, Or.inl rfl⟩

/-- A flush of a pending block keeps the storage coherent. -/
theorem flush_coherent (coherent : storage.Coherent hash leveldb pending)
    (member : blockId ∈ pending) :
    (storage.flush hash leveldb blockId).Coherent hash leveldb (pending.erase blockId) where
  buffer := flush_buffer leveldb blockId coherent.buffer
  indexed := by
    intro key info found
    rcases flush_index storage hash leveldb blockId key with
      ⟨entry, inside, -, record, written, block, length, type, read⟩ | ⟨-, unchanged⟩
    · obtain rfl : record = info := Option.some.inj (written.symm.trans found)
      have stored := coherent.buffer.entries _ entry (entry_stored coherent.buffer inside)
      refine ⟨(flush_settled leveldb coherent.buffer member _).mpr (Or.inr block), ?_, ?_, _, read⟩
      · rw [length]
        exact stored.2.1
      · rw [type, length]
        exact stored.2.2
    · rw [unchanged] at found
      obtain ⟨settled, short, type, value, read⟩ := coherent.indexed key info found
      have apart : info.blockId ≠ blockId := fun equal => settled.2 (equal ▸ member)
      refine ⟨(flush_settled leveldb coherent.buffer member _).mpr (Or.inl settled), short, type,
        value, ?_⟩
      rw [flush_slice apart]
      exact read

/-- A flush thread runs a flush that is scheduled, of the storage without it in the pool. -/
theorem runFlush_eq_some {next : Storage Db} :
    storage.runFlush hash leveldb blockId = some next ↔
      blockId ∈ storage.buffer.flushThreadPool ∧
      next = flush hash leveldb blockId { storage with buffer := { storage.buffer with
        flushThreadPool := storage.buffer.flushThreadPool.erase blockId } } := by
  unfold runFlush
  split
  · next scheduled => simp [scheduled, eq_comm]
  · next missing => simp [missing]

/-- The pool of the flush threads is not part of the representation. -/
theorem Coherent.withPool (coherent : storage.Coherent hash leveldb pending) (pool : List Nat) :
    ({ storage with buffer := { storage.buffer with flushThreadPool := pool } } :
      Storage Db).Coherent hash leveldb pending where
  buffer := coherent.buffer.withPool pool
  indexed := coherent.indexed

/-- A scheduled block is pending, wherever the caller stands. -/
theorem mem_pendingAt {buffer : WriteBuffer} (scheduled : blockId ∈ buffer.flushThreadPool)
    (pc : WriteBuffer.Pc) : blockId ∈ buffer.pendingAt pc := by
  cases pc with
  | syncInner newBlockSize => exact List.mem_append_left _ scheduled
  | _ => exact scheduled

/-- The caller has nothing pending but the pool when a call starts. -/
theorem pendingAt_returned {buffer : WriteBuffer} {pc : WriteBuffer.Pc} {status : Int}
    (idle : pc = .returned status) : buffer.pendingAt pc = buffer.flushThreadPool := by
  rw [idle]
  rfl

/-- Flushing takes the block out of what is pending, wherever the caller stands. -/
theorem pendingAt_erase {buffer : WriteBuffer} (scheduled : blockId ∈ buffer.flushThreadPool)
    (pc : WriteBuffer.Pc) :
    ({ buffer with flushThreadPool := buffer.flushThreadPool.erase blockId } :
      WriteBuffer).pendingAt pc = (buffer.pendingAt pc).erase blockId := by
  cases pc with
  | syncInner newBlockSize => exact (List.erase_append_left _ scheduled).symm
  | _ => rfl

/-- What a flush thread preserves when it runs a scheduled flush. -/
theorem runFlush_kept {next : Storage Db} {pc : WriteBuffer.Pc}
    (coherent : storage.Coherent hash leveldb (storage.buffer.pendingAt pc))
    (ran : storage.runFlush hash leveldb blockId = some next) :
    next.Coherent hash leveldb (next.buffer.pendingAt pc) ∧
    (∀ other, storage.buffer.Settled (storage.buffer.pendingAt pc) other →
      next.buffer.Settled (next.buffer.pendingAt pc) other) ∧
    ∀ key, Alone hash storage.buffer key →
      next.lookup hash leveldb key = storage.lookup hash leveldb key := by
  obtain ⟨scheduled, rfl⟩ := runFlush_eq_some.mp ran
  have member := mem_pendingAt scheduled pc
  have taken := coherent.withPool (storage.buffer.flushThreadPool.erase blockId)
  have flushed := flush_coherent taken member
  rw [← pendingAt_erase scheduled] at flushed
  refine ⟨flushed, fun other settled => ?_, fun key alone => flush_lookup taken member alone⟩
  have kept := (flush_settled leveldb taken.buffer member other).mpr (Or.inl settled)
  rw [← pendingAt_erase scheduled] at kept
  exact kept

/-- The store after a flush thread has run holds only what it held before. -/
theorem runFlush_kvStore {next : Storage Db} {hashed : UInt64} {info : KvInfo}
    (ran : storage.runFlush hash leveldb blockId = some next)
    (found : next.buffer.kvStore.lookup hashed = some info) :
    storage.buffer.kvStore.lookup hashed = some info := by
  obtain ⟨-, rfl⟩ := runFlush_eq_some.mp ran
  rw [flush_kvStore, Table.lookup_eraseAll] at found
  split at found
  · cases found
  · exact found

end CudaDb.Storage
