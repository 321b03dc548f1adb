import CudaDb.Lib.Commute
import CudaDb.Verif.BufferRepresentation

/-!
# The order of the flushes

No hash is in two blocks, so two flushes take different entries out of the store, record different
keys and write different files: it does not matter which one runs first. Two flushes of one block
do not differ at all. So the flush threads may run the scheduled flushes in any order.
-/

namespace CudaDb

namespace Storage

open WriteBuffer (slabOf)

variable {Db : Type*} {hash : String → UInt64} {leveldb : LevelDb Db}
  {storage next : Storage Db} {pending : List Nat} {blockId : Nat}

/-- The record that the loop of a flush leaves under the key, if it writes one. -/
def recorded (blockId : Nat) : Nat → List KvInfo → String → Option IndexRecord
  | _, [], _ => none
  | offset, entry :: entries, key =>
    (recorded blockId (offset + entry.value.length) entries key).or
      (if key = entry.key then some (.info {
        blockId
        offset
        length := entry.value.length
        lengthType := entry.valueLengthType }) else none)

/-- What the loop records depends on the block only; the other records stay. -/
theorem flushEntries_get (entries : List KvInfo) (start : Flushing Db) (key : String) :
    leveldb.get (entries.foldl (flushEntry hash leveldb blockId) start).db key =
      (recorded blockId start.offset entries key).or (leveldb.get start.db key) := by
  induction entries generalizing start with
  | nil => rfl
  | cons entry entries ih =>
    rw [List.foldl_cons, ih, recorded, Option.or_assoc]
    congr 1
    unfold flushEntry
    rw [leveldb.get_put]
    by_cases same : key = entry.key
    · rw [if_pos same, if_pos same]
      rfl
    · rw [if_neg same, if_neg same]
      rfl

/-- Only keys of the block are recorded. -/
theorem recorded_key {offset : Nat} {entries : List KvInfo} {key : String}
    {record : IndexRecord} (found : recorded blockId offset entries key = some record) :
    ∃ entry ∈ entries, entry.key = key := by
  induction entries generalizing offset record with
  | nil => cases found
  | cons entry entries ih =>
    rw [recorded] at found
    cases later : recorded blockId (offset + entry.value.length) entries key with
    | some record =>
      obtain ⟨other, member, same⟩ := ih later
      exact ⟨other, List.mem_cons_of_mem _ member, same⟩
    | none =>
      rw [later, Option.none_or] at found
      by_cases same : key = entry.key
      · exact ⟨entry, List.mem_cons_self, same.symm⟩
      · rw [if_neg same] at found
        cases found

/-- The index after a flush. -/
theorem flush_get (storage : Storage Db) (key : String) :
    leveldb.get (storage.flush hash leveldb blockId).db key =
      (recorded blockId 0 (storage.entriesOf blockId) key).or (leveldb.get storage.db key) :=
  flushEntries_get _ _ key

/-- The buffer after a flush. -/
theorem flush_buffer_eq (storage : Storage Db) :
    (storage.flush hash leveldb blockId).buffer = { storage.buffer with
      kvStore := storage.buffer.kvStore.eraseAll
        ((storage.entriesOf blockId).map fun entry => hash entry.key)
      blocks := storage.buffer.blocks.erase blockId
      totalSize := storage.buffer.totalSize - ((storage.entriesOf blockId).map slabOf).sum } := by
  unfold flush
  simp only [flushEntries_kvStore, flushEntries_flushedSize, zero_add]

/-- The flush threads, which take scheduled flushes in any order. -/
def flushes (hash : String → UInt64) (leveldb : LevelDb Db) : Machine (Storage Db) Nat where
  step storage blockId := storage.runFlush hash leveldb blockId

/-- The buffer and the files are the same, and so is every record of the index. -/
structure Same (leveldb : LevelDb Db) (first second : Storage Db) : Prop where
  /-- The buffers are the same. -/
  buffer : first.buffer = second.buffer
  /-- The files are the same. -/
  hdd : first.hdd = second.hdd
  /-- Every key has the same record. -/
  index : ∀ key, leveldb.get first.db key = leveldb.get second.db key

/-- A flush does not tell the same storages apart. -/
theorem flushes_congruence (hash : String → UInt64) (leveldb : LevelDb Db) :
    (flushes hash leveldb).Congruence (Same leveldb) where
  refl := fun _ => ⟨rfl, rfl, fun _ => rfl⟩
  trans := fun _ _ _ left right => ⟨left.buffer.trans right.buffer, left.hdd.trans right.hdd,
    fun key => (left.index key).trans (right.index key)⟩
  step := by
    intro first second blockId next alike stepped
    obtain ⟨scheduled, rfl⟩ := runFlush_eq_some.mp stepped
    rw [alike.buffer] at scheduled
    refine ⟨_, runFlush_eq_some.mpr ⟨scheduled, rfl⟩, ?_, ?_, ?_⟩
    · rw [flush_buffer_eq, flush_buffer_eq, alike.buffer]
    · rw [flush_hdd, flush_hdd, alike.hdd, alike.buffer]
    · intro key
      rw [flush_get, flush_get, alike.buffer]
      exact congrArg _ (alike.index key)

/-- The entries of another block are not touched by a flush. -/
theorem flush_entriesOf {other : Nat} (apart : other ≠ blockId) :
    (storage.flush hash leveldb blockId).entriesOf other = storage.entriesOf other := by
  unfold entriesOf
  rw [flush_buffer_eq, Table.slot, Table.lookup_erase_if, if_neg apart, Table.slot]

/-- No key has entries in two blocks. -/
theorem keys_apart (coherent : storage.buffer.Coherent hash pending) {other : Nat}
    (apart : other ≠ blockId) {left right : KvInfo} (here : left ∈ storage.entriesOf blockId)
    (there : right ∈ storage.entriesOf other) : hash left.key ≠ hash right.key := by
  intro same
  refine (block_apart coherent blockId).2.2 (hash right.key) ?_ ?_
  · cases block : storage.buffer.blocks.lookup other with
    | none =>
      rw [entriesOf, Table.slot, block] at there
      cases there
    | some entries =>
      rw [entriesOf, Table.slot_of_lookup block] at there
      refine Table.mem_total.mpr ⟨other, entries, ?_, ?_⟩
      · rw [Table.lookup_erase_if, if_neg apart]
        exact block
      · rw [Table.sum_singletons]
        exact List.mem_map.mpr ⟨right, there, rfl⟩
  · rw [← same]
    exact List.mem_map_of_mem here

/-- Two blocks are flushed in either order. -/
theorem flush_flush (coherent : storage.buffer.Coherent hash pending) {first second : Nat}
    (apart : second ≠ first) :
    Same leveldb ((storage.flush hash leveldb first).flush hash leveldb second)
      ((storage.flush hash leveldb second).flush hash leveldb first) where
  buffer := by
    rw [flush_buffer_eq, flush_entriesOf apart, flush_buffer_eq storage,
      flush_buffer_eq (storage.flush hash leveldb second), flush_entriesOf apart.symm,
      flush_buffer_eq storage]
    have stores : ∀ left right : List UInt64,
        (storage.buffer.kvStore.eraseAll left).eraseAll right =
          (storage.buffer.kvStore.eraseAll right).eraseAll left := by
      intro left right
      apply Finmap.ext_lookup
      intro hashed
      rw [Table.lookup_eraseAll, Table.lookup_eraseAll, Table.lookup_eraseAll,
        Table.lookup_eraseAll]
      split <;> split <;> rfl
    have blocks : (storage.buffer.blocks.erase first).erase second =
        (storage.buffer.blocks.erase second).erase first := Finmap.erase_erase ..
    dsimp only
    rw [stores, blocks, sub_right_comm]
  hdd := by
    rw [flush_hdd, flush_hdd, flush_hdd, flush_hdd, flush_entriesOf apart,
      flush_entriesOf apart.symm]
    exact Finmap.insert_insert_of_ne _ apart.symm
  index := by
    intro key
    rw [flush_get, flush_get, flush_get, flush_get, flush_entriesOf apart,
      flush_entriesOf apart.symm]
    cases left : recorded first 0 (storage.entriesOf first) key with
    | none => rw [Option.none_or, Option.none_or]
    | some record =>
      cases right : recorded second 0 (storage.entriesOf second) key with
      | none => rw [Option.none_or, Option.none_or]
      | some other =>
        obtain ⟨here, inside, own⟩ := recorded_key left
        obtain ⟨there, within, also⟩ := recorded_key right
        exact absurd (congrArg hash (own.trans also.symm)) (keys_apart coherent apart inside within)

/-- Scheduled flushes commute. -/
theorem flushes_commutes (hash : String → UInt64) (leveldb : LevelDb Db) :
    (flushes hash leveldb).Commutes (fun storage => storage.buffer.Consistent hash)
      (Same leveldb) := by
  rintro storage first second middle final ⟨pending, coherent, -⟩ one two
  obtain ⟨early, rfl⟩ := runFlush_eq_some.mp one
  obtain ⟨late, rfl⟩ := runFlush_eq_some.mp two
  have late : second ∈ storage.buffer.flushThreadPool.erase first := late
  by_cases apart : second = first
  · subst apart
    exact ⟨_, _, one, two, (flushes_congruence hash leveldb).refl _⟩
  have before : first ∈ storage.buffer.flushThreadPool.erase second :=
    (List.mem_erase_of_ne fun same => apart same.symm).mpr early
  refine ⟨_, _, runFlush_eq_some.mpr ⟨List.mem_of_mem_erase late, rfl⟩,
    runFlush_eq_some.mpr ⟨before, rfl⟩, ?_⟩
  -- A flush neither reads nor writes the pool, so both flushes run on what is left of it.
  let left : Storage Db := { storage with buffer := { storage.buffer with
    flushThreadPool := (storage.buffer.flushThreadPool.erase first).erase second } }
  have still : left.buffer.Coherent hash pending := coherent.withPool _
  have swapped : Same leveldb ((left.flush hash leveldb first).flush hash leveldb second)
      ((left.flush hash leveldb second).flush hash leveldb first) := flush_flush still apart
  have pools : (storage.buffer.flushThreadPool.erase second).erase first =
      (storage.buffer.flushThreadPool.erase first).erase second := List.erase_comm ..
  change Same leveldb _ (flush hash leveldb first (flush hash leveldb second { storage with
    buffer := { storage.buffer with
      flushThreadPool := (storage.buffer.flushThreadPool.erase second).erase first } }))
  rw [pools]
  exact swapped

/-- The flushes of a whole pool can run in any order. -/
theorem flushes_run (storage : Storage Db) {order : List Nat}
    (whole : order.Perm storage.buffer.flushThreadPool) :
    ∃ next, (flushes hash leveldb).run storage order = some next := by
  induction order generalizing storage with
  | nil => exact ⟨storage, rfl⟩
  | cons blockId order ih =>
    have scheduled : blockId ∈ storage.buffer.flushThreadPool :=
      whole.subset List.mem_cons_self
    have left : order.Perm (storage.buffer.flushThreadPool.erase blockId) := by
      have erased := whole.erase blockId
      rwa [List.erase_cons_head] at erased
    obtain ⟨next, ran⟩ := ih (flush hash leveldb blockId { storage with
      buffer := { storage.buffer with
        flushThreadPool := storage.buffer.flushThreadPool.erase blockId } }) left
    exact ⟨next, Machine.run_cons.mpr ⟨_, runFlush_eq_some.mpr ⟨scheduled, rfl⟩, ran⟩⟩

end Storage

namespace Writers

variable {Thread Db : Type*} [DecidableEq Thread] {hash : String → UInt64} {leveldb : LevelDb Db}
  {writers : Writers Thread Db}

/-- Flushes leave the calls where they stand. -/
theorem run_flushes {storage : Storage Db} {order : List Nat}
    (ran : (Storage.flushes hash leveldb).run writers.storage order = some storage) :
    (machine hash leveldb).run writers (order.map .flush) = some { writers with storage } := by
  induction order generalizing writers with
  | nil =>
    obtain rfl := Option.some.inj ran
    rfl
  | cons blockId order ih =>
    obtain ⟨next, stepped, rest⟩ := Machine.run_cons.mp ran
    have flushed : (machine hash leveldb).step writers (.flush blockId) =
        some { writers with storage := next } := congrArg (Option.map _) stepped
    have later : (machine hash leveldb).run { writers with storage := next }
        (order.map .flush) = some { writers with storage } := ih rest
    exact Machine.run_cons.mpr ⟨_, flushed, later⟩

/-- In every state that calls of `write` and `sync` and flushes reach, the scheduled flushes can
run in any order, and end with one buffer, one set of files and one index. -/
theorem flushes_any_order {pageSize pagePerBlock pageNum : Nat} {events : List (Event Thread)}
    (ran : (machine hash leveldb).run (start leveldb pageSize pagePerBlock pageNum) events =
      some writers) {first second : List Nat}
    (one : first.Perm writers.storage.buffer.flushThreadPool)
    (another : second.Perm writers.storage.buffer.flushThreadPool) :
    ∃ left right, (machine hash leveldb).run writers (first.map .flush) = some left ∧
      (machine hash leveldb).run writers (second.map .flush) = some right ∧
      left.storage.Same leveldb right.storage := by
  obtain ⟨left, ran_first⟩ := @Storage.flushes_run _ hash leveldb writers.storage _ one
  obtain ⟨right, ran_second, same⟩ := Machine.run_perm
    (Storage.flushes_congruence hash leveldb) (Storage.flushes_commutes hash leveldb)
    (fun _ _ _ consistent flushed => Storage.runFlush_consistent consistent flushed)
    (one.trans another.symm) (run_sound ran).buffer ran_first
  exact ⟨_, _, run_flushes ran_first, run_flushes ran_second, same⟩

/-- Two threads store a value each and sync it, and neither block is flushed yet. -/
def twoSyncs : List (Event Bool) :=
  Event.write true "a" [1, 2] :: List.replicate 3 (Event.step true false) ++
    Event.sync true :: List.replicate 3 (Event.step true false) ++
    Event.write false "bb" [3] :: List.replicate 3 (Event.step false false) ++
    Event.sync false :: List.replicate 3 (Event.step false false)

/-- Either block may be flushed first. -/
theorem flushes_any_order_twoSyncs : ∃ writers,
    (machine Storage.lengthHash LevelDb.table).run (start LevelDb.table (1024 * 1024) 64 64)
      twoSyncs = some writers ∧
    ∃ left right,
      (machine Storage.lengthHash LevelDb.table).run writers [.flush 1, .flush 2] = some left ∧
      (machine Storage.lengthHash LevelDb.table).run writers [.flush 2, .flush 1] = some right ∧
      left.storage.Same LevelDb.table right.storage := by
  have executed : ∃ writers, (machine Storage.lengthHash LevelDb.table).run
      (start LevelDb.table (1024 * 1024) 64 64) twoSyncs = some writers ∧
      writers.storage.buffer.flushThreadPool = [1, 2] := ⟨_, rfl, rfl⟩
  obtain ⟨writers, ran, pool⟩ := executed
  have ascending : [1, 2].Perm writers.storage.buffer.flushThreadPool := by rw [pool]
  have descending : [2, 1].Perm writers.storage.buffer.flushThreadPool := by
    rw [pool]
    decide
  exact ⟨writers, ran, flushes_any_order ran ascending descending⟩

end Writers

end CudaDb
