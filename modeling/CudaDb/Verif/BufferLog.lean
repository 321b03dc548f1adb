import CudaDb.Lib.SegmentedLog
import CudaDb.Verif.SyncDrain
import CudaDb.Verif.BufferLookup

/-!
# The write buffer and its files are a log

The accepted writes are a log. Its end is the queue, its front is cut into segments, the blocks, by
`write` and by `sync`; a block that has been flushed is the file with the bytes of its segment, and
one that has not holds the entries themselves. So the operations of the log are those of the buffer,
and a flush, which only moves a segment to the disk, is none of them. Whatever the hash, the files
in the order of their ids and what is still buffered spell the accepted values in order, and an
index record is the place of an entry in its segment.
-/

namespace CudaDb.Storage

open WriteBuffer (Pc slabOf)

variable {Db : Type*} {hash : String → UInt64} {leveldb : LevelDb Db} {storage : Storage Db}
  {buffer : WriteBuffer} {pending : List Nat} {log : SegmentedLog KvInfo}

/-- The bytes of an entry. -/
def bytesOf (entry : KvInfo) : Nat := entry.value.length

/-- The storage, with these blocks pending, holds the log. -/
structure Spells (leveldb : LevelDb Db) (storage : Storage Db) (pending : List Nat)
    (log : SegmentedLog KvInfo) : Prop where
  /-- Each id that was given out is a segment. -/
  count : log.segments.length = storage.buffer.latestBlockId
  /-- `kv_list` is the queue. -/
  queue : storage.buffer.kvList.map storage.buffer.kvStore.slot = log.queue
  /-- A pending block holds the entries of its segment. -/
  held : ∀ blockId ∈ pending, 1 ≤ blockId ∧ storage.entriesOf blockId = log.segment blockId
  /-- A file is a block that is not pending, and has the bytes of its segment. -/
  written : ∀ blockId file, storage.hdd.lookup blockId = some file →
    blockId ∉ pending ∧ 1 ≤ blockId ∧ blockId ≤ storage.buffer.latestBlockId ∧
      file = (log.segment blockId).flatMap KvInfo.value
  /-- Each block is pending or has a file. -/
  complete : ∀ blockId, 1 ≤ blockId → blockId ≤ storage.buffer.latestBlockId →
    blockId ∈ pending ∨ blockId ∈ storage.hdd
  /-- A record is the place of an entry with its key in the segment of a file. -/
  indexed : ∀ key info, CentraIndex.getInfo leveldb storage.db key = some info →
    info.blockId ∈ storage.hdd ∧ ∃ entry, entry.key = key ∧ info.length = bytesOf entry ∧
      SegmentedLog.LiesAt bytesOf (log.segment info.blockId) info.offset entry

/-- The fresh storage holds the empty log. -/
theorem initial_spells (leveldb : LevelDb Db) (pageSize pagePerBlock pageNum : Nat) :
    (initial leveldb pageSize pagePerBlock pageNum).Spells leveldb [] .empty where
  count := rfl
  queue := rfl
  held := fun _ member => absurd member List.not_mem_nil
  written := fun _ _ found => by cases found
  complete := by
    intro blockId positive small
    have none_given : blockId ≤ 0 := small
    omega
  indexed := by
    intro key info found
    have none_put : CentraIndex.getInfo leveldb
        (initial leveldb pageSize pagePerBlock pageNum).db key = none :=
      CentraIndex.getInfo_setup leveldb key
    rw [none_put] at found
    cases found

/-- A file is of a block that is not pending. -/
theorem Spells.not_pending (spells : storage.Spells leveldb pending log) {blockId : Nat}
    (file : blockId ∈ storage.hdd) : blockId ∉ pending := by
  obtain ⟨bytes, found⟩ := Finmap.mem_iff.mp file
  exact (spells.written blockId bytes found).1

/-- The pool of the flush threads is not part of the log. -/
theorem Spells.withPool (spells : storage.Spells leveldb pending log) (pool : List Nat) :
    ({ storage with buffer := { storage.buffer with flushThreadPool := pool } } :
      Storage Db).Spells leveldb pending log :=
  ⟨spells.count, spells.queue, spells.held, spells.written, spells.complete, spells.indexed⟩

/-- Storing an entry appends it. -/
theorem store_spells (coherent : storage.buffer.Coherent hash pending)
    (spells : storage.Spells leveldb pending log) {key : String} (value : List UInt8)
    (absent : hash key ∉ storage.buffer.kvStore) :
    ({ storage with buffer := storage.buffer.store hash key value } : Storage Db).Spells leveldb
      pending (log.append { key, value, valueLengthType := slabType value.length }) where
  count := spells.count
  queue := by
    have older := coherent.store_slots value absent
    have newest : (storage.buffer.store hash key value).kvStore.slot (hash key) =
        { key, value, valueLengthType := slabType value.length } :=
      Table.slot_of_lookup (Finmap.lookup_insert _)
    change (storage.buffer.kvList ++ [hash key]).map _ = log.queue ++ _
    rw [List.map_append, older, spells.queue, List.map_singleton, newest]
  held := spells.held
  written := spells.written
  complete := spells.complete
  indexed := spells.indexed

/-- Opening a block starts a segment. -/
theorem openBlock_spells (coherent : storage.buffer.Coherent hash pending)
    (spells : storage.Spells leveldb pending log) :
    ({ storage with buffer := storage.buffer.openBlock } : Storage Db).Spells leveldb
      (pending ++ [storage.buffer.latestBlockId + 1]) log.start where
  count := by
    rw [SegmentedLog.length_start, spells.count]
    rfl
  queue := spells.queue
  held := by
    intro blockId member
    rw [SegmentedLog.segment_start]
    rcases List.mem_append.mp member with old | new
    · exact spells.held blockId old
    · obtain rfl := List.mem_singleton.mp new
      have count := spells.count
      have nothing := coherent.slot_above (Nat.lt_succ_self storage.buffer.latestBlockId)
      refine ⟨Nat.succ_pos _, nothing.trans ?_⟩
      rw [SegmentedLog.segment_above (by omega)]
  written := by
    intro blockId file found
    obtain ⟨settled, positive, old, spelled⟩ := spells.written blockId file found
    refine ⟨fun member => ?_, positive, Nat.le_succ_of_le old, ?_⟩
    · rcases List.mem_append.mp member with still | newest
      · exact settled still
      · have same := List.mem_singleton.mp newest
        omega
    · rw [SegmentedLog.segment_start]
      exact spelled
  complete := by
    intro blockId positive small
    have bound : blockId ≤ storage.buffer.latestBlockId + 1 := small
    by_cases newest : blockId = storage.buffer.latestBlockId + 1
    · exact Or.inl (List.mem_append_right _ (List.mem_singleton.mpr newest))
    · exact (spells.complete blockId positive (by omega)).imp_left (List.mem_append_left _)
  indexed := by
    intro key info found
    rw [SegmentedLog.segment_start]
    exact spells.indexed key info found

/-- Packing the front entry moves it to the newest segment. -/
theorem moveFront_spells (spells : storage.Spells leveldb pending log) {hashed : UInt64}
    {rest : List UInt64}
    {info : KvInfo} (front : storage.buffer.kvList = hashed :: rest)
    (found : storage.buffer.kvStore.lookup hashed = some info)
    (open_block : storage.buffer.latestBlockId ∈ pending) :
    ({ storage with buffer := storage.buffer.moveFront rest info } : Storage Db).Spells leveldb
      pending (log.move info (rest.map storage.buffer.kvStore.slot)) ∧
    (log.move info (rest.map storage.buffer.kvStore.slot)).entries = log.entries := by
  have positive := (spells.held _ open_block).1
  have count := spells.count
  have some_segment : log.segments ≠ [] := by
    apply List.ne_nil_of_length_pos
    omega
  have queue : log.queue = info :: rest.map storage.buffer.kvStore.slot := by
    rw [← spells.queue, front, List.map_cons, Table.slot_of_lookup found]
  -- The files are of other blocks, so what they spell stays.
  have settled {blockId : Nat} (file : blockId ∈ storage.hdd) :
      (log.move info (rest.map storage.buffer.kvStore.slot)).segment blockId =
        log.segment blockId := by
    apply SegmentedLog.segment_move_other _ some_segment
    rintro rfl
    rw [count] at file
    exact spells.not_pending file open_block
  refine ⟨⟨?_, rfl, ?_, ?_, spells.complete, ?_⟩, SegmentedLog.entries_move some_segment queue⟩
  · rw [SegmentedLog.length_move some_segment]
    exact count
  · intro blockId member
    obtain ⟨first, holds⟩ := spells.held blockId member
    refine ⟨first, ?_⟩
    by_cases newest : blockId = storage.buffer.latestBlockId
    · rw [newest] at holds ⊢
      have pushed : (storage.buffer.moveFront rest info).blocks.slot
          storage.buffer.latestBlockId = storage.entriesOf storage.buffer.latestBlockId ++ [info] :=
        Table.slot_of_lookup (Finmap.lookup_insert _)
      rw [← count] at holds pushed ⊢
      rw [SegmentedLog.segment_move_newest some_segment, ← holds]
      exact pushed
    · rw [SegmentedLog.segment_move_other (by omega) some_segment, ← holds]
      unfold entriesOf Table.slot
      change ((storage.buffer.moveFront rest info).blocks.lookup blockId).getD _ = _
      rw [WriteBuffer.moveFront, Table.lookup_insert_if, if_neg newest]
  · intro blockId file found
    obtain ⟨finished, first, old, spelled⟩ := spells.written blockId file found
    refine ⟨finished, first, old, ?_⟩
    rw [settled (Finmap.mem_iff.mpr ⟨file, found⟩)]
    exact spelled
  · intro key record found
    obtain ⟨file, entry, named, length, lies⟩ := spells.indexed key record found
    refine ⟨file, entry, named, length, ?_⟩
    rw [settled file]
    exact lies

/-- The packing loop of `write` only moves entries. -/
theorem packLoop_spells {queue : List UInt64} {newBlockSize : Nat} {next : WriteBuffer}
    (coherent : storage.buffer.Coherent hash pending) (spells : storage.Spells leveldb pending log)
    (front : storage.buffer.kvList = queue) (open_block : storage.buffer.latestBlockId ∈ pending)
    (packed : WriteBuffer.packLoop queue newBlockSize storage.buffer = some next) :
    ∃ later : SegmentedLog KvInfo,
      ({ storage with buffer := next } : Storage Db).Spells leveldb pending later ∧
        later.entries = log.entries := by
  induction queue generalizing storage log newBlockSize with
  | nil => cases packed
  | cons hashed rest ih =>
    obtain ⟨info, found, step⟩ := WriteBuffer.packFront_cases coherent front newBlockSize
    rw [WriteBuffer.packLoop, step] at packed
    by_cases full :
        newBlockSize + slabSize info.valueLengthType > storage.buffer.blockCapacity
    · rw [if_pos full] at packed
      obtain rfl := Option.some.inj packed
      exact ⟨log, spells, rfl⟩
    · rw [if_neg full] at packed
      obtain ⟨moved, same⟩ := moveFront_spells spells front found open_block
      have still := WriteBuffer.moveFront_coherent coherent front found open_block
      obtain ⟨later, final, kept⟩ := ih still moved rfl open_block packed
      exact ⟨later, final, kept.trans same⟩

/-- What `write` does under its lock: it refuses the value and changes nothing, or it appends its
entry to the log. -/
theorem writeLocked_spells {key : String} {value : List UInt8} {status : Int} {next : WriteBuffer}
    (coherent : storage.buffer.Coherent hash storage.buffer.flushThreadPool)
    (spells : storage.Spells leveldb storage.buffer.flushThreadPool log)
    (short : value.length ≤ slabSize 10)
    (written : WriteBuffer.writeLocked hash key value storage.buffer = some (status, next)) :
    ∃ later : SegmentedLog KvInfo,
      ({ storage with buffer := next } : Storage Db).Spells leveldb next.flushThreadPool later ∧
      later.entries = log.entries ++ if status = 0 then
        [{ key, value, valueLengthType := slabType value.length }] else [] := by
  unfold WriteBuffer.writeLocked at written
  by_cases present : hash key ∈ storage.buffer.kvStore
  · rw [if_pos present] at written
    obtain ⟨rfl, rfl⟩ := Prod.mk.inj (Option.some.inj written)
    exact ⟨log, spells, (List.append_nil _).symm⟩
  rw [if_neg present] at written
  have stored := store_spells coherent spells value present
  have fine := WriteBuffer.store_coherent coherent short present
  by_cases full : (storage.buffer.store hash key value).totalSizeWithoutBlock >
      (storage.buffer.store hash key value).blockCapacity
  · rw [if_pos full] at written
    obtain ⟨packed, loop, same⟩ := Option.map_eq_some_iff.mp written
    obtain ⟨rfl, rfl⟩ := Prod.mk.inj same
    obtain ⟨later, spelled, kept⟩ := packLoop_spells (WriteBuffer.openBlock_coherent fine)
      (openBlock_spells fine stored) rfl (List.mem_append_right _ List.mem_cons_self) loop
    obtain ⟨-, -, latest, pool⟩ := WriteBuffer.packLoop_coherent
      (WriteBuffer.openBlock_coherent fine) rfl
      (List.mem_append_right _ List.mem_cons_self) loop
    have scheduled : packed.schedule.flushThreadPool =
        storage.buffer.flushThreadPool ++ [storage.buffer.latestBlockId + 1] := by
      rw [WriteBuffer.schedule, latest, pool]
      rfl
    refine ⟨later, ?_, ?_⟩
    · rw [scheduled]
      exact spelled.withPool _
    · rw [kept, SegmentedLog.entries_start, SegmentedLog.entries_append, if_pos rfl]
  · rw [if_neg full] at written
    obtain ⟨rfl, rfl⟩ := Prod.mk.inj (Option.some.inj written)
    exact ⟨_, stored, by rw [SegmentedLog.entries_append, if_pos rfl]⟩

/-- A step of a call of `sync` leaves what the log spells. -/
theorem sync_spells {ssdFull : Bool} {pc after : Pc} {next : WriteBuffer} (syncing : pc.Syncing)
    (coherent : storage.buffer.Coherent hash (storage.buffer.pendingAt pc))
    (spells : storage.Spells leveldb (storage.buffer.pendingAt pc) log)
    (stepped : storage.buffer.step hash ssdFull pc = some (after, next)) :
    ∃ later : SegmentedLog KvInfo,
      ({ storage with buffer := next } : Storage Db).Spells leveldb (next.pendingAt after) later ∧
      later.entries = log.entries := by
  rcases WriteBuffer.step_sync_cases coherent syncing stepped with
    ⟨rfl, -, rfl, rfl⟩ | ⟨rfl, -, rfl, rfl⟩ | ⟨size, rfl, rfl, rfl, -⟩ |
    ⟨size, hashed, rest, info, rfl, front, found, -, rfl, rfl⟩ | ⟨rfl, -, rfl, rfl⟩
  · exact ⟨log, spells, rfl⟩
  · exact ⟨log.start, openBlock_spells coherent spells, SegmentedLog.entries_start⟩
  · exact ⟨log, spells.withPool _, rfl⟩
  · obtain ⟨moved, same⟩ := moveFront_spells spells front found
      (List.mem_append_right _ List.mem_cons_self)
    exact ⟨_, moved, same⟩
  · exact ⟨log, spells, rfl⟩

/-- The entry that is accepted when a call goes on from `pc` to `after`. -/
def appended : Pc → Pc → List KvInfo
  | .locked key value, .returned status =>
    if status = 0 then [{ key, value, valueLengthType := slabType value.length }] else []
  | _, _ => []

/-- Every step of a call appends the entry of an accepted write, and nothing else. -/
theorem step_spells {ssdFull : Bool} {pc after : Pc} {next : WriteBuffer}
    (coherent : storage.buffer.Coherent hash (storage.buffer.pendingAt pc)) (short : pc.Short)
    (spells : storage.Spells leveldb (storage.buffer.pendingAt pc) log)
    (stepped : storage.buffer.step hash ssdFull pc = some (after, next)) :
    ∃ later : SegmentedLog KvInfo,
      ({ storage with buffer := next } : Storage Db).Spells leveldb (next.pendingAt after) later ∧
      later.entries = log.entries ++ appended pc after := by
  cases pc with
  | waitTotal key value | waitSsd key value =>
    simp only [WriteBuffer.step] at stepped
    split at stepped
    · cases stepped
    · cases stepped
      exact ⟨log, spells, (List.append_nil _).symm⟩
  | locked key value =>
    obtain ⟨⟨status, written⟩, accepted, same⟩ := Option.map_eq_some_iff.mp stepped
    obtain ⟨rfl, rfl⟩ := Prod.mk.inj same
    exact writeLocked_spells coherent spells (short key value rfl) accepted
  | syncOuter | syncInner | syncDrain =>
    obtain ⟨later, holds, same⟩ := sync_spells (by trivial) coherent spells stepped
    exact ⟨later, holds, same.trans (List.append_nil _).symm⟩
  | returned status => cases stepped

/-! ## Flushes -/

/-- After the loop of a flush a key has the place of its last entry, or it has the record that it
had and no entry has the key. -/
theorem flushEntries_places (hash : String → UInt64) (leveldb : LevelDb Db) (blockId : Nat)
    (entries : List KvInfo) (start : Flushing Db) (key : String) :
    (∃ before entry after, entries = before ++ entry :: after ∧ entry.key = key ∧
      CentraIndex.getInfo leveldb (entries.foldl (flushEntry hash leveldb blockId) start).db key =
        some {
          blockId
          offset := start.offset + (before.map bytesOf).sum
          length := bytesOf entry
          lengthType := entry.valueLengthType }) ∨
    CentraIndex.getInfo leveldb (entries.foldl (flushEntry hash leveldb blockId) start).db key =
      CentraIndex.getInfo leveldb start.db key := by
  induction entries generalizing start with
  | nil => exact Or.inr rfl
  | cons first entries ih =>
    rw [List.foldl_cons]
    rcases ih (flushEntry hash leveldb blockId start first) with
      ⟨before, entry, after, split, named, placed⟩ | unchanged
    · refine Or.inl ⟨first :: before, entry, after, ?_, named, ?_⟩
      · rw [split, List.cons_append]
      · rw [placed, List.map_cons, List.sum_cons, ← Nat.add_assoc]
        rfl
    · have put := CentraIndex.getInfo_put leveldb start.db first.key key {
        blockId
        offset := start.offset
        length := first.value.length
        lengthType := first.valueLengthType }
      by_cases same : key = first.key
      · rw [if_pos same] at put
        exact Or.inl ⟨[], first, entries, rfl, same.symm, unchanged.trans put⟩
      · rw [if_neg same] at put
        exact Or.inr (unchanged.trans put)

/-- A flush of a pending block leaves the log. -/
theorem flush_spells {blockId : Nat} (coherent : storage.buffer.Coherent hash pending)
    (spells : storage.Spells leveldb pending log) (member : blockId ∈ pending) :
    (storage.flush hash leveldb blockId).Spells leveldb (pending.erase blockId) log := by
  have holds := (spells.held blockId member).2
  have hdd : (storage.flush hash leveldb blockId).hdd =
      storage.hdd.insert blockId ((log.segment blockId).flatMap KvInfo.value) := by
    rw [flush_hdd, holds]
  refine ⟨spells.count, ?_, ?_, ?_, ?_, ?_⟩
  · rw [← spells.queue]
    apply List.map_congr_left
    intro hashed queued
    have elsewhere := (block_apart coherent blockId).2.1 hashed queued
    rw [Table.slot, flush_kept elsewhere, Table.slot]
  · intro other still
    obtain ⟨different, old⟩ := (coherent.ids.1.mem_erase_iff).mp still
    obtain ⟨first, same⟩ := spells.held other old
    refine ⟨first, ?_⟩
    rw [← same]
    unfold entriesOf Table.slot
    change ((storage.buffer.blocks.erase blockId).lookup other).getD _ = _
    rw [Table.lookup_erase_if, if_neg different]
  · intro other file found
    rw [hdd, Table.lookup_insert_if] at found
    by_cases same : other = blockId
    · rw [if_pos same] at found
      rw [same]
      exact ⟨coherent.ids.1.not_mem_erase, (spells.held blockId member).1,
        coherent.ids.2 blockId member, (Option.some.inj found).symm⟩
    · rw [if_neg same] at found
      obtain ⟨finished, first, old, spelled⟩ := spells.written other file found
      exact ⟨fun still => finished (List.mem_of_mem_erase still), first, old, spelled⟩
  · intro other first old
    rw [hdd, Finmap.mem_insert]
    by_cases same : other = blockId
    · exact Or.inr (Or.inl same)
    · exact (spells.complete other first old).imp (List.mem_erase_of_ne same).mpr Or.inr
  · intro key info found
    rw [hdd, Finmap.mem_insert]
    rcases flushEntries_places hash leveldb blockId (storage.entriesOf blockId)
      ⟨[], 0, 0, storage.db, storage.buffer.kvStore⟩ key with
      ⟨before, entry, after, split, named, placed⟩ | unchanged
    · obtain rfl := Option.some.inj (placed.symm.trans found)
      refine ⟨Or.inl rfl, entry, named, rfl, before, after, ?_, Nat.zero_add _⟩
      rw [← split, holds]
    · obtain ⟨file, place⟩ := spells.indexed key info (unchanged.symm.trans found)
      exact ⟨Or.inr file, place⟩

/-- A flush thread leaves the log. -/
theorem runFlush_spells {blockId : Nat} {pc : Pc} {next : Storage Db}
    (coherent : storage.buffer.Coherent hash (storage.buffer.pendingAt pc))
    (spells : storage.Spells leveldb (storage.buffer.pendingAt pc) log)
    (ran : storage.runFlush hash leveldb blockId = some next) :
    next.Spells leveldb (next.buffer.pendingAt pc) log := by
  obtain ⟨scheduled, rfl⟩ := runFlush_eq_some.mp ran
  have flushed := flush_spells (coherent.withPool (storage.buffer.flushThreadPool.erase blockId))
    (spells.withPool _) (mem_pendingAt scheduled pc)
  rw [← pendingAt_erase scheduled pc] at flushed
  exact flushed

/-! ## Runs -/

/-- The accepted writes that the log spells, oldest first. -/
def written (log : SegmentedLog KvInfo) : List (String × List UInt8) :=
  log.entries.map fun entry => (entry.key, entry.value)

/-- Every event of a session appends what it has accepted, and nothing else. -/
theorem session_spells {session next : Session Db} {event : Event} {accepted : Log}
    (coherent : session.Coherent hash leveldb)
    (spells : session.storage.Spells leveldb (session.storage.buffer.pendingAt session.pc) log)
    (spelled : written log = accepted.reverse)
    (stepped : (machine hash leveldb).step session event = some next) :
    ∃ later : SegmentedLog KvInfo,
      next.storage.Spells leveldb (next.storage.buffer.pendingAt next.pc) later ∧
      written later = (accept hash accepted session event).reverse := by
  cases event with
  | write key value =>
    simp only [machine] at stepped
    split at stepped
    · next status idle =>
      obtain rfl := Option.some.inj stepped
      rw [pendingAt_returned idle] at spells
      refine ⟨log, ?_, spelled⟩
      rw [WriteBuffer.pendingAt_write]
      exact spells
    · cases stepped
  | sync =>
    simp only [machine] at stepped
    split at stepped
    · next status idle =>
      obtain rfl := Option.some.inj stepped
      rw [pendingAt_returned idle] at spells
      exact ⟨log, spells, spelled⟩
    · cases stepped
  | step ssdFull =>
    obtain ⟨⟨pc, buffer⟩, taken, rfl⟩ := Option.map_eq_some_iff.mp stepped
    obtain ⟨later, holds, grown⟩ := step_spells coherent.storage.buffer coherent.short spells taken
    refine ⟨later, holds, ?_⟩
    rw [written, grown, List.map_append, ← written, spelled]
    cases standing : session.pc with
    | locked key value =>
      rw [standing] at taken
      obtain ⟨⟨status, stored⟩, result, same⟩ := Option.map_eq_some_iff.mp taken
      obtain ⟨rfl, rfl⟩ := Prod.mk.inj same
      simp only [accept, appended, standing, result, Option.map_some, Option.some.injEq]
      by_cases zero : status = 0
      · rw [if_pos zero, if_pos zero, List.reverse_cons, List.map_singleton]
      · rw [if_neg zero, if_neg zero, List.map_nil, List.append_nil]
    | _ => simp only [accept, appended, standing, List.map_nil, List.append_nil]
  | flush blockId =>
    obtain ⟨storage, ran, rfl⟩ := Option.map_eq_some_iff.mp stepped
    exact ⟨log, runFlush_spells coherent.storage.buffer spells ran, spelled⟩

/-- In every run the storage holds the log of the accepted writes. -/
theorem run_spells {pageSize pagePerBlock pageNum : Nat} {events : List Event} {final : Session Db}
    {accepted : Log}
    (ran : ((machine hash leveldb).observed (accept hash)).run
      (start leveldb pageSize pagePerBlock pageNum, []) events = some (final, accepted)) :
    final.Coherent hash leveldb ∧ ∃ log : SegmentedLog KvInfo,
      final.storage.Spells leveldb (final.storage.buffer.pendingAt final.pc) log ∧
      written log = accepted.reverse := by
  apply Machine.run_invariant (fun state : Session Db × Log =>
    state.1.Coherent hash leveldb ∧ ∃ log : SegmentedLog KvInfo,
      state.1.storage.Spells leveldb (state.1.storage.buffer.pendingAt state.1.pc) log ∧
      written log = state.2.reverse) _ _ ran
  · rintro ⟨session, before⟩ event ⟨next, after⟩ ⟨coherent, log, spells, spelled⟩ stepped
    obtain ⟨taken, rfl⟩ := Machine.observed_step.mp stepped
    exact ⟨(step_change before coherent taken).1, session_spells coherent spells spelled taken⟩
  · exact ⟨start_coherent leveldb pageSize pagePerBlock pageNum, .empty,
      initial_spells leveldb pageSize pagePerBlock pageNum, rfl⟩

/-- The bytes of a block: its file, or its entries while it has none. -/
def contents (storage : Storage Db) (blockId : Nat) : List UInt8 :=
  (storage.hdd.lookup blockId).getD ((storage.entriesOf blockId).flatMap KvInfo.value)

/-- A block has the bytes of its segment, on disk or not. -/
theorem Spells.contents_eq (spells : storage.Spells leveldb pending log) {blockId : Nat}
    (positive : 1 ≤ blockId) (old : blockId ≤ storage.buffer.latestBlockId) :
    storage.contents blockId = (log.segment blockId).flatMap KvInfo.value := by
  unfold contents
  cases found : storage.hdd.lookup blockId with
  | some file =>
    rw [Option.getD_some]
    exact (spells.written blockId file found).2.2.2
  | none =>
    have absent : blockId ∉ storage.hdd := Finmap.lookup_eq_none.mp found
    have holds := (spells.held blockId
      ((spells.complete blockId positive old).resolve_right absent)).2
    rw [Option.getD_none, holds]

/-- What the blocks and the queue spell is what the log spells. -/
theorem Spells.contents_flatten (spells : storage.Spells leveldb pending log) :
    (List.range' 1 storage.buffer.latestBlockId).flatMap storage.contents ++
        (storage.buffer.kvList.map storage.buffer.kvStore.slot).flatMap KvInfo.value =
      log.entries.flatMap KvInfo.value := by
  have blocks : (List.range' 1 storage.buffer.latestBlockId).flatMap storage.contents =
      log.segments.flatten.flatMap KvInfo.value := by
    rw [← log.flatMap_segment, List.flatMap_assoc, spells.count]
    apply List.flatMap_congr
    intro blockId member
    obtain ⟨positive, old⟩ := List.mem_range'_1.mp member
    exact spells.contents_eq positive (by omega)
  rw [blocks, spells.queue, SegmentedLog.entries, List.flatMap_append]

/-- Whatever the hash and the sizes, in every run of calls of `write` and `sync` with the scheduled
flushes at any points in between: the blocks in the order of their ids, each from its file if it has
one, with the queue behind them, spell the values of the accepted writes one after another in the
order in which they were accepted. Where nothing is buffered any more, the files alone do. -/
theorem blocks_spell_accepted {pageSize pagePerBlock pageNum : Nat} {events : List Event}
    {final : Session Db} {accepted : Log}
    (ran : ((machine hash leveldb).observed (accept hash)).run
      (start leveldb pageSize pagePerBlock pageNum, []) events = some (final, accepted)) :
    (List.range' 1 final.storage.buffer.latestBlockId).flatMap final.storage.contents ++
        (final.storage.buffer.kvList.map final.storage.buffer.kvStore.slot).flatMap KvInfo.value =
      accepted.reverse.flatMap Prod.snd ∧
    (final.storage.buffer.kvStore = ∅ →
      (List.range' 1 final.storage.buffer.latestBlockId).flatMap
          (fun blockId => (final.storage.hdd.lookup blockId).getD []) =
        accepted.reverse.flatMap Prod.snd) := by
  obtain ⟨coherent, log, spells, spelled⟩ := run_spells ran
  have values : log.entries.flatMap KvInfo.value = accepted.reverse.flatMap Prod.snd := by
    rw [← spelled, written, List.flatMap_map]
  have whole := spells.contents_flatten.trans values
  refine ⟨whole, fun empty => ?_⟩
  have nothing : ∀ hashed, final.storage.buffer.kvStore.lookup hashed = none := by
    intro hashed
    rw [empty]
    rfl
  have no_queue : final.storage.buffer.kvList = [] := by
    apply List.eq_nil_iff_forall_not_mem.mpr
    intro hashed queued
    obtain ⟨info, found⟩ := coherent.storage.buffer.lookup_queued queued
    cases (nothing hashed).symm.trans found
  have no_entry (blockId : Nat) : final.storage.entriesOf blockId = [] := by
    apply List.eq_nil_iff_forall_not_mem.mpr
    intro entry inside
    cases (nothing _).symm.trans (entry_stored coherent.storage.buffer inside)
  rw [← whole, no_queue, List.map_nil, List.flatMap_nil, List.append_nil]
  apply List.flatMap_congr
  intro blockId _
  rw [contents, no_entry, List.flatMap_nil]

/-- Two writes and a sync, with the flush of their block. -/
def writeTwoAndSync : List Event :=
  .write "a" [1, 2] :: List.replicate 3 (.step false) ++
    .write "bb" [3] :: List.replicate 3 (.step false) ++
    .sync :: List.replicate 5 (.step false) ++ [.flush 1, .step false]

/-- The file of the block of two writes spells both. -/
theorem blocks_spell_two : ∃ final accepted,
    ((machine lengthHash LevelDb.table).observed (accept lengthHash)).run
      (start LevelDb.table (1024 * 1024) 64 1024, []) writeTwoAndSync = some (final, accepted) ∧
    accepted = [("bb", [3]), ("a", [1, 2])] ∧ final.storage.buffer.kvStore = ∅ ∧
    (List.range' 1 final.storage.buffer.latestBlockId).flatMap
      (fun blockId => (final.storage.hdd.lookup blockId).getD []) = [1, 2, 3] := by
  have executed : ∃ final accepted,
      ((machine lengthHash LevelDb.table).observed (accept lengthHash)).run
        (start LevelDb.table (1024 * 1024) 64 1024, []) writeTwoAndSync = some (final, accepted) ∧
      accepted = [("bb", [3]), ("a", [1, 2])] ∧ final.storage.buffer.kvStore = ∅ :=
    ⟨_, _, rfl, rfl, rfl⟩
  obtain ⟨final, accepted, ran, logged, empty⟩ := executed
  refine ⟨final, accepted, ran, logged, empty, ?_⟩
  rw [(blocks_spell_accepted ran).2 empty, logged]
  rfl

/-- The log has a place for each record, so the records of two keys never share a byte: whatever the
hash and the sizes, in every run of calls of `write` and `sync` with the scheduled flushes at any
points in between, a record lies inside the file of its block, and the records of two different keys
in one block do not overlap. -/
theorem records_apart {pageSize pagePerBlock pageNum : Nat} {events : List Event}
    {final : Session Db}
    (ran : (machine hash leveldb).run (start leveldb pageSize pagePerBlock pageNum) events =
      some final) {key other : String} {info record : IndexInfo}
    (found : CentraIndex.getInfo leveldb final.storage.db key = some info) :
    (∃ file, final.storage.hdd.lookup info.blockId = some file ∧
      info.offset + info.length ≤ file.length) ∧
    (CentraIndex.getInfo leveldb final.storage.db other = some record → other ≠ key →
      record.blockId = info.blockId →
      info.offset + info.length ≤ record.offset ∨ record.offset + record.length ≤ info.offset) := by
  have observed : ∃ accepted, ((machine hash leveldb).observed (accept hash)).run
      (start leveldb pageSize pagePerBlock pageNum, []) events = some (final, accepted) :=
    Machine.observed_of_run ran []
  obtain ⟨accepted, observed⟩ := observed
  obtain ⟨-, log, spells, -⟩ := run_spells observed
  obtain ⟨inside, entry, named, length, lies⟩ := spells.indexed key info found
  constructor
  · obtain ⟨file, there⟩ := Finmap.mem_iff.mp inside
    have spelled := (spells.written info.blockId file there).2.2.2
    refine ⟨file, there, ?_⟩
    rw [spelled, List.length_flatMap, length]
    exact lies.within
  · intro also different same
    obtain ⟨-, second, its_name, its_length, place⟩ := spells.indexed other record also
    rw [same] at place
    have apart : entry ≠ second := by
      rintro rfl
      exact different (its_name.symm.trans named)
    rw [length, its_length]
    exact lies.apart place apart

/-- The records of two writes lie side by side in the file of their block. -/
theorem records_apart_two : ∃ final info record,
    (machine lengthHash LevelDb.table).run (start LevelDb.table (1024 * 1024) 64 1024)
      writeTwoAndSync = some final ∧
    CentraIndex.getInfo LevelDb.table final.storage.db "a" = some info ∧
    CentraIndex.getInfo LevelDb.table final.storage.db "bb" = some record ∧
    (info.offset + info.length ≤ record.offset ∨ record.offset + record.length ≤ info.offset) := by
  have executed : ∃ final info record,
      (machine lengthHash LevelDb.table).run (start LevelDb.table (1024 * 1024) 64 1024)
        writeTwoAndSync = some final ∧
      CentraIndex.getInfo LevelDb.table final.storage.db "a" = some info ∧
      CentraIndex.getInfo LevelDb.table final.storage.db "bb" = some record ∧
      record.blockId = info.blockId := ⟨_, _, _, rfl, rfl, rfl, rfl⟩
  obtain ⟨final, info, record, ran, first, second, same⟩ := executed
  exact ⟨final, info, record, ran, first, second,
    (records_apart ran first).2 second (by decide) same⟩

end CudaDb.Storage
