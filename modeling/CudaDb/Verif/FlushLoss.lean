import CudaDb.Model.FlushFaults
import CudaDb.Verif.BufferLookup

/-!
# What a flush with failures loses

A flush erases every entry of its block from `kv_store`, whatever failed before. So an entry
survives exactly when its record is put and its bytes reach the file, or when the record that its
key had before is kept and denotes the same bytes. This is proved for every block of every run,
also of runs in which earlier flushes failed.
-/

namespace CudaDb.Storage

variable {Db : Type*} {hash : String → UInt64} {leveldb : LevelDb Db} {faults : FlushFaults}
  {storage : Storage Db} {pending : List Nat} {blockId : Nat}

/-! ## What does not depend on the failures -/

/-- The store and the flushed size after the loop are those of a flush without failures. -/
theorem flushEntriesWith_store (hash : String → UInt64) (leveldb : LevelDb Db)
    (faults : FlushFaults) (blockId : Nat) (entries : List KvInfo) (faulty : FaultyFlushing Db)
    (sound : Flushing Db) (kvStore : faulty.kvStore = sound.kvStore)
    (size : faulty.flushedSize = sound.flushedSize) :
    (entries.foldl (flushEntryWith hash leveldb faults blockId) faulty).kvStore =
      (entries.foldl (flushEntry hash leveldb blockId) sound).kvStore ∧
    (entries.foldl (flushEntryWith hash leveldb faults blockId) faulty).flushedSize =
      (entries.foldl (flushEntry hash leveldb blockId) sound).flushedSize := by
  induction entries generalizing faulty sound with
  | nil => exact ⟨kvStore, size⟩
  | cons entry entries ih =>
    refine ih _ _ ?_ ?_
    · change faulty.kvStore.erase _ = sound.kvStore.erase _
      rw [kvStore]
    · change faulty.flushedSize + _ = sound.flushedSize + _
      rw [size]

/-- The failures do not reach the buffer: it forgets the block as if nothing had failed. -/
theorem flushWith_buffer : (storage.flushWith hash leveldb faults blockId).buffer =
    (storage.flush hash leveldb blockId).buffer := by
  obtain ⟨kvStore, size⟩ := flushEntriesWith_store hash leveldb faults blockId
    (storage.entriesOf blockId)
    ⟨⟨[], 0, 0, storage.db, storage.buffer.kvStore⟩, faults.openFails, 0⟩
    ⟨[], 0, 0, storage.db, storage.buffer.kvStore⟩ rfl rfl
  unfold flushWith flushEntriesWith flush
  dsimp only
  rw [kvStore, size]

/-- The loop without failures is the loop of `flush`. -/
theorem flushEntriesWith_never (hash : String → UInt64) (leveldb : LevelDb Db) (blockId : Nat)
    (entries : List KvInfo) (faulty : FaultyFlushing Db) (good : faulty.bad = false) :
    (entries.foldl (flushEntryWith hash leveldb .never blockId) faulty).toFlushing =
      entries.foldl (flushEntry hash leveldb blockId) faulty.toFlushing := by
  induction entries generalizing faulty with
  | nil => rfl
  | cons entry entries ih =>
    have next : (flushEntryWith hash leveldb .never blockId faulty entry).toFlushing =
        flushEntry hash leveldb blockId faulty.toFlushing entry := by
      simp [flushEntryWith, flushEntry, writeWith, FlushFaults.never, good]
    have still : (flushEntryWith hash leveldb .never blockId faulty entry).bad = false := by
      simp [flushEntryWith, writeWith, FlushFaults.never, good]
    rw [List.foldl_cons, List.foldl_cons, ih _ still, next]

/-- A flush in which nothing fails is `flush`. -/
theorem flushWith_never : storage.flushWith hash leveldb .never blockId =
    storage.flush hash leveldb blockId := by
  have same := flushEntriesWith_never hash leveldb blockId (storage.entriesOf blockId)
    ⟨⟨[], 0, 0, storage.db, storage.buffer.kvStore⟩, false, 0⟩ rfl
  unfold flushWith flush
  dsimp only
  rw [← same]
  rfl

/-! ## The file -/

/-- The number of bytes that reach the file: all of them, or those that the first failing write
leaves. -/
def reached (faults : FlushFaults) (keyNum offset : Nat) : List KvInfo → Nat
  | [] => offset
  | entry :: entries =>
    match faults.writeFails keyNum with
    | some kept => min kept (offset + entry.value.length)
    | none => reached faults (keyNum + 1) (offset + entry.value.length) entries

/-- A bad stream writes nothing more. -/
theorem flushEntriesWith_bad (entries : List KvInfo) (start : FaultyFlushing Db)
    (bad : start.bad = true) :
    (entries.foldl (flushEntryWith hash leveldb faults blockId) start).fout = start.fout := by
  induction entries generalizing start with
  | nil => rfl
  | cons entry entries ih =>
    have skipped : (flushEntryWith hash leveldb faults blockId start entry).fout = start.fout ∧
        (flushEntryWith hash leveldb faults blockId start entry).bad = true := by
      simp [flushEntryWith, writeWith, bad]
    rw [List.foldl_cons, ih _ skipped.2, skipped.1]

/-- The loop leaves the bytes that reach the file. -/
theorem flushEntriesWith_fout (hash : String → UInt64) (leveldb : LevelDb Db)
    (faults : FlushFaults) (blockId : Nat) (entries : List KvInfo) (start : FaultyFlushing Db)
    (good : start.bad = false) (running : start.offset = start.fout.length) :
    (entries.foldl (flushEntryWith hash leveldb faults blockId) start).fout =
      (start.fout ++ entries.flatMap KvInfo.value).take
        (reached faults start.keyNum start.offset entries) := by
  induction entries generalizing start with
  | nil => simp [reached, running]
  | cons entry entries ih =>
    rw [List.foldl_cons, reached]
    cases failed : faults.writeFails start.keyNum with
    | none =>
      have written : (flushEntryWith hash leveldb faults blockId start entry).fout =
          start.fout ++ entry.value ∧
          (flushEntryWith hash leveldb faults blockId start entry).bad = false := by
        simp [flushEntryWith, writeWith, good, failed]
      have advanced : (flushEntryWith hash leveldb faults blockId start entry).offset =
          (flushEntryWith hash leveldb faults blockId start entry).fout.length := by
        rw [written.1, List.length_append, ← running]
        rfl
      rw [ih _ written.2 advanced, written.1, List.flatMap_cons, ← List.append_assoc]
      rfl
    | some kept =>
      have torn : (flushEntryWith hash leveldb faults blockId start entry).fout =
          (start.fout ++ entry.value).take kept ∧
          (flushEntryWith hash leveldb faults blockId start entry).bad = true := by
        simp [flushEntryWith, writeWith, good, failed]
      have length : start.offset + entry.value.length = (start.fout ++ entry.value).length := by
        rw [List.length_append, running]
      rw [flushEntriesWith_bad _ _ torn.2, torn.1, List.flatMap_cons, ← List.append_assoc]
      dsimp only
      rw [length, ← List.take_take, List.take_left]

/-- The file of the block after a flush whose file opens. -/
theorem flushWith_file (opens : faults.openFails = false) :
    (storage.flushWith hash leveldb faults blockId).hdd.lookup blockId =
      some (((storage.entriesOf blockId).flatMap KvInfo.value).take
        (reached faults 0 0 (storage.entriesOf blockId))) := by
  have written := flushEntriesWith_fout hash leveldb faults blockId (storage.entriesOf blockId)
    ⟨⟨[], 0, 0, storage.db, storage.buffer.kvStore⟩, faults.openFails, 0⟩ opens rfl
  unfold flushWith flushEntriesWith
  dsimp only
  rw [opens] at written ⊢
  rw [if_neg (by decide), Finmap.lookup_insert, written]
  rfl

/-- A flush leaves the files of the other blocks. -/
theorem flushWith_other {other : Nat} (apart : other ≠ blockId) :
    (storage.flushWith hash leveldb faults blockId).hdd.lookup other =
      storage.hdd.lookup other := by
  unfold flushWith
  dsimp only
  split
  · rw [Table.lookup_erase_if, if_neg apart]
  · rw [Table.lookup_insert_if, if_neg apart]

/-- A stretch of a truncated file is whole exactly when it is empty or lies before the cut. -/
theorem take_drop_take_iff (before value after : List UInt8) (reached : Nat) :
    (((before ++ value ++ after).take reached).drop before.length).take value.length = value ↔
      value = [] ∨ (before ++ value).length ≤ reached := by
  rw [List.append_assoc, List.drop_take, List.drop_left, List.take_take, List.length_append]
  by_cases whole : value.length ≤ reached - before.length
  · rw [Nat.min_eq_left whole, List.take_left]
    refine iff_of_true rfl ?_
    by_cases empty : value = []
    · exact Or.inl empty
    · have positive : 0 < value.length := List.length_pos_iff.mpr empty
      exact Or.inr (by omega)
  · refine iff_of_false (fun same => ?_) ?_
    · have length := congrArg List.length same
      rw [List.length_take] at length
      omega
    · rintro (rfl | reaches)
      · exact whole (Nat.zero_le _)
      · omega

/-! ## The index -/

/-- The loop counts the entries and their bytes. -/
theorem flushEntriesWith_position (hash : String → UInt64) (leveldb : LevelDb Db)
    (faults : FlushFaults) (blockId : Nat) (entries : List KvInfo) (start : FaultyFlushing Db) :
    (entries.foldl (flushEntryWith hash leveldb faults blockId) start).keyNum =
      start.keyNum + entries.length ∧
    (entries.foldl (flushEntryWith hash leveldb faults blockId) start).offset =
      start.offset + (entries.flatMap KvInfo.value).length := by
  induction entries generalizing start with
  | nil => exact ⟨rfl, rfl⟩
  | cons entry entries ih =>
    obtain ⟨counted, advanced⟩ := ih (flushEntryWith hash leveldb faults blockId start entry)
    rw [List.foldl_cons, counted, advanced, List.length_cons, List.flatMap_cons,
      List.length_append]
    constructor
    · change start.keyNum + 1 + entries.length = _
      omega
    · change start.offset + entry.value.length + _ = _
      omega

/-- The loop leaves the records of keys that no entry has. -/
theorem flushEntriesWith_unchanged (hash : String → UInt64) (leveldb : LevelDb Db)
    (faults : FlushFaults) (blockId : Nat) {key : String} (entries : List KvInfo)
    (start : FaultyFlushing Db) (absent : ∀ entry ∈ entries, entry.key ≠ key) :
    CentraIndex.getInfo leveldb
        (entries.foldl (flushEntryWith hash leveldb faults blockId) start).db key =
      CentraIndex.getInfo leveldb start.db key := by
  induction entries generalizing start with
  | nil => rfl
  | cons entry entries ih =>
    have apart : key ≠ entry.key := fun same => absent entry List.mem_cons_self same.symm
    rw [List.foldl_cons, ih _ fun other later => absent other (List.mem_cons_of_mem _ later)]
    unfold flushEntryWith
    dsimp only
    split
    · rfl
    · rw [CentraIndex.getInfo_put, if_neg apart]

/-- A record after the loop was there before, or it is of the block. -/
theorem flushEntriesWith_origin {key : String} {info : IndexInfo} (entries : List KvInfo)
    (start : FaultyFlushing Db)
    (found : CentraIndex.getInfo leveldb
      (entries.foldl (flushEntryWith hash leveldb faults blockId) start).db key = some info) :
    info.blockId = blockId ∨ CentraIndex.getInfo leveldb start.db key = some info := by
  induction entries generalizing start with
  | nil => exact Or.inr found
  | cons entry entries ih =>
    rcases ih _ found with own | before
    · exact Or.inl own
    · unfold flushEntryWith at before
      dsimp only at before
      split at before
      · exact Or.inr before
      · rw [CentraIndex.getInfo_put] at before
        split at before
        · exact Or.inl (congrArg IndexInfo.blockId (Option.some.inj before).symm)
        · exact Or.inr before

/-- After the loop the key of an entry has the record of the entry, or the one that it had if the
put failed. -/
theorem flushEntriesWith_index (hash : String → UInt64) (leveldb : LevelDb Db)
    (faults : FlushFaults) (blockId : Nat) (start : FaultyFlushing Db) {before after : List KvInfo}
    {entry : KvInfo} (distinct : ((before ++ entry :: after).map KvInfo.key).Nodup) :
    CentraIndex.getInfo leveldb
        ((before ++ entry :: after).foldl (flushEntryWith hash leveldb faults blockId) start).db
        entry.key =
      if faults.putFails (start.keyNum + before.length) then
        CentraIndex.getInfo leveldb start.db entry.key
      else some {
        blockId
        offset := start.offset + (before.flatMap KvInfo.value).length
        length := entry.value.length
        lengthType := entry.valueLengthType } := by
  rw [List.map_append, List.map_cons, List.nodup_append] at distinct
  obtain ⟨-, ⟨own, -⟩, apart⟩ := distinct.imp_right fun rest => rest.imp_left List.nodup_cons.mp
  have earlier : ∀ other ∈ before, other.key ≠ entry.key := fun other member =>
    apart _ (List.mem_map_of_mem member) _ List.mem_cons_self
  have later : ∀ other ∈ after, other.key ≠ entry.key := fun other member same =>
    own (same ▸ List.mem_map_of_mem member)
  obtain ⟨counted, advanced⟩ := flushEntriesWith_position hash leveldb faults blockId before start
  rw [List.foldl_append, List.foldl_cons,
    flushEntriesWith_unchanged hash leveldb faults blockId after _ later, ← counted,
    ← advanced]
  have kept := flushEntriesWith_unchanged hash leveldb faults blockId before start earlier
  generalize before.foldl (flushEntryWith hash leveldb faults blockId) start = middle at kept ⊢
  unfold flushEntryWith
  dsimp only
  split
  · exact kept
  · rw [CentraIndex.getInfo_put, if_pos rfl]

/-! ## Survival -/

/-- The value of the entry can still be read: its key is on disk with its bytes, or the entry is
still in the buffer. -/
def Survives (hash : String → UInt64) (leveldb : LevelDb Db) (storage : Storage Db)
    (entry : KvInfo) : Prop :=
  storage.readDisk leveldb entry.key = some entry.value ∨
    storage.buffer.kvStore.lookup (hash entry.key) = some entry

/-- The entries of the block are spared. A put that fails must find a record of the key
that denotes the same value already. Otherwise the file must open, and the bytes of the entry must
lie before the end that the first failing write leaves. -/
def Spared (leveldb : LevelDb Db) (faults : FlushFaults) (storage : Storage Db) (blockId : Nat) :
    Prop :=
  ∀ before entry after, storage.entriesOf blockId = before ++ entry :: after →
    if faults.putFails before.length then
      storage.readDisk leveldb entry.key = some entry.value
    else faults.openFails = false ∧ (entry.value = [] ∨
      ((before ++ [entry]).flatMap KvInfo.value).length ≤
        reached faults 0 0 (storage.entriesOf blockId))

/-- Every record is of a flushed block. -/
def Settled (leveldb : LevelDb Db) (storage : Storage Db) (pending : List Nat) : Prop :=
  ∀ key info, CentraIndex.getInfo leveldb storage.db key = some info →
    storage.buffer.Settled pending info.blockId

/-- The flush erases the entries of the block from the store. -/
theorem flushWith_erased {entry : KvInfo} (inside : entry ∈ storage.entriesOf blockId) :
    (storage.flushWith hash leveldb faults blockId).buffer.kvStore.lookup (hash entry.key) =
      none := by
  have erased : hash entry.key ∈ (storage.entriesOf blockId).map fun entry => hash entry.key :=
    List.mem_map_of_mem inside
  rw [flushWith_buffer, flush_kvStore, Table.lookup_eraseAll, if_pos erased]

/-- The keys of a block are distinct. -/
theorem keys_nodup (coherent : storage.buffer.Coherent hash pending) (blockId : Nat) :
    ((storage.entriesOf blockId).map KvInfo.key).Nodup := by
  have hashes := (block_apart coherent blockId).1
  apply List.Nodup.of_map hash
  rw [List.map_map]
  exact hashes

/-- What the disk holds after the flush for the key of an entry. -/
theorem flushWith_readDisk (coherent : storage.buffer.Coherent hash pending)
    (settled : storage.Settled leveldb pending) (member : blockId ∈ pending)
    {before after : List KvInfo} {entry : KvInfo}
    (split : storage.entriesOf blockId = before ++ entry :: after) :
    (storage.flushWith hash leveldb faults blockId).readDisk leveldb entry.key =
        some entry.value ↔
      if faults.putFails before.length then
        storage.readDisk leveldb entry.key = some entry.value
      else faults.openFails = false ∧ (entry.value = [] ∨
        ((before ++ [entry]).flatMap KvInfo.value).length ≤
          reached faults 0 0 (storage.entriesOf blockId)) := by
  have distinct := keys_nodup coherent blockId
  rw [split] at distinct
  have index := flushEntriesWith_index hash leveldb faults blockId
    ⟨⟨[], 0, 0, storage.db, storage.buffer.kvStore⟩, faults.openFails, 0⟩ distinct
  rw [← split] at index
  change CentraIndex.getInfo leveldb (storage.flushWith hash leveldb faults blockId).db
    entry.key = _ at index
  rw [Nat.zero_add, Nat.zero_add] at index
  unfold readDisk
  rw [index]
  by_cases fails : faults.putFails before.length = true
  · rw [if_pos fails, if_pos fails]
    cases old : CentraIndex.getInfo leveldb storage.db entry.key with
    | none => rfl
    | some info =>
      have apart : info.blockId ≠ blockId := fun same =>
        (settled entry.key info old).2 (same ▸ member)
      rw [Option.bind_some, Option.bind_some, fileBytes, fileBytes, flushWith_other apart]
  · rw [if_neg fails, if_neg fails, Option.bind_some, fileBytes]
    dsimp only
    by_cases opens : faults.openFails = false
    · have file : ((before ++ entry :: after).flatMap KvInfo.value) =
          before.flatMap KvInfo.value ++ entry.value ++ after.flatMap KvInfo.value := by
        rw [List.flatMap_append, List.flatMap_cons, List.append_assoc]
      have upto : (before ++ [entry]).flatMap KvInfo.value =
          before.flatMap KvInfo.value ++ entry.value := by
        rw [List.flatMap_append, List.flatMap_singleton]
      rw [flushWith_file opens, Option.map_some, Option.some.injEq, split, upto, file,
        take_drop_take_iff, and_iff_right opens]
    · have missing : (storage.flushWith hash leveldb faults blockId).hdd.lookup blockId = none := by
        have closed : faults.openFails = true := Bool.eq_true_of_not_eq_false opens
        unfold flushWith
        dsimp only
        rw [if_pos closed, Table.lookup_erase_if, if_pos rfl]
      rw [missing]
      exact iff_of_false nofun fun spared => opens spared.1

/-- The entries of a pending block survive a flush exactly when the failures spare them. -/
theorem flushWith_survives (coherent : storage.buffer.Coherent hash pending)
    (settled : storage.Settled leveldb pending) (member : blockId ∈ pending) :
    (∀ entry ∈ storage.entriesOf blockId,
      (storage.flushWith hash leveldb faults blockId).Survives hash leveldb entry) ↔
    storage.Spared leveldb faults blockId := by
  constructor
  · intro survive before entry after split
    have inside : entry ∈ storage.entriesOf blockId := by
      rw [split]
      exact List.mem_append_right _ List.mem_cons_self
    rcases survive entry inside with read | buffered
    · exact (flushWith_readDisk coherent settled member split).mp read
    · rw [flushWith_erased inside] at buffered
      cases buffered
  · intro spare entry inside
    obtain ⟨before, after, split⟩ := List.append_of_mem inside
    exact Or.inl ((flushWith_readDisk coherent settled member split).mpr
      (spare before entry after split))

/-! ## Runs -/

/-- What holds in every run, also after flushes that failed. -/
structure Session.Orderly (hash : String → UInt64) (leveldb : LevelDb Db)
    (session : Session Db) : Prop where
  /-- The buffer is coherent with what is pending where the caller stands. -/
  buffer : session.storage.buffer.Coherent hash (session.storage.buffer.pendingAt session.pc)
  /-- The value of the current call is short. -/
  short : session.pc.Short
  /-- The records are of flushed blocks. -/
  settled : session.storage.Settled leveldb (session.storage.buffer.pendingAt session.pc)

/-- A scheduled flush, with or without failures, keeps the session orderly. -/
theorem runFlushWith_orderly {session : Session Db} (orderly : session.Orderly hash leveldb)
    {next : Storage Db}
    (ran : session.storage.runFlushWith hash leveldb faults blockId = some next) :
    ({ session with storage := next } : Session Db).Orderly hash leveldb := by
  unfold runFlushWith at ran
  split at ran
  · next scheduled =>
    obtain rfl := Option.some.inj ran
    have member := mem_pendingAt scheduled session.pc
    let taken : Storage Db := { session.storage with buffer := { session.storage.buffer with
      flushThreadPool := session.storage.buffer.flushThreadPool.erase blockId } }
    have coherent : taken.buffer.Coherent hash (session.storage.buffer.pendingAt session.pc) :=
      orderly.buffer.withPool _
    have flushed := flush_buffer leveldb blockId coherent
    have left := flush_settled leveldb coherent member
    rw [← pendingAt_erase scheduled] at flushed left
    have same : (taken.flushWith hash leveldb faults blockId).buffer =
        (taken.flush hash leveldb blockId).buffer := flushWith_buffer
    rw [← same] at flushed left
    refine ⟨flushed, orderly.short, fun key info found => ?_⟩
    rcases flushEntriesWith_origin _ _ found with own | before
    · exact (left info.blockId).mpr (Or.inr own)
    · exact (left info.blockId).mpr (Or.inl (orderly.settled key info before))
  · cases ran

/-- Every event keeps the session orderly. -/
theorem step_orderly {session next : Session Db} {event : FaultyEvent}
    (orderly : session.Orderly hash leveldb)
    (stepped : (faultyMachine hash leveldb).step session event = some next) :
    next.Orderly hash leveldb := by
  cases event with
  | flush faults blockId =>
    obtain ⟨storage, ran, rfl⟩ := Option.map_eq_some_iff.mp stepped
    exact runFlushWith_orderly orderly ran
  | sound event =>
    simp only [faultyMachine, machine] at stepped
    cases event with
    | write key value =>
      dsimp only at stepped
      split at stepped
      · next status idle =>
        obtain rfl := Option.some.inj stepped
        obtain ⟨buffer, -, settled⟩ := orderly
        rw [pendingAt_returned idle, ← WriteBuffer.pendingAt_write _ key value] at buffer settled
        exact ⟨buffer, fun _ _ call => (WriteBuffer.write_call call).2.2, settled⟩
      · cases stepped
    | sync =>
      dsimp only at stepped
      split at stepped
      · next status idle =>
        obtain rfl := Option.some.inj stepped
        obtain ⟨buffer, -, settled⟩ := orderly
        rw [pendingAt_returned idle] at buffer settled
        exact ⟨buffer, fun _ _ call => (by cases call), settled⟩
      · cases stepped
    | step ssdFull =>
      obtain ⟨⟨pc, buffer⟩, taken, rfl⟩ := Option.map_eq_some_iff.mp stepped
      obtain ⟨kept, -⟩ := WriteBuffer.step_kept orderly.buffer orderly.short taken
      exact ⟨kept.coherent,
        fun key value call => orderly.short key value (WriteBuffer.step_call taken call),
        fun key info found => kept.settled _ (orderly.settled key info found)⟩
    | flush blockId =>
      obtain ⟨storage, ran, rfl⟩ := Option.map_eq_some_iff.mp stepped
      obtain ⟨scheduled, rfl⟩ := runFlush_eq_some.mp ran
      refine runFlushWith_orderly orderly (?_ : session.storage.runFlushWith hash leveldb .never
        blockId = _)
      rw [runFlushWith, if_pos scheduled, flushWith_never]

/-- The session starts orderly. -/
theorem start_orderly (leveldb : LevelDb Db) (pageSize pagePerBlock pageNum : Nat) :
    (start leveldb pageSize pagePerBlock pageNum).Orderly hash leveldb := by
  have coherent : (initial leveldb pageSize pagePerBlock pageNum).Coherent hash leveldb [] :=
    initial_coherent leveldb pageSize pagePerBlock pageNum
  exact ⟨coherent.buffer, nofun, fun key info found => (coherent.indexed key info found).1⟩

/-- In every run of writes, syncs and flushes, which may have failed in any way, and for every
pattern of failures: after the flush of a scheduled block every key of the block can still be read
with its value exactly when the failures spare the block. -/
theorem survive_iff_spared {pageSize pagePerBlock pageNum : Nat} {events : List FaultyEvent}
    {session : Session Db}
    (ran : (faultyMachine hash leveldb).run (start leveldb pageSize pagePerBlock pageNum) events =
      some session) {faults : FlushFaults} {blockId : Nat} {storage : Storage Db}
    (flushed : session.storage.runFlushWith hash leveldb faults blockId = some storage) :
    (∀ entry ∈ session.storage.entriesOf blockId, storage.Survives hash leveldb entry) ↔
      session.storage.Spared leveldb faults blockId := by
  have orderly := Machine.run_invariant _ (fun _ _ _ holds stepped => step_orderly holds stepped)
    (start_orderly leveldb pageSize pagePerBlock pageNum) ran
  unfold runFlushWith at flushed
  split at flushed
  · next scheduled =>
    obtain rfl := Option.some.inj flushed
    let taken : Storage Db := { session.storage with buffer := { session.storage.buffer with
      flushThreadPool := session.storage.buffer.flushThreadPool.erase blockId } }
    have coherent : taken.buffer.Coherent hash (session.storage.buffer.pendingAt session.pc) :=
      orderly.buffer.withPool _
    have survives : (∀ entry ∈ taken.entriesOf blockId,
        (taken.flushWith hash leveldb faults blockId).Survives hash leveldb entry) ↔
        taken.Spared leveldb faults blockId :=
      flushWith_survives coherent orderly.settled (mem_pendingAt scheduled session.pc)
    exact survives
  · cases flushed

/-- Two values are written, the second one empty, and a sync schedules their block. -/
def scheduleTwo : List FaultyEvent :=
  [.sound (.write "a" [1, 2]), .sound (.step false), .sound (.step false), .sound (.step false),
    .sound (.write "bb" []), .sound (.step false), .sound (.step false), .sound (.step false),
    .sound .sync, .sound (.step false), .sound (.step false), .sound (.step false),
    .sound (.step false)]

/-- The second write fails. -/
def secondWriteFails : FlushFaults where
  openFails := false
  putFails _ := false
  writeFails keyNum := if keyNum = 1 then some 2 else none

/-- A failing write of an empty value spares the block. -/
theorem survive_second_failing_write :
    ∃ session storage, (faultyMachine lengthHash LevelDb.table).run
        (start LevelDb.table (1024 * 1024) 64 1024) scheduleTwo = some session ∧
      session.storage.runFlushWith lengthHash LevelDb.table secondWriteFails 1 = some storage ∧
      (session.storage.entriesOf 1).map KvInfo.value = [[1, 2], []] ∧
      ∀ entry ∈ session.storage.entriesOf 1, storage.Survives lengthHash LevelDb.table entry := by
  have executed : ∃ session storage, (faultyMachine lengthHash LevelDb.table).run
        (start LevelDb.table (1024 * 1024) 64 1024) scheduleTwo = some session ∧
      session.storage.runFlushWith lengthHash LevelDb.table secondWriteFails 1 = some storage ∧
      (session.storage.entriesOf 1).map KvInfo.value = [[1, 2], []] ∧
      reached secondWriteFails 0 0 (session.storage.entriesOf 1) = 2 := ⟨_, _, rfl, rfl, rfl, rfl⟩
  obtain ⟨session, storage, ran, flushed, values, reaches⟩ := executed
  refine ⟨session, storage, ran, flushed, values, (survive_iff_spared ran flushed).mpr ?_⟩
  intro before entry after split
  rw [split, List.map_append, List.map_cons] at values
  rw [reaches, if_neg (show ¬ secondWriteFails.putFails before.length = true from nofun)]
  refine ⟨rfl, ?_⟩
  cases before with
  | nil =>
    have whole : entry.value = [1, 2] := (List.cons.inj values).1
    right
    simp [whole]
  | cons first rest =>
    left
    have second := (List.cons.inj values).2
    cases rest with
    | nil => exact (List.cons.inj second).1
    | cons next rest =>
      have length := congrArg List.length second
      simp at length

/-- The put of the first entry fails. -/
def firstPutFails : FlushFaults where
  openFails := false
  putFails keyNum := keyNum = 0
  writeFails _ := none

/-- A failing put loses the value for good: the flush erases its entry all the same. -/
theorem not_survive_failing_put :
    ∃ session storage, (faultyMachine lengthHash LevelDb.table).run
        (start LevelDb.table (1024 * 1024) 64 1024) scheduleTwo = some session ∧
      session.storage.runFlushWith lengthHash LevelDb.table firstPutFails 1 = some storage ∧
      ∃ entry ∈ session.storage.entriesOf 1, entry.key = "a" ∧ entry.value = [1, 2] ∧
        ¬ storage.Survives lengthHash LevelDb.table entry := by
  have executed : ∃ session storage entry, (faultyMachine lengthHash LevelDb.table).run
        (start LevelDb.table (1024 * 1024) 64 1024) scheduleTwo = some session ∧
      session.storage.runFlushWith lengthHash LevelDb.table firstPutFails 1 = some storage ∧
      (session.storage.entriesOf 1).head? = some entry ∧ entry.key = "a" ∧
      entry.value = [1, 2] ∧ storage.readDisk LevelDb.table "a" = none ∧
      storage.buffer.kvStore.lookup (lengthHash "a") = none :=
    ⟨_, _, _, rfl, rfl, rfl, rfl, rfl, rfl, rfl⟩
  obtain ⟨session, storage, entry, ran, flushed, first, key, value, unread, erased⟩ := executed
  refine ⟨session, storage, ran, flushed, entry, List.mem_of_mem_head? first, key, value, ?_⟩
  rintro (read | buffered)
  · rw [key, unread] at read
    cases read
  · rw [key, erased] at buffered
    cases buffered

end CudaDb.Storage
