import CudaDb.Verif.FlushGrowth
import CudaDb.Verif.BufferLookup

/-!
# The order of a flush

A flush puts the record of an entry right after it has given the bytes to the stream, which may
still hold them back. If they have been written out before each put, and the file is copied to the
SSD only when it is complete, then every record denotes bytes that can be read, and readers and
copies beside the flush see nothing else. The values of a key are those that its record, its RAM
entry and the block to be flushed hold when the flush starts.
-/

namespace CudaDb.FlushRace

variable {Thread Db : Type*} {hash : String → UInt64} {leveldb : LevelDb Db} {config : MogConfig}
  {files : String → Option (List UInt8)} {mog : Mog Db} {blockId : Nat}
  {race next : FlushRace Thread Db}

/-! ## The statements in a row -/

/-- What the loop of the flush works on. -/
def flushing (race : FlushRace Thread Db) : Storage.Flushing Db where
  fout := race.flush.fout
  offset := race.flush.offset
  flushedSize := race.flush.flushedSize
  db := race.mog.storage.db
  kvStore := race.mog.storage.buffer.kvStore

/-- The end of the loop of the flush. -/
def endLoop (flushing : Storage.Flushing Db) (race : FlushRace Thread Db) :
    FlushRace Thread Db :=
  { race with
    mog := { race.mog with storage := { race.mog.storage with
      buffer := { race.mog.storage.buffer with kvStore := flushing.kvStore }
      db := flushing.db } }
    flush := { race.flush with
      pc := .write []
      fout := flushing.fout
      offset := flushing.offset
      flushedSize := flushing.flushedSize } }

/-- The loop of the flush, with nothing between its statements, does what `flushEntry` does for
each of the entries. -/
theorem run_loop [DecidableEq Thread] {entries : List KvInfo} {race : FlushRace Thread Db}
    (here : race.flush.pc = .write entries) :
    (machine hash leveldb config files).run race (entries.flatMap fun _ => [.flush, .flush]) =
      some (race.endLoop
        (entries.foldl (Storage.flushEntry hash leveldb race.flush.blockId) race.flushing)) := by
  induction entries generalizing race with
  | nil =>
    rw [List.flatMap_nil, Machine.run_nil, List.foldl_nil, endLoop, ← here]
    rfl
  | cons entry entries ih =>
    have wrote : (machine hash leveldb config files).step race .flush = some { race with
        flush := { race.flush with
          pc := .put entry entries
          fout := race.flush.fout ++ entry.value
          flushedSize := race.flush.flushedSize + slabSize entry.valueLengthType } } := by
      simp only [machine]
      rw [here]
      rfl
    rw [List.flatMap_cons, List.foldl_cons, List.cons_append, Machine.run, wrote, Option.bind_some]
    exact ih rfl

/-- A flush with nothing between its statements is the flush of the whole block. -/
theorem flush_alone [DecidableEq Thread] (scheduled : blockId ∈ mog.storage.buffer.flushThreadPool)
    (key : Thread → String) (value : Thread → ByteMemory) :
    ∃ race, (machine hash leveldb config files).run (start blockId mog key value)
        ([FlushEvent.flush, FlushEvent.flush] ++
          ((mog.storage.entriesOf blockId).flatMap fun _ => [FlushEvent.flush, FlushEvent.flush]) ++
          [FlushEvent.flush]) = some race ∧ race.flush.pc = .ended ∧
      mog.storage.runFlush hash leveldb blockId = some race.mog.storage := by
  have opened : (machine hash leveldb config files).run (start blockId mog key value)
      [.flush, .flush] = some { (start blockId mog key value).expose [] with
        flush := { (start blockId mog key value).flush with
          pc := .write (mog.storage.entriesOf blockId) } } := rfl
  refine ⟨_, Machine.run_append.mpr ⟨_, Machine.run_append.mpr ⟨_, opened, run_loop rfl⟩, rfl⟩, rfl,
    Storage.runFlush_eq_some.mpr ⟨scheduled, ?_⟩⟩
  rw [Storage.flush]
  dsimp only [endLoop, expose, start]
  rw [Finmap.insert_insert]
  rfl

/-! ## The property -/

/-- The block files when the flush has ended. -/
def complete (mog : Mog Db) (blockId : Nat) : Directory :=
  mog.storage.hdd.insert blockId ((mog.storage.entriesOf blockId).flatMap KvInfo.value)

/-- What a record of the key stands for: the bytes that it denotes when the flush starts, or the
value of an entry that is flushed. -/
inductive Recorded (leveldb : LevelDb Db) (mog : Mog Db) (blockId : Nat) (key : String) :
    IndexInfo → List UInt8 → Prop
  /-- The record was in the index when the flush started. -/
  | before (info : IndexInfo) (value : List UInt8)
      (found : CentraIndex.getInfo leveldb mog.storage.db key = some info)
      (denoted : Storage.slice mog.storage.hdd info = some value) :
      Recorded leveldb mog blockId key info value
  /-- The record is of an entry of the block. -/
  | flushed (info : IndexInfo) (entry : KvInfo) (member : entry ∈ mog.storage.entriesOf blockId)
      (own : entry.key = key) (here : info.blockId = blockId) :
      Recorded leveldb mog blockId key info entry.value

/-- The values of the key: what its records stand for, and what is cached when the flush starts. -/
def OwnValue (leveldb : LevelDb Db) (mog : Mog Db) (blockId : Nat) (key : String)
    (value : List UInt8) : Prop :=
  (∃ info, Recorded leveldb mog blockId key info value) ∨
    ∃ item, mog.ram.cachedItem.lookup key = some item ∧ value.length = item.length ∧
      SlabPool.Stores 1024 mog.ram.pool.slabs item.slabs value

/-- What a read of the key may return, with its buffer. -/
inductive Answered (leveldb : LevelDb Db) (mog : Mog Db) (blockId : Nat) (key : String) :
    Int → ByteMemory → Prop
  /-- A value of the key, with its length. -/
  | value (bytes : List UInt8) (own : OwnValue leveldb mog blockId key bytes) (buffer : ByteMemory)
      (starts : buffer.StartsWith bytes) : Answered leveldb mog blockId key bytes.length buffer
  /-- Nothing, for a key that has no record when the flush starts. -/
  | absent (unknown : CentraIndex.getInfo leveldb mog.storage.db key = none)
      (buffer : ByteMemory) : Answered leveldb mog blockId key 0 buffer

/-- The index does not run ahead of the files. -/
structure InOrder (leveldb : LevelDb Db) (mog : Mog Db) (blockId : Nat)
    (race : FlushRace Thread Db) : Prop where
  /-- The bytes that a record stands for can be read in the file of its block. -/
  indexed : ∀ key info, CentraIndex.getInfo leveldb race.mog.storage.db key = some info →
    ∃ value, Recorded leveldb mog blockId key info value ∧
      Storage.Readable race.mog.storage.hdd info value
  /-- A reader returns a value of its key. -/
  answered : ∀ thread key result, (race.readers thread).pc = .done (.read key) result →
    Answered leveldb mog blockId key result (race.readers thread).value
  /-- The RAM cache holds values of its keys. -/
  cached : race.mog.ram.Holds (OwnValue leveldb mog blockId)
  /-- The files on the SSD are complete. -/
  copied : ∀ other file, race.mog.tier.ssd.lookup other = some file →
    (complete mog blockId).lookup other = some file

/-! ## The invariant -/

/-- The block files with the file of the block as far as it has been written out. -/
def Seen (mog : Mog Db) (blockId : Nat) (hdd : Directory) (fout : List UInt8) : Prop :=
  ∃ visible, hdd = mog.storage.hdd.insert blockId visible ∧ visible <+: fout

/-- What the flush has written where it stands. -/
def Progress (mog : Mog Db) (blockId : Nat) (hdd : Directory) (flush : FlushFrame) : Prop :=
  match flush.pc with
  | .openFile => hdd = mog.storage.hdd ∧ flush.fout = [] ∧ flush.offset = 0
  | .lock => Seen mog blockId hdd flush.fout ∧ flush.fout = [] ∧ flush.offset = 0
  | .write entries => Seen mog blockId hdd flush.fout ∧ ∃ written,
      mog.storage.entriesOf blockId = written ++ entries ∧
      flush.fout = written.flatMap KvInfo.value ∧ flush.offset = flush.fout.length
  | .put entry entries => Seen mog blockId hdd flush.fout ∧ ∃ written,
      mog.storage.entriesOf blockId = written ++ entry :: entries ∧
      flush.fout = written.flatMap KvInfo.value ++ entry.value ∧
      flush.offset = (written.flatMap KvInfo.value).length
  | .ended => hdd = complete mog blockId

/-- What a reader knows where it stands. -/
def Knows (leveldb : LevelDb Db) (mog : Mog Db) (blockId : Nat) (hdd : Directory)
    (buffer : ByteMemory) : MogPc → Prop
  | .findItem .caller _ | .copyItem .caller _ | .getIndex .caller _ => True
  | .readSsd .caller key info => info.lengthType = slabType info.length ∧
      ∃ value, OwnValue leveldb mog blockId key value ∧ Storage.Readable hdd info value
  | .insertItem .caller key info => info.lengthType = slabType info.length ∧
      ∃ value, OwnValue leveldb mog blockId key value ∧ value.length = info.length ∧
        buffer.StartsWith value
  | .done (.read key) result => Answered leveldb mog blockId key result buffer
  | _ => False

/-- A block that is about to be flushed. -/
structure Packed (mog : Mog Db) (blockId : Nat) : Prop where
  /-- It has no file yet. -/
  fresh : blockId ∉ mog.storage.hdd
  /-- The types of its entries are those of their values. -/
  typed : ∀ entry ∈ mog.storage.entriesOf blockId,
    entry.valueLengthType = slabType entry.value.length

/-- What holds at every moment of the race. -/
structure Racing (leveldb : LevelDb Db) (mog : Mog Db) (blockId : Nat)
    (race : FlushRace Thread Db) : Prop where
  /-- The flush is of the block. -/
  block : race.flush.blockId = blockId
  /-- The flush has written what it must. -/
  progress : Progress mog blockId race.mog.storage.hdd race.flush
  /-- The entries of the block stay until the flush has ended. -/
  entries : race.flush.pc ≠ .ended →
    race.mog.storage.entriesOf blockId = mog.storage.entriesOf blockId
  /-- The bytes of every record can be read. -/
  indexed : ∀ key info, CentraIndex.getInfo leveldb race.mog.storage.db key = some info →
    info.lengthType = slabType info.length ∧ ∃ value, Recorded leveldb mog blockId key info value ∧
      Storage.Readable race.mog.storage.hdd info value
  /-- A key that had a record has one. -/
  kept : ∀ key, CentraIndex.getInfo leveldb race.mog.storage.db key = none →
    CentraIndex.getInfo leveldb mog.storage.db key = none
  /-- The SSD cache agrees with the complete files. -/
  tier : SsdTier.World.Coherent (fun other => ((complete mog blockId).lookup other).getD [])
    { tier := race.mog.tier, hdd := complete mog blockId, announced := [] }
  /-- The files on the SSD are complete. -/
  mirrored : SsdTier.Extends race.mog.tier.ssd (complete mog blockId)
  /-- The slabs of the RAM cache are partitioned. -/
  ram : race.mog.ram.Partition
  /-- The RAM cache holds values of its keys. -/
  cached : race.mog.ram.Holds (OwnValue leveldb mog blockId)
  /-- The readers know what they must. -/
  knows : ∀ thread, Knows leveldb mog blockId race.mog.storage.hdd (race.readers thread).value
    (race.readers thread).pc

/-- What a reader knows stays while the files get longer. -/
theorem Knows.grown {before after : Directory} {buffer : ByteMemory} {pc : MogPc}
    (knows : Knows leveldb mog blockId before buffer pc) (grown : Grown before after) :
    Knows leveldb mog blockId after buffer pc := by
  cases pc with
  | readSsd reader key info =>
    cases reader with
    | caller =>
      obtain ⟨typed, value, own, readable⟩ := knows
      exact ⟨typed, value, own, readable.grown grown⟩
    | file path => exact knows
  | findItem reader key | copyItem reader key | getIndex reader key | insertItem reader key info =>
    cases reader <;> exact knows
  | done call result => cases call <;> exact knows
  | _ => exact knows

/-- What the stream was given is the front of the complete file. -/
theorem Progress.seen {hdd : Directory} {flush : FlushFrame}
    (progress : Progress mog blockId hdd flush) (opened : streaming flush.pc = true) :
    Seen mog blockId hdd flush.fout ∧
      flush.fout <+: (mog.storage.entriesOf blockId).flatMap KvInfo.value := by
  unfold Progress at progress
  cases pc : flush.pc with
  | openFile | ended =>
    rw [pc] at opened
    cases opened
  | lock =>
    rw [pc] at progress
    refine ⟨progress.1, ?_⟩
    rw [progress.2.1]
    exact List.nil_prefix
  | write entries =>
    rw [pc] at progress
    obtain ⟨seen, written, split, fout, -⟩ := progress
    refine ⟨seen, ?_⟩
    rw [fout, split, List.flatMap_append]
    exact List.prefix_append _ _
  | put entry entries =>
    rw [pc] at progress
    obtain ⟨seen, written, split, fout, -⟩ := progress
    refine ⟨seen, ?_⟩
    rw [fout, split, List.flatMap_append, List.flatMap_cons, ← List.append_assoc]
    exact List.prefix_append _ _

/-- The files of other blocks are the complete ones, and the file of the block is the front of the
complete one. -/
theorem Progress.grown {hdd : Directory} {flush : FlushFrame}
    (progress : Progress mog blockId hdd flush) (packed : Packed mog blockId) :
    Grown hdd (complete mog blockId) ∧
      ∀ other, other ≠ blockId → hdd.lookup other = (complete mog blockId).lookup other := by
  by_cases opened : streaming flush.pc = true
  · obtain ⟨⟨visible, rfl, written⟩, given⟩ := progress.seen opened
    constructor
    · intro other file found
      rw [Table.lookup_insert_if] at found
      rw [complete, Table.lookup_insert_if]
      by_cases same : other = blockId
      · rw [if_pos same] at found
        rw [if_pos same]
        obtain rfl := Option.some.inj found
        exact ⟨_, rfl, written.trans given⟩
      · rw [if_neg same] at found
        rw [if_neg same]
        exact ⟨file, found, List.prefix_refl file⟩
    · intro other apart
      rw [complete, Table.lookup_insert_if, Table.lookup_insert_if, if_neg apart, if_neg apart]
  · have closed : flush.pc = .openFile ∨ flush.pc = .ended := by
      cases pc : flush.pc with
      | openFile => exact Or.inl rfl
      | ended => exact Or.inr rfl
      | _ =>
        rw [pc] at opened
        exact absurd rfl opened
    unfold Progress at progress
    rcases closed with before | after
    · rw [before] at progress
      rw [progress.1]
      constructor
      · refine grown_insert fun file found => ?_
        rw [Finmap.lookup_eq_none.mpr packed.fresh] at found
        cases found
      · intro other apart
        rw [complete, Table.lookup_insert_if, if_neg apart]
    · rw [after] at progress
      rw [progress]
      exact ⟨Grown.refl _, fun _ _ => rfl⟩

/-- The race goes on when only the flush and the files move. -/
theorem Racing.moved {storage : Storage Db} {flush : FlushFrame}
    (racing : Racing leveldb mog blockId race) (block : flush.blockId = blockId)
    (db : storage.db = race.mog.storage.db) (grown : Grown race.mog.storage.hdd storage.hdd)
    (progress : Progress mog blockId storage.hdd flush)
    (entries : flush.pc ≠ .ended → storage.entriesOf blockId = mog.storage.entriesOf blockId) :
    Racing leveldb mog blockId { race with mog := { race.mog with storage }, flush } where
  block := block
  progress := progress
  entries := entries
  indexed := by
    intro key info found
    dsimp only at found
    rw [db] at found
    obtain ⟨typed, value, recorded, readable⟩ := racing.indexed key info found
    exact ⟨typed, value, recorded, readable.grown grown⟩
  kept := by
    intro key unknown
    dsimp only at unknown
    rw [db] at unknown
    exact racing.kept key unknown
  tier := racing.tier
  mirrored := racing.mirrored
  ram := racing.ram
  cached := racing.cached
  knows := fun thread => (racing.knows thread).grown grown

/-! ## The steps of the flush -/

/-- A statement of the flush keeps the invariant. -/
theorem flush_racing (packed : Packed mog blockId) (racing : Racing leveldb mog blockId race)
    (in_time : race.InTime .flush)
    (stepped : race.flushStep hash leveldb race.flush.pc = some next) :
    Racing leveldb mog blockId next := by
  obtain ⟨now, ⟨block, pc, fout, offset, flushedSize⟩, readers⟩ := race
  obtain rfl : block = blockId := racing.block
  have progress := racing.progress
  have entries := racing.entries
  dsimp only at stepped progress entries
  cases pc with
  | openFile =>
    obtain rfl := Option.some.inj stepped
    obtain ⟨same, empty, start⟩ := progress
    dsimp only at same empty start
    refine racing.moved rfl rfl (grown_insert fun file found => ?_) ⟨⟨[], ?_, ?_⟩, empty, start⟩
      fun _ => entries fun same => (by cases same)
    · dsimp only at found
      rw [same, Finmap.lookup_eq_none.mpr packed.fresh] at found
      cases found
    · dsimp only [expose]
      rw [same]
    · exact List.nil_prefix
  | lock =>
    obtain rfl := Option.some.inj stepped
    obtain ⟨seen, empty, start⟩ := progress
    dsimp only at seen empty start
    refine racing.moved rfl rfl (Grown.refl _) ⟨seen, [], ?_, empty, ?_⟩
      fun _ => entries fun same => (by cases same)
    · exact (entries fun same => (by cases same)).symm
    · dsimp only
      rw [start, empty]
      rfl
  | write left =>
    obtain ⟨⟨visible, files, shown⟩, written, split, given, reached⟩ := progress
    dsimp only at files shown given reached
    cases left with
    | cons entry left =>
      obtain rfl := Option.some.inj stepped
      refine racing.moved rfl rfl (Grown.refl _)
        ⟨⟨visible, files, ?_⟩, written, split, ?_, ?_⟩ fun _ => entries fun same => (by cases same)
      · exact shown.trans (List.prefix_append _ _)
      · dsimp only
        rw [given]
      · dsimp only
        rw [reached, given]
    | nil =>
      obtain rfl := Option.some.inj stepped
      have whole : fout = (mog.storage.entriesOf block).flatMap KvInfo.value := by
        rw [given, split, List.append_nil]
      refine racing.moved rfl rfl (grown_insert fun file found => ?_) ?_
        fun running => absurd rfl running
      · dsimp only at found
        rw [files, Finmap.lookup_insert] at found
        obtain rfl := Option.some.inj found
        exact shown
      · change now.storage.hdd.insert block fout = complete mog block
        rw [files, Finmap.insert_insert, whole, complete]
  | put entry left =>
    obtain rfl := Option.some.inj stepped
    obtain ⟨seen, written, split, given, reached⟩ := progress
    dsimp only at seen given reached
    have member : entry ∈ mog.storage.entriesOf block := by
      rw [split]
      exact List.mem_append_right _ List.mem_cons_self
    have readable : Storage.Readable now.storage.hdd ⟨block, offset, entry.value.length,
        entry.valueLengthType⟩ entry.value := by
      refine ⟨rfl, ?_⟩
      obtain ⟨visible, files, shown⟩ := seen
      rw [Storage.fileBytes, files, Finmap.lookup_insert, Option.map_some]
      dsimp only
      rcases in_time entry rfl with empty | out
      · rw [empty]
        rfl
      · have here : visible.length = fout.length := by
          have upto := shown.length_le
          dsimp only [FlushRace.visible] at out
          rw [files, Finmap.lookup_insert, Option.getD_some] at out
          rw [given, List.length_append] at upto ⊢
          omega
        rw [shown.eq_of_length here, given, reached, List.drop_left, List.take_length]
    have advanced : Progress mog block now.storage.hdd
        ⟨block, .write left, fout, offset + entry.value.length, flushedSize⟩ := by
      refine ⟨seen, written ++ [entry], ?_, ?_, ?_⟩
      · rw [split, List.append_assoc, List.singleton_append]
      · dsimp only
        rw [given, List.flatMap_append, List.flatMap_singleton]
      · dsimp only
        rw [given, reached, List.length_append]
    refine ⟨rfl, advanced, fun _ => entries fun same => (by cases same),
      fun key info found => ?_, fun key unknown => ?_, racing.tier, racing.mirrored, racing.ram,
      racing.cached, racing.knows⟩
    · dsimp only at found
      rw [CentraIndex.getInfo_put] at found
      by_cases same : key = entry.key
      · rw [if_pos same] at found
        obtain rfl := Option.some.inj found
        exact ⟨packed.typed entry member, entry.value,
          Recorded.flushed _ entry member same.symm rfl, readable⟩
      · rw [if_neg same] at found
        exact racing.indexed key info found
    · dsimp only at unknown
      rw [CentraIndex.getInfo_put] at unknown
      split at unknown
      · cases unknown
      · exact racing.kept key unknown
  | ended => cases stepped

/-- The bytes that the stream writes out keep the invariant. -/
theorem drain_racing (racing : Racing leveldb mog blockId race) {count : Nat}
    (opened : streaming race.flush.pc = true) (longer : race.visible.length ≤ count) :
    Racing leveldb mog blockId (race.expose (race.flush.fout.take count)) := by
  obtain ⟨now, ⟨block, pc, fout, offset, flushedSize⟩, readers⟩ := race
  obtain rfl : block = blockId := racing.block
  have progress := racing.progress
  dsimp only at opened progress
  obtain ⟨⟨visible, files, shown⟩, -⟩ := progress.seen opened
  dsimp only [FlushRace.visible] at files shown longer
  rw [files, Finmap.lookup_insert, Option.getD_some] at longer
  have seen : Seen mog block (now.storage.hdd.insert block (fout.take count)) fout := by
    refine ⟨fout.take count, ?_, List.take_prefix count fout⟩
    rw [files, Finmap.insert_insert]
  refine racing.moved rfl rfl (grown_insert fun file found => ?_) ?_ racing.entries
  · dsimp only at found
    rw [files, Finmap.lookup_insert] at found
    obtain rfl := Option.some.inj found
    exact List.prefix_take_iff.mpr ⟨shown, longer⟩
  · cases pc with
    | openFile | ended => cases opened
    | lock | write left | put entry left => exact ⟨seen, progress.2⟩

/-! ## The readers and the tasks -/

/-- A task of the SSD cache keeps the invariant. -/
theorem task_racing [DecidableEq Thread] (packed : Packed mog blockId)
    (racing : Racing leveldb mog blockId race) {task : SsdTask} (in_time : race.InTime (.task task))
    (stepped : (machine hash leveldb config files).step race (.task task) = some next) :
    Racing leveldb mog blockId next := by
  simp only [machine] at stepped
  split at stepped
  · next inside =>
    obtain ⟨-, others⟩ := racing.progress.grown packed
    have copied (source : Nat) (copies : task = .fetchCopy source)
        (there : source ∈ race.mog.storage.hdd) (absent : source ∉ race.mog.tier.ssd) :
        race.mog.storage.hdd.lookup source = (complete mog blockId).lookup source := by
      by_cases same : source = blockId
      · subst same copies
        have progress := racing.progress
        by_cases finished : race.flush.pc = .ended
        · unfold Progress at progress
          rw [finished] at progress
          rw [progress]
        · have whole := (in_time source rfl racing.block.symm there absent).resolve_left finished
          obtain ⟨file, found⟩ := Finmap.mem_iff.mp there
          rw [visible, racing.block, found, Option.getD_some] at whole
          have packed_still : race.mog.storage.buffer.blocks.slot source =
              mog.storage.entriesOf source := racing.entries finished
          rw [found, whole, packed_still, complete, Finmap.lookup_insert]
      · exact others source same
    obtain ⟨after, later, ran, mirrored, coherent⟩ :=
      SsdTier.runTask_growing racing.tier inside racing.mirrored copied
    rw [ran] at stepped
    obtain rfl := Option.some.inj stepped
    exact ⟨racing.block, racing.progress, racing.entries, racing.indexed, racing.kept, coherent,
      mirrored, racing.ram, racing.cached, racing.knows⟩
  · cases stepped

/-- What an access of a reader does. -/
structure Access (leveldb : LevelDb Db) (mog : Mog Db) (blockId : Nat) (now after : Mog Db)
    (caller : Caller) : Prop where
  /-- The write buffer, the index and the block files stay. -/
  storage : after.storage = now.storage
  /-- The SSD cache still agrees with the complete files. -/
  tier : SsdTier.World.Coherent (fun other => ((complete mog blockId).lookup other).getD [])
    { tier := after.tier, hdd := complete mog blockId, announced := [] }
  /-- The files on the SSD stay. -/
  ssd : after.tier.ssd = now.tier.ssd
  /-- The slabs of the RAM cache are still partitioned. -/
  ram : after.ram.Partition
  /-- The RAM cache still holds values of its keys. -/
  cached : after.ram.Holds (OwnValue leveldb mog blockId)
  /-- The reader knows what it must. -/
  knows : Knows leveldb mog blockId now.storage.hdd caller.value caller.pc

/-- An access of a reader returns a value of its key or goes on. -/
theorem reader_access (packed : Packed mog blockId) (racing : Racing leveldb mog blockId race)
    {thread : Thread} (in_time : race.InTime (.reader thread)) {after : Mog Db} {caller : Caller}
    (stepped : race.mog.step hash leveldb config files (race.readers thread) =
      some (after, caller)) : Access leveldb mog blockId race.mog after caller := by
  have knows := racing.knows thread
  have same_length : ∀ insertion ∈ (race.readers thread).pc.caching,
    ∀ item ∈ race.mog.ram.cachedItem.lookup insertion.1, item.length = insertion.2.length := in_time
  have stays (caller : Caller) (known : Knows leveldb mog blockId race.mog.storage.hdd caller.value
      caller.pc) : Access leveldb mog blockId race.mog race.mog caller :=
    ⟨rfl, racing.tier, rfl, racing.ram, racing.cached, known⟩
  cases reads : race.readers thread with
  | mk pc value =>
  rw [reads] at stepped knows same_length
  unfold Mog.step at stepped
  dsimp only at stepped knows same_length
  cases pc with
  | findItem reader key =>
    cases reader with
    | file path => exact knows.elim
    | caller =>
      obtain ⟨rfl, rfl⟩ := Prod.mk.inj (Option.some.inj stepped)
      refine stays _ ?_
      dsimp only
      split <;> trivial
  | copyItem reader key =>
    cases reader with
    | file path => exact knows.elim
    | caller =>
      obtain ⟨item, found, same⟩ := Option.map_eq_some_iff.mp stepped
      obtain ⟨rfl, rfl⟩ := Prod.mk.inj same
      obtain ⟨bytes, own, length, starts⟩ := CpuCache.copyOut_holds racing.cached found value
      refine stays _ ?_
      dsimp only [Mog.afterRead]
      rw [length]
      exact Answered.value bytes own _ starts
  | getIndex reader key =>
    cases reader with
    | file path => exact knows.elim
    | caller =>
      dsimp only at stepped
      split at stepped
      · next unknown =>
        obtain ⟨rfl, rfl⟩ := Prod.mk.inj (Option.some.inj stepped)
        exact stays _ (Answered.absent (racing.kept key unknown) value)
      · next info found =>
        obtain ⟨rfl, rfl⟩ := Prod.mk.inj (Option.some.inj stepped)
        obtain ⟨typed, bytes, recorded, readable⟩ := racing.indexed key info found
        exact stays _ ⟨typed, bytes, Or.inl ⟨info, recorded⟩, readable⟩
  | readSsd reader key info =>
    cases reader with
    | file path => exact knows.elim
    | caller =>
      obtain ⟨⟨tier, length, delivered⟩, served, same⟩ := Option.map_eq_some_iff.mp stepped
      obtain ⟨rfl, rfl⟩ := Prod.mk.inj same
      obtain ⟨typed, bytes, own, readable⟩ := knows
      have starts := SsdTier.read_readable racing.tier (racing.progress.grown packed).1 readable
        served
      obtain ⟨source, -, noted⟩ := Option.map_eq_some_iff.mp served
      obtain ⟨rfl, -⟩ := Prod.mk.inj noted
      exact ⟨rfl, racing.tier.noteRead info.blockId, rfl, racing.ram, racing.cached, typed, bytes,
        own, readable.1, starts⟩
  | insertItem reader key info =>
    cases reader with
    | file path => exact knows.elim
    | caller =>
      obtain ⟨ram, inserted, same⟩ := Option.map_eq_some_iff.mp stepped
      obtain ⟨rfl, rfl⟩ := Prod.mk.inj same
      obtain ⟨typed, bytes, own, length, starts⟩ := knows
      have fits : bytes.length ≤ 2 ^ info.lengthType * 1024 := by
        rw [typed, length]
        exact length_le_slab info.length
      refine ⟨rfl, racing.tier, rfl, CpuCache.insert_partition racing.ram inserted, ?_, ?_⟩
      · cases found : race.mog.ram.cachedItem.lookup key with
        | none =>
          exact CpuCache.insert_holds racing.ram racing.cached (Finmap.lookup_eq_none.mp found)
            starts length fits own inserted
        | some item =>
          exact CpuCache.insert_again racing.ram racing.cached found
            (same_length (key, info) rfl item found) inserted
      · dsimp only [Mog.afterRead]
        rw [← length]
        exact Answered.value bytes own _ starts
  | done call result => cases stepped
  | _ => exact knows.elim

/-- An access of a reader keeps the invariant. -/
theorem reader_racing [DecidableEq Thread] (packed : Packed mog blockId)
    (racing : Racing leveldb mog blockId race) {thread : Thread}
    (in_time : race.InTime (.reader thread))
    (stepped : (machine hash leveldb config files).step race (.reader thread) = some next) :
    Racing leveldb mog blockId next := by
  obtain ⟨⟨after, caller⟩, taken, rfl⟩ := Option.map_eq_some_iff.mp stepped
  have access := reader_access packed racing in_time taken
  have same := access.storage
  refine ⟨racing.block, ?_, ?_, ?_, ?_, access.tier, ?_, access.ram, access.cached, ?_⟩
  · dsimp only
    rw [same]
    exact racing.progress
  · dsimp only
    rw [same]
    exact racing.entries
  · dsimp only
    rw [same]
    exact racing.indexed
  · dsimp only
    rw [same]
    exact racing.kept
  · dsimp only
    rw [access.ssd]
    exact racing.mirrored
  · intro other
    dsimp only
    rw [same]
    by_cases moved : other = thread
    · subst moved
      rw [Function.update_self]
      exact access.knows
    · rw [Function.update_of_ne moved]
      exact racing.knows other

/-! ## Whole runs -/

/-- Every step that is in time keeps the invariant. -/
theorem step_racing [DecidableEq Thread] (packed : Packed mog blockId) {event : FlushEvent Thread}
    (racing : Racing leveldb mog blockId race) (in_time : race.InTime event)
    (stepped : (machine hash leveldb config files).step race event = some next) :
    Racing leveldb mog blockId next := by
  cases event with
  | flush => exact flush_racing packed racing in_time stepped
  | drain count =>
    simp only [machine] at stepped
    split at stepped
    · next allowed =>
      obtain rfl := Option.some.inj stepped
      exact drain_racing racing allowed.1 allowed.2
    · cases stepped
  | reader thread => exact reader_racing packed racing in_time stepped
  | task task => exact task_racing packed racing in_time stepped

/-- What the invariant says to others. -/
theorem Racing.inOrder (racing : Racing leveldb mog blockId race) :
    InOrder leveldb mog blockId race where
  indexed := fun key info found => (racing.indexed key info found).2
  answered := by
    intro thread key result returned
    have knows := racing.knows thread
    rw [returned] at knows
    exact knows
  cached := racing.cached
  copied := racing.mirrored

/-- A scheduled block of a running `mog` is about to be flushed. -/
theorem packed_of_running {caller : Caller} (running : Mog.Running hash leveldb mog caller)
    (scheduled : blockId ∈ mog.storage.buffer.flushThreadPool) : Packed mog blockId where
  fresh := fun old => (running.opened.flushed blockId old).2
    (Storage.mem_pendingAt scheduled caller.pc.bufferPc)
  typed := fun _ member => (running.opened.storage.buffer.entries _ _
    (Storage.entry_stored running.opened.storage.buffer member)).2.2

/-- The flush of a scheduled block starts with the invariant. -/
theorem start_racing {caller : Caller} (running : Mog.Running hash leveldb mog caller)
    (packed : Packed mog blockId) (key : Thread → String) (value : Thread → ByteMemory) :
    Racing leveldb mog blockId (start blockId mog key value) := by
  have grown : SsdTier.Extends mog.storage.hdd (complete mog blockId) :=
    SsdTier.extends_insert packed.fresh _
  have mirrored : SsdTier.Extends mog.tier.ssd (complete mog blockId) :=
    fun other file found => grown other file (running.fetching.mirrored other file found)
  have content (other : Nat) (file : List UInt8)
      (found : (complete mog blockId).lookup other = some file) :
      file = ((complete mog blockId).lookup other).getD [] := by
    rw [found, Option.getD_some]
  have no_flush : mog.tier.cache.threadPool.filterMap SsdTask.flushes = [] := by
    rw [List.filterMap_eq_nil_iff]
    intro task member
    obtain ⟨fetched, rfl⟩ := running.fetching.tasks task member
    rfl
  have no_section (task : SsdTask) (section_task : ∀ fetched, task ≠ .fetchTest fetched) :
      task ∉ mog.tier.cache.threadPool := by
    intro member
    obtain ⟨fetched, same⟩ := running.fetching.tasks task member
    exact section_task fetched same
  constructor
  case block => rfl
  case progress => exact ⟨rfl, rfl, rfl⟩
  case entries => exact fun _ => rfl
  case indexed =>
    intro key info found
    obtain ⟨-, -, typed, bytes, denoted⟩ := running.opened.storage.indexed key info found
    exact ⟨typed, bytes, Recorded.before info bytes found denoted,
      Storage.readable_of_slice denoted⟩
  case kept => exact fun _ unknown => unknown
  case tier =>
    constructor
    case ssd => exact fun other file found => content other file (mirrored other file found)
    case hdd => exact content
    case tier => exact running.opened.tier.extends (SsdTier.Extends.refl _) grown
    case unsynced => exact fun other member => absurd member (running.opened.synced other)
    case announced => exact fun _ member => absurd member List.not_mem_nil
    case flushes =>
      dsimp only [start]
      rw [no_flush]
      exact List.nodup_nil
    case flushing =>
      dsimp only [start]
      rw [no_flush]
      exact fun _ member => absurd member List.not_mem_nil
    case fetches => exact running.fetching.distinct
    case fetching => exact running.fetching.marked
    case flushCopied =>
      exact fun other member => absurd member (no_section _ fun _ same => (by cases same))
    case fetchCopied =>
      exact fun other member => absurd member (no_section _ fun _ same => (by cases same))
  case mirrored => exact mirrored
  case ram => exact running.opened.ram
  case cached =>
    intro key item found
    obtain ⟨bytes, -, length, stores⟩ := running.ram key item found
    exact ⟨bytes, Or.inr ⟨item, found, length, stores⟩, length, stores⟩
  case knows => exact fun _ => trivial

/-- A step after which the index is in order was in time, unless it inserts into the RAM cache. -/
theorem inTime_of_inOrder [DecidableEq Thread] {event : FlushEvent Thread}
    (racing : Racing leveldb mog blockId race)
    (no_insert : ∀ thread, event = .reader thread → (race.readers thread).pc.caching = none)
    (stepped : (machine hash leveldb config files).step race event = some next)
    (order : InOrder leveldb mog blockId next) : race.InTime event := by
  cases event with
  | drain count => trivial
  | reader thread =>
    intro insertion inserts
    rw [no_insert thread rfl] at inserts
    cases inserts
  | flush =>
    intro entry putting
    cases pc : race.flush.pc with
    | put other left =>
      rw [pc] at putting
      obtain rfl := Option.some.inj putting
      simp only [machine] at stepped
      rw [pc] at stepped
      obtain rfl := Option.some.inj stepped
      obtain ⟨value, -, length, bytes⟩ := order.indexed other.key _ (by
        rw [CentraIndex.getInfo_put, if_pos rfl])
      obtain ⟨file, found, taken⟩ := Option.map_eq_some_iff.mp bytes
      dsimp only at found length taken
      rw [visible, found, Option.getD_some]
      by_cases empty : other.value = []
      · exact Or.inl empty
      · have positive := List.length_pos_iff.mpr empty
        rw [← taken, List.length_take, List.length_drop] at length
        right
        omega
    | _ =>
      rw [pc] at putting
      cases putting
  | task task =>
    intro source copies same there absent
    by_cases finished : race.flush.pc = .ended
    · exact Or.inl finished
    · obtain ⟨file, found⟩ := Finmap.mem_iff.mp there
      have copying : task = .fetchCopy source := by
        cases task <;> cases copies
        rfl
      subst copying
      simp only [machine] at stepped
      split at stepped
      · have copied : copyFile race.mog.storage.hdd race.mog.tier.ssd source =
            some (race.mog.tier.ssd.insert source file) :=
          SsdTier.copyFile_eq_some.mpr ⟨absent, file, found, rfl⟩
        rw [SsdTier.runTask, copied] at stepped
        obtain rfl := Option.some.inj stepped
        have whole := order.copied source file (Finmap.lookup_insert _)
        rw [same, racing.block, complete, Finmap.lookup_insert] at whole
        right
        rw [visible, ← same, found, Option.getD_some, same, racing.block]
        exact (Option.some.inj whole).symm.trans
          (congrArg (List.flatMap KvInfo.value) (racing.entries finished).symm)
      · cases stepped

/-- However a flush of a scheduled block interleaves with readers and with the tasks of the SSD
cache, as long as its steps are in time the index does not run ahead of the files. -/
theorem inOrder_along [DecidableEq Thread] {calls : List Mog.Event}
    {regular : String → Option (List UInt8)} {buffer : ByteMemory} {session : Mog.Session Db}
    (served : (Mog.machine hash leveldb config).Along Mog.Event.Served
      (Mog.start leveldb regular buffer) calls)
    (ran : (Mog.machine hash leveldb config).run (Mog.start leveldb regular buffer) calls =
      some session)
    (opened : session.opened = true)
    (scheduled : blockId ∈ session.mog.storage.buffer.flushThreadPool)
    {key : Thread → String} {value : Thread → ByteMemory} {events : List (FlushEvent Thread)}
    (in_time : (machine hash leveldb config files).Along InTime
      (start blockId session.mog key value) events)
    (raced : (machine hash leveldb config files).run (start blockId session.mog key value) events =
      some race) :
    InOrder leveldb session.mog blockId race := by
  have running := (Mog.run_steady served ran).running opened
  have packed := packed_of_running running scheduled
  have racing := Machine.run_invariant_along _
    (fun _ _ _ racing in_time stepped => step_racing packed racing in_time stepped)
    (start_racing running packed key value) in_time raced
  exact racing.inOrder

/-- A value is written and synced, which schedules the flush of block 1. -/
def storeOne : List Mog.Event :=
  [.openDb, .call (.write "a" [1, 2])] ++ List.replicate 4 .step ++ [.call .sync] ++
    List.replicate 4 .step

/-- The stream writes the bytes out before the record is put, and a reader comes before the
close. -/
def drainFirst : List (FlushEvent Unit) :=
  List.replicate 3 .flush ++ [.drain 2, .flush] ++ List.replicate 4 (.reader ()) ++ [.flush]

/-- A reader that comes between the put and the close returns the value that was written out. -/
theorem inOrder_along_drainFirst : ∃ session race,
    (Mog.machine Storage.lengthHash LevelDb.table .oneBlock).run
      (Mog.start LevelDb.table (fun _ => none) fun _ => 0) storeOne = some session ∧
    (machine Storage.lengthHash LevelDb.table .oneBlock fun _ => none).run
      (start 1 session.mog (fun _ => "a") fun _ _ => 0) drainFirst = some race ∧
    (race.readers ()).pc = .done (.read "a") 2 ∧ (race.readers ()).value.take 2 = [1, 2] ∧
    InOrder LevelDb.table session.mog 1 race := by
  have executed : ∃ session race,
      (Mog.machine Storage.lengthHash LevelDb.table .oneBlock).run
        (Mog.start LevelDb.table (fun _ => none) fun _ => 0) storeOne = some session ∧
      (machine Storage.lengthHash LevelDb.table .oneBlock fun _ => none).run
        (start 1 session.mog (fun _ => "a") fun _ _ => 0) drainFirst = some race ∧
      session.opened = true ∧ session.mog.storage.buffer.flushThreadPool = [1] ∧
      (race.readers ()).pc = .done (.read "a") 2 ∧ (race.readers ()).value.take 2 = [1, 2] :=
    ⟨_, _, rfl, rfl, rfl, rfl, rfl, rfl⟩
  obtain ⟨session, race, ran, raced, opened, pool, returned, delivered⟩ := executed
  have scheduled : 1 ∈ session.mog.storage.buffer.flushThreadPool := by
    rw [pool]
    exact List.mem_singleton_self 1
  have served : (Mog.machine Storage.lengthHash LevelDb.table .oneBlock).Along Mog.Event.Served
      (Mog.start LevelDb.table (fun _ => none) fun _ => 0) storeOne := by
    decide +kernel
  have in_time : ∀ session ∈ (Mog.machine Storage.lengthHash LevelDb.table .oneBlock).run
      (Mog.start LevelDb.table (fun _ => none) fun _ => 0) storeOne,
      (machine Storage.lengthHash LevelDb.table .oneBlock fun _ => none).Along InTime
        (start 1 session.mog (fun _ => "a") fun _ _ => 0) drainFirst := by
    decide +kernel
  exact ⟨session, race, ran, raced, returned, delivered,
    inOrder_along served ran opened scheduled (in_time session ran) raced⟩

/-- A reader that comes between the put and the close, with nothing written out. -/
def putFirst : List (FlushEvent Unit) :=
  List.replicate 4 .flush ++ List.replicate 4 (.reader ())

/-- The reader returns two bytes that were never stored, and they stay in the RAM cache. -/
theorem not_inOrder_of_putFirst : ∃ session race,
    (Mog.machine Storage.lengthHash LevelDb.table .oneBlock).run
      (Mog.start LevelDb.table (fun _ => none) fun _ => 0) storeOne = some session ∧
    (machine Storage.lengthHash LevelDb.table .oneBlock fun _ => none).run
      (start 1 session.mog (fun _ => "a") fun _ _ => 0) putFirst = some race ∧
    (session.mog.storage.entriesOf 1).map KvInfo.value = [[1, 2]] ∧
    (race.readers ()).pc = .done (.read "a") 2 ∧ (race.readers ()).value.take 2 = [0, 0] ∧
    ¬ InOrder LevelDb.table session.mog 1 race := by
  have executed : ∃ session race,
      (Mog.machine Storage.lengthHash LevelDb.table .oneBlock).run
        (Mog.start LevelDb.table (fun _ => none) fun _ => 0) storeOne = some session ∧
      (machine Storage.lengthHash LevelDb.table .oneBlock fun _ => none).run
        (start 1 session.mog (fun _ => "a") fun _ _ => 0) putFirst = some race ∧
      (session.mog.storage.entriesOf 1).map KvInfo.value = [[1, 2]] ∧
      (race.readers ()).pc = .done (.read "a") 2 ∧ (race.readers ()).value.take 2 = [0, 0] ∧
      CentraIndex.getInfo LevelDb.table race.mog.storage.db "a" = some ⟨1, 0, 2, 0⟩ ∧
      Storage.fileBytes race.mog.storage.hdd ⟨1, 0, 2, 0⟩ = some [] :=
    ⟨_, _, rfl, rfl, rfl, rfl, rfl, rfl, rfl⟩
  obtain ⟨session, race, ran, raced, stored, returned, delivered, found, bytes⟩ := executed
  refine ⟨session, race, ran, raced, stored, returned, delivered, fun order => ?_⟩
  obtain ⟨value, -, length, readable⟩ := order.indexed "a" _ found
  rw [bytes] at readable
  obtain rfl := Option.some.inj readable
  cases length

end CudaDb.FlushRace
