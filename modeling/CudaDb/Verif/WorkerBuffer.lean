import CudaDb.Lib.Simulation
import CudaDb.Verif.FleetBudget
import CudaDb.Verif.RamGrowth

/-!
# The value buffers of the workers

The workers of the server are readers of the RAM cache: every access of a call of `read_file` is
an access of `CpuCache::read`, the start of one, or none of its business. So an entry owns at most
the slabs of one value for each worker, which are 1 MiB for each. The other copies into the buffer
of a worker are of a file of at most 64 MiB, of a buffered value and of a value on a disk. None of
them reaches the end of the buffer.
-/

namespace CudaDb

/-- Where a call stands in `CpuCache::read`. -/
def MogPc.readPc : MogPc → Option ReadPc
  | .findItem _ key => some (.find key)
  | .copyItem _ key => some (.copy key)
  | .getIndex _ key => some (.get key)
  | .readSsd _ key info => some (.readSsd key info)
  | .insertItem _ key info => some (.insert key info)
  | _ => none

/-- A caller of a `mog` makes the call of a reader, while it is in one. -/
structure Caller.Reads (caller : Caller) (call : ReadCall) : Prop where
  /-- Inside `CpuCache::read` both stand at the same access with the same buffer. -/
  inside : ∀ pc, caller.pc.readPc = some pc → call = { pc, value := caller.value }
  /-- Elsewhere the reader has no call. -/
  elsewhere : caller.pc.readPc = none → call.pc.atRest = true

/-- A caller outside `CpuCache::read` makes no call of a reader. -/
theorem Caller.reads_of_outside {caller : Caller} {call : ReadCall}
    (outside : caller.pc.readPc = none) (rest : call.pc.atRest = true) : caller.Reads call where
  inside := by
    intro pc standing
    rw [outside] at standing
    cases standing
  elsewhere := fun _ => rest

/-- A caller inside `CpuCache::read` makes the call that stands there. -/
theorem Caller.reads_of_inside {caller : Caller} {pc : ReadPc}
    (standing : caller.pc.readPc = some pc) :
    caller.Reads { pc, value := caller.value } where
  inside := by
    intro other same
    rw [Option.some.inj (standing.symm.trans same)]
  elsewhere := by
    intro outside
    rw [standing] at outside
    cases outside

namespace Mog

variable {Db : Type*} {hash : String → UInt64} {leveldb : LevelDb Db} {config : MogConfig}
  {files : String → Option (List UInt8)} {mog next : Mog Db} {caller after : Caller}

/-- A call that has returned from `mog::read` has left `CpuCache::read`. -/
theorem readPc_afterRead (reader : Reader) (key : String) (length : Nat) :
    (afterRead reader key length).readPc = none := by
  unfold afterRead
  cases reader with
  | caller => rfl
  | file path =>
    dsimp only
    split <;> rfl

/-- What an access of a `mog` is to the readers of its RAM cache. -/
inductive Imitated (leveldb : LevelDb Db) (mog next : Mog Db) (after : Caller) (call : ReadCall) :
    Prop
  /-- It is no access of `CpuCache::read`. -/
  | stutters (ram : next.ram = mog.ram) (reads : after.Reads call)
  /-- It leads to a call. -/
  | called (ram : next.ram = mog.ram) (rest : call.pc.atRest = true) (key : String)
    (reads : after.Reads { pc := .find key, value := after.value })
  /-- It is an access of a call, which meets the index and the disks of the `mog`. -/
  | accessed (outside : Outside) (later : ReadCall)
    (taken : mog.ram.readStep outside call = some (next.ram, later)) (reads : after.Reads later)
    (indexed : ∀ info ∈ outside.info, ∃ key,
      CentraIndex.getInfo leveldb mog.storage.db key = some info)

/-- Outside `CpuCache::read` an access that keeps the RAM cache is imitated by none. -/
theorem imitated_of_outside {call : ReadCall} (reads : caller.Reads call)
    (ram : next.ram = mog.ram) (before : caller.pc.readPc = none)
    (later : after.pc.readPc = none) : Imitated leveldb mog next after call :=
  .stutters ram (Caller.reads_of_outside later (reads.elsewhere before))

/-- Every access of a `mog` is imitated by the readers of its RAM cache. -/
theorem step_imitated {call : ReadCall} (reads : caller.Reads call)
    (stepped : mog.step hash leveldb config files caller = some (next, after)) :
    Imitated leveldb mog next after call := by
  obtain ⟨pc, value⟩ := caller
  cases step_access stepped with
  | ready | unready | directNothing | directFile | fileNothing | fileRead | admitted | uncached
  | bufferStep | charged | synced => exact imitated_of_outside reads rfl rfl rfl
  | bufferReturned writer status =>
    have outside : (afterWrite writer status).readPc = none := by cases writer <;> rfl
    exact imitated_of_outside reads rfl rfl outside
  | bufferHit reader key => exact imitated_of_outside reads rfl rfl (readPc_afterRead reader key _)
  | bufferMiss reader key =>
    exact .called rfl (reads.elsewhere rfl) key (Caller.reads_of_inside rfl)
  | itemFound reader key cached =>
    obtain rfl := reads.inside _ rfl
    refine .accessed { info := none, value } _ rfl ?_ fun info answered => (by cases answered)
    rw [if_pos cached]
    exact Caller.reads_of_inside rfl
  | itemMissed reader key uncached =>
    obtain rfl := reads.inside _ rfl
    refine .accessed { info := none, value } _ rfl ?_ fun info answered => (by cases answered)
    rw [if_neg uncached]
    exact Caller.reads_of_inside rfl
  | itemCopied reader key item found =>
    obtain rfl := reads.inside _ rfl
    have copied : mog.ram.readStep { info := none, value } { pc := .copy key, value } =
        some (mog.ram, { pc := .returned item.length, value := (mog.ram.copyOut item value).2 }) :=
      Option.map_eq_some_iff.mpr ⟨item, found, rfl⟩
    exact .accessed _ _ copied
      (Caller.reads_of_outside (readPc_afterRead reader key _) rfl)
      fun info answered => (by cases answered)
  | indexMissed reader key =>
    obtain rfl := reads.inside _ rfl
    exact .accessed { info := none, value } _ rfl
      (Caller.reads_of_outside (readPc_afterRead reader key _) rfl)
      fun info answered => (by cases answered)
  | indexFound reader key info found =>
    obtain rfl := reads.inside _ rfl
    refine .accessed { info := some info, value } _ rfl (Caller.reads_of_inside rfl) ?_
    intro other answered
    obtain rfl := Option.some.inj answered
    exact ⟨key, found⟩
  | ssdRead reader key info tier length read =>
    obtain rfl := reads.inside _ rfl
    exact .accessed { info := none, value := read } _ rfl (Caller.reads_of_inside rfl)
      fun other answered => (by cases answered)
  | itemInserted reader key info ram inserted =>
    obtain rfl := reads.inside _ rfl
    have stored : mog.ram.readStep { info := none, value } { pc := .insert key info, value } =
        some (ram, { pc := .returned info.length, value }) :=
      Option.map_eq_some_iff.mpr ⟨ram, inserted, rfl⟩
    exact .accessed _ _ stored
      (Caller.reads_of_outside (readPc_afterRead reader key _) rfl)
      fun other answered => (by cases answered)

/-- The index answers values of at most 1 MiB, which are 1024 slabs. -/
theorem lengthType_le (opened : mog.Opened hash leveldb .idle) {key : String} {info : IndexInfo}
    (found : CentraIndex.getInfo leveldb mog.storage.db key = some info) :
    2 ^ info.lengthType ≤ 1024 := by
  obtain ⟨-, short, typed, -⟩ := opened.storage.indexed key info found
  have small : info.lengthType ≤ 10 := by
    rw [typed]
    exact slabType_le_ten.mpr short
  exact Nat.pow_le_pow_right (by decide) small

/-! ## What an access writes -/

/-- The bytes that a call has found for the buffer are not too many: at most 1 MiB on a disk and at
most 64 MiB in a file. -/
def Fits : MogPc → Prop
  | .readSsd _ _ info => info.length ≤ maxValueLength
  | .testTotal _ _ buffer => buffer.length ≤ maxFileLength
  | _ => True

/-- A call that has returned from `mog::read` has found nothing more. -/
theorem fits_afterRead (reader : Reader) (key : String) (length : Nat) :
    Fits (afterRead reader key length) := by
  unfold afterRead
  cases reader with
  | caller => trivial
  | file path =>
    dsimp only
    split <;> trivial

/-- What an access writes lies in the first 64 MiB of the buffer. -/
structure Within (caller after : Caller) : Prop where
  /-- What it has found fits. -/
  fits : Fits after.pc
  /-- Behind 64 MiB the buffer keeps its bytes. -/
  behind : ∀ position, maxFileLength ≤ position → after.value position = caller.value position

/-- An access that leaves the buffer. -/
theorem Within.of_same (fits : Fits after.pc) (same : after.value = caller.value) :
    Within caller after where
  fits := fits
  behind := by
    intro position _
    rw [same]

/-- An access that writes at most 64 MiB to the front of the buffer. -/
theorem Within.of_write (fits : Fits after.pc) {bytes : List UInt8}
    (short : bytes.length ≤ maxFileLength) (same : after.value = caller.value.write bytes) :
    Within caller after where
  fits := fits
  behind := by
    intro position behind
    rw [same]
    exact ByteMemory.write_outside (short.trans behind)

/-- A buffered or stored value is shorter than the buffer. -/
theorem maxValueLength_le : maxValueLength ≤ maxFileLength := by decide

/-- In a `mog` whose RAM cache has entries of at most 64 MiB, every access of a call of `read_file`
writes to the first 64 MiB of the buffer only. -/
theorem step_within (opened : mog.Opened hash leveldb .idle) (serving : caller.pc.Serving)
    (fits : Fits caller.pc)
    (entries : ∀ key item, mog.ram.cachedItem.lookup key = some item →
      1024 * item.slabs.length ≤ maxFileLength)
    (stepped : mog.step hash leveldb config files caller = some (next, after)) :
    Within caller after := by
  obtain ⟨pc, value⟩ := caller
  cases step_access stepped with
  | directFile path file found short => exact Within.of_write trivial short rfl
  | fileRead path key file found short => exact Within.of_same short rfl
  | bufferHit reader key info found =>
    have short : info.value.length ≤ maxValueLength :=
      (opened.storage.buffer.entries (hash key) info found).2.1
    exact Within.of_write (fits_afterRead reader key _) (short.trans maxValueLength_le) rfl
  | itemCopied reader key item found =>
    refine ⟨fits_afterRead reader key _, fun position behind => ?_⟩
    exact (mog.ram.copiesExactly item).behind value position ((entries key item found).trans behind)
  | indexMissed reader key => exact Within.of_same (fits_afterRead reader key 0) rfl
  | indexFound reader key info found =>
    exact Within.of_same (opened.storage.indexed key info found).2.1 rfl
  | ssdRead reader key info tier length read served =>
    obtain ⟨file, -, result⟩ := Option.map_eq_some_iff.mp served
    obtain ⟨-, delivered⟩ := Prod.mk.inj result
    obtain ⟨-, written⟩ := Prod.mk.inj delivered
    have short : ((file.drop info.offset).take info.length).length ≤ maxValueLength :=
      (List.length_take_le _ _).trans fits
    exact Within.of_write trivial (short.trans maxValueLength_le) written.symm
  | itemInserted reader key info => exact Within.of_same (fits_afterRead reader key _) rfl
  | uncached path key buffer => exact Within.of_write trivial fits rfl
  | bufferReturned writer status =>
    have nothing : Fits (afterWrite writer status) := by cases writer <;> trivial
    exact Within.of_same nothing rfl
  | charged path buffer =>
    have short : buffer.length ≤ maxValueLength := serving
    exact Within.of_write trivial (short.trans maxValueLength_le) rfl
  | synced => exact serving.elim
  | _ => exact Within.of_same trivial rfl

end Mog

namespace Fleet

variable {Worker : Type*} [DecidableEq Worker] {Db : Type*} {hash : String → UInt64}
  {leveldb : LevelDb Db} {config : MogConfig} {files : String → Option (List UInt8)}
  {fleet next : Fleet Worker Db} {readers : Readers Worker} {event : Event Worker}

/-- The workers of the server and the readers of its RAM cache stand at the same accesses. -/
structure Follows (hash : String → UInt64) (leveldb : LevelDb Db) (fleet : Fleet Worker Db)
    (readers : Readers Worker) : Prop where
  /-- The stores are coherent. -/
  opened : fleet.mog.Opened hash leveldb .idle
  /-- Every worker is at rest or in a call of `read_file`. -/
  served : fleet.Served
  /-- The caches are the same. -/
  cache : readers.cache = fleet.mog.ram
  /-- The workers make the calls of the readers. -/
  reads : ∀ worker, (fleet.workers worker).Reads (readers.calls worker)

/-- A worker and a reader move together. -/
theorem reads_update (reads : ∀ worker, (fleet.workers worker).Reads (readers.calls worker))
    (worker : Worker) {caller : Caller} {call : ReadCall} (moved : caller.Reads call)
    (other : Worker) : (Function.update fleet.workers worker caller other).Reads
      (Function.update readers.calls worker call other) := by
  by_cases same : other = worker
  · rw [same, Function.update_self, Function.update_self]
    exact moved
  · rw [Function.update_of_ne same, Function.update_of_ne same]
    exact reads other

/-- The workers of the server are readers of its RAM cache, for which the index answers values of at
most 1024 slabs. -/
theorem simulates (hash : String → UInt64) (leveldb : LevelDb Db) (config : MogConfig)
    (files : String → Option (List UInt8)) :
    Machine.Simulates (machine hash leveldb config files) Readers.machine
      (@Follows Worker Db hash leveldb) (fun _ => Readers.Answers 1024) := by
  intro fleet readers event next follows stepped
  have opened := step_opened follows.opened follows.served stepped
  have served := step_served follows.served stepped
  cases step_occurs stepped with
  | readFile worker path rest =>
    have outside : (fleet.workers worker).pc.readPc = none := by
      generalize (fleet.workers worker).pc = pc at rest ⊢
      cases pc <;> first | rfl | cases rest
    have idle := (follows.reads worker).elsewhere outside
    exact Or.inl ⟨opened, served, follows.cache,
      Threads.each_update (fun other (caller : Caller) => caller.Reads (readers.calls other))
        (Caller.reads_of_outside rfl idle) follows.reads⟩
  | step worker mog caller taken =>
    rcases Mog.step_imitated (follows.reads worker) taken with
      ⟨ram, reads⟩ | ⟨ram, rest, key, reads⟩ | ⟨outside, later, accessed, reads, indexed⟩
    · exact Or.inl ⟨opened, served, follows.cache.trans ram.symm,
        Threads.each_update (fun other (caller : Caller) => caller.Reads (readers.calls other))
          reads follows.reads⟩
    · refine Or.inr ⟨.read worker key caller.value, _, trivial, if_pos rest, opened, served,
        follows.cache.trans ram.symm, reads_update follows.reads worker reads⟩
    · have answers : Readers.Answers 1024 (.step worker outside) := by
        intro info answered
        obtain ⟨key, found⟩ := indexed info answered
        exact Mog.lengthType_le follows.opened found
      rw [← follows.cache] at accessed
      refine Or.inr ⟨.step worker outside, _, answers,
        Option.map_eq_some_iff.mpr ⟨_, accessed, rfl⟩, opened, served, rfl,
        reads_update follows.reads worker reads⟩
  | flush | fetch => exact Or.inl ⟨opened, served, follows.cache, follows.reads⟩

/-! ## Runs -/

/-- A `mog` that has been opened, at first or again: only `total_size` tells the two apart. -/
def reopened (leveldb : LevelDb Db) (config : MogConfig) (totalSize : Int)
    (value : Worker → ByteMemory) : Fleet Worker Db :=
  { start leveldb config value with
    mog := { (Mog.new leveldb).openDb leveldb config with totalSize } }

omit [DecidableEq Worker] in
/-- Every reset leads to such a `mog`. -/
theorem reopened_of_reset (mog : Mog Db) (value : Worker → ByteMemory) :
    (mog.closeDb hash leveldb).openDb leveldb config =
      (reopened leveldb config mog.totalSize value).mog := Mog.reset_eq mog

omit [DecidableEq Worker] in
/-- At the start the workers are readers that have made no call. -/
theorem reopened_follows (leveldb : LevelDb Db) (config : MogConfig) (totalSize : Int)
    (value : Worker → ByteMemory) :
    (reopened leveldb config totalSize value).Follows hash leveldb
      (Readers.start config.pageSize config.cpuPageNum CpuCache.new value) where
  opened := by
    have fresh : ((Mog.new leveldb).openDb leveldb config).Opened hash leveldb .idle :=
      Mog.openDb_opened (Mog.new_cleared leveldb) leveldb config rfl
    exact ⟨fresh.storage, fresh.short, fresh.flushed, fresh.ram, fresh.tier, fresh.synced⟩
  served := fun _ => trivial
  cache := rfl
  reads := fun _ => Caller.reads_of_outside rfl rfl

/-- Behind 64 MiB the buffer of a worker holds what it held at the start. -/
def Kept (value : Worker → ByteMemory) (worker : Worker) (caller : Caller) : Prop :=
  ∀ position, maxFileLength ≤ position → caller.value position = value worker position

variable [Fintype Worker]

/-- What holds in every run of the workers between two resets. -/
structure Contained (hash : String → UInt64) (leveldb : LevelDb Db)
    (value : Worker → ByteMemory) (fleet : Fleet Worker Db) : Prop where
  /-- The workers are readers of a RAM cache whose entries are bounded. -/
  follows : ∃ readers : Readers Worker, fleet.Follows hash leveldb readers ∧ readers.Grown 1024
  /-- What the calls have found fits the buffers. -/
  fits : ∀ worker, Mog.Fits (fleet.workers worker).pc
  /-- Behind 64 MiB the buffers are kept. -/
  behind : ∀ worker, Kept value worker (fleet.workers worker)

omit [DecidableEq Worker] in
/-- An entry of the RAM cache owns at most 1024 slabs for each worker. -/
theorem Contained.length_le {value : Worker → ByteMemory}
    (contained : fleet.Contained hash leveldb value) {key : String} {item : CPUCachedItem}
    (found : fleet.mog.ram.cachedItem.lookup key = some item) :
    item.slabs.length ≤ 1024 * Fintype.card Worker := by
  obtain ⟨readers, follows, grown⟩ := contained.follows
  rw [← follows.cache] at found
  exact grown.length_le found

omit [DecidableEq Worker] in
/-- An access of one of at most 64 workers writes to the first 64 MiB of the buffer only, whatever
the buffer holds. -/
theorem Contained.within {value : Worker → ByteMemory}
    (contained : fleet.Contained hash leveldb value) (few : Fintype.card Worker ≤ 64)
    {worker : Worker} {memory : ByteMemory} {mog : Mog Db} {after : Caller}
    (taken : fleet.mog.step hash leveldb config files
      { pc := (fleet.workers worker).pc, value := memory } = some (mog, after)) :
    Mog.Within { pc := (fleet.workers worker).pc, value := memory } after := by
  have entries : ∀ key item, fleet.mog.ram.cachedItem.lookup key = some item →
      1024 * item.slabs.length ≤ maxFileLength := by
    intro key item found
    have slabs := contained.length_le found
    have limit : maxFileLength = 1024 * (1024 * 64) := by decide
    omega
  obtain ⟨readers, follows, -⟩ := contained.follows
  exact Mog.step_within follows.opened (follows.served worker) (contained.fits worker) entries
    taken

/-- Every event keeps at most 64 workers inside their buffers. -/
theorem step_contained {value : Worker → ByteMemory} (few : Fintype.card Worker ≤ 64)
    (contained : fleet.Contained hash leveldb value)
    (stepped : (machine hash leveldb config files).step fleet event = some next) :
    next.Contained hash leveldb value := by
  have follows := (simulates hash leveldb config files).keeps (Readers.Grown 1024)
    (fun _ _ _ grown answers taken => Readers.step_grown grown answers taken) stepped
    contained.follows
  cases step_occurs stepped with
  | readFile worker path =>
    exact ⟨follows,
      Threads.forall_update (fun caller : Caller => Mog.Fits caller.pc) trivial contained.fits,
      Threads.each_update (Kept value) (contained.behind worker) contained.behind⟩
  | step worker mog caller taken =>
    have within := contained.within few taken
    have kept : Kept value worker caller := fun position behind =>
      (within.behind position behind).trans (contained.behind worker position behind)
    exact ⟨follows,
      Threads.forall_update (fun caller : Caller => Mog.Fits caller.pc) within.fits contained.fits,
      Threads.each_update (Kept value) kept contained.behind⟩
  | flush | fetch => exact ⟨follows, contained.fits, contained.behind⟩

/-- At most 64 workers stay inside their buffers in every run between two resets. -/
theorem run_contained {totalSize : Int} {value : Worker → ByteMemory}
    {events : List (Event Worker)} (few : Fintype.card Worker ≤ 64)
    (ran : (machine hash leveldb config files).run (reopened leveldb config totalSize value)
      events = some fleet) : fleet.Contained hash leveldb value := by
  apply Machine.run_invariant (Contained hash leveldb value) _ _ ran
  · intro state event after contained stepped
    exact step_contained few contained stepped
  · refine ⟨⟨_, reopened_follows leveldb config totalSize value, ?_⟩, fun _ => trivial,
      fun _ _ _ => rfl⟩
    exact Readers.start_grown 1024 config.pageSize config.cpuPageNum CpuCache.new value

/-- In every run of ten workers between two resets, an access of a call of `read_file` writes to the
first 64 MiB of the buffer of its worker only, whatever the buffer holds; so behind them the buffers
never change. A hit in the RAM cache copies at most 10 MiB. -/
theorem buffer_never_overrun {fleet : Fleet (Fin 10) Db} {totalSize : Int}
    {value : Fin 10 → ByteMemory} {events : List (Event (Fin 10))}
    (ran : (machine hash leveldb config files).run (reopened leveldb config totalSize value)
      events = some fleet) :
    (∀ worker memory mog after, fleet.mog.step hash leveldb config files
        { pc := (fleet.workers worker).pc, value := memory } = some (mog, after) →
      ∀ position, 64 * 2 ^ 20 ≤ position → after.value position = memory position) ∧
    (∀ worker position, 64 * 2 ^ 20 ≤ position →
      (fleet.workers worker).value position = value worker position) ∧
    ∀ key item, fleet.mog.ram.cachedItem.lookup key = some item →
      ∃ count, count ≤ 10 * 2 ^ 20 ∧ fleet.mog.ram.CopiesExactly item count := by
  have ten : Fintype.card (Fin 10) = 10 := Fintype.card_fin 10
  have contained := run_contained (ten.trans_le (by decide)) ran
  have length : maxFileLength = 64 * 2 ^ 20 := by decide
  refine ⟨?_, ?_, ?_⟩
  · intro worker memory mog after taken position behind
    have within := contained.within (ten.trans_le (by decide)) taken
    exact within.behind position (length.trans_le behind)
  · intro worker position behind
    exact contained.behind worker position (length.trans_le behind)
  · intro key item found
    have slabs := contained.length_le found
    rw [ten] at slabs
    exact ⟨1024 * item.slabs.length, by omega, fleet.mog.ram.copiesExactly item⟩

/-- Two workers that cache one file at once after a reset stay inside their buffers. -/
theorem buffer_never_overrun_bothAtOnce :
    ∃ fleet, (machine Mog.powerHash LevelDb.table MogConfig.oneBlock Mog.oneFile).run
        (reopened LevelDb.table MogConfig.oneBlock 2 fun _ _ => 0) bothAtOnce = some fleet ∧
      (fleet.workers 0).value.take 2 = [1, 2] ∧
      (∀ worker position, 64 * 2 ^ 20 ≤ position → (fleet.workers worker).value position = 0) := by
  have executed : ∃ fleet,
      (machine Mog.powerHash LevelDb.table MogConfig.oneBlock Mog.oneFile).run
        (reopened LevelDb.table MogConfig.oneBlock 2 fun _ _ => 0) bothAtOnce = some fleet ∧
      (fleet.workers 0).value.take 2 = [1, 2] := ⟨_, rfl, rfl⟩
  obtain ⟨fleet, ran, delivered⟩ := executed
  exact ⟨fleet, ran, delivered, (buffer_never_overrun ran).2.1⟩

end Fleet

end CudaDb
