import CudaDb.Verif.FleetProgress

/-!
# The memory of the write buffer

`WriteBuffer::write` tests `total_size` first and adds to it later, under its lock, so several
workers can pass the test before one of them writes. Each of them has passed it for one value, which
takes a slab of at most 1 MiB. So the slabs of the buffered values exceed the limit of the buffer by
at most 1 MiB for each worker, in every interleaving with the flushes.
-/

namespace CudaDb

/-- What a call may still add to the buffer without another test of `total_size`. -/
def MogPc.passed : MogPc → Nat
  | .buffer _ (.waitSsd _ _) | .buffer _ (.locked _ _) => maxValueLength
  | _ => 0

/-- A call adds at most 1 MiB. -/
theorem MogPc.passed_le (pc : MogPc) : pc.passed ≤ maxValueLength := by
  unfold passed
  split
  · exact le_rfl
  · exact le_rfl
  · exact Nat.zero_le _

/-- A call that has returned from `mog::read` has passed no test. -/
theorem Mog.passed_afterRead (reader : Reader) (key : String) (length : Nat) :
    (afterRead reader key length).passed = 0 := by
  unfold afterRead
  cases reader with
  | caller => rfl
  | file path =>
    dsimp only
    split <;> rfl

namespace WriteBuffer

variable {hash : String → UInt64} {buffer written : WriteBuffer}

/-- Under its lock `write` adds at most the largest slab to `total_size`. -/
theorem writeLocked_totalSize (coherent : buffer.Coherent hash buffer.flushThreadPool)
    {key : String} {value : List UInt8} {status : Int} (short : value.length ≤ slabSize 10)
    (taken : writeLocked hash key value buffer = some (status, written)) :
    written.totalSize ≤ buffer.totalSize + slabSize 10 := by
  rcases writeLocked_cases coherent short taken with
    ⟨-, -, rfl⟩ | ⟨absent, -, stored, inserted, -⟩
  · have positive : (0 : Int) ≤ slabSize 10 := Int.natCast_nonneg _
    omega
  · have slab : slabSize (slabType value.length) ≤ slabSize 10 :=
      slabSize_le (slabType_le_ten.mpr short)
    have own : slabOf { key, value, valueLengthType := slabType value.length } ≤ slabSize 10 :=
      Int.ofNat_le.mpr slab
    rw [stored.total, inserted, Table.total_insert_of_notMem _ _ absent, ← coherent.total]
    omega

end WriteBuffer

namespace Mog

variable {Db : Type*} {hash : String → UInt64} {leveldb : LevelDb Db} {config : MogConfig}
  {files : String → Option (List UInt8)} {mog next : Mog Db} {caller after : Caller}

/-- An access adds to the buffer what its call has passed the test for, or passes the test. -/
theorem step_passed (opened : mog.Opened hash leveldb .idle) (serving : caller.pc.Serving)
    (stepped : mog.step hash leveldb config files caller = some (next, after)) :
    next.storage.buffer.totalSize + after.pc.passed ≤
        mog.storage.buffer.totalSize + caller.pc.passed ∨
      next.storage.buffer.totalSize = mog.storage.buffer.totalSize ∧ mog.Below := by
  obtain ⟨pc, value⟩ := caller
  cases step_access stepped with
  | bufferHit reader key | itemCopied reader key | indexMissed reader key
  | itemInserted reader key =>
    left
    rw [passed_afterRead reader key]
    exact le_rfl
  | admitted path key bytes small =>
    have short : ¬ bytes.length > slabSize 10 := Nat.not_lt.mpr small
    have call : WriteBuffer.write key bytes = .waitTotal key bytes := if_neg short
    rw [call]
    exact Or.inl le_rfl
  | bufferReturned writer status =>
    cases writer with
    | insert path bytes => exact Or.inl le_rfl
    | _ => exact serving.elim
  | bufferStep writer inner later buffer taken =>
    cases writer with
    | insert path bytes =>
      obtain ⟨short, ⟨key, call⟩ | ⟨status, rfl⟩⟩ := serving
      · cases inner with
        | waitTotal own carried =>
          obtain ⟨below, same⟩ := Option.ite_none_left_eq_some.mp taken
          obtain ⟨-, rfl⟩ := Prod.mk.inj (Option.some.inj same)
          exact Or.inr ⟨rfl, not_lt.mp below⟩
        | waitSsd own carried =>
          obtain ⟨-, same⟩ := Option.ite_none_left_eq_some.mp taken
          obtain ⟨rfl, rfl⟩ := Prod.mk.inj (Option.some.inj same)
          exact Or.inl le_rfl
        | locked own carried =>
          obtain ⟨rfl, rfl⟩ := Prod.mk.inj (Option.some.inj call)
          obtain ⟨⟨status, written⟩, stored, returned⟩ := Option.map_eq_some_iff.mp taken
          obtain ⟨rfl, rfl⟩ := Prod.mk.inj returned
          have added := WriteBuffer.writeLocked_totalSize opened.storage.buffer short stored
          left
          change written.totalSize + 0 ≤ mog.storage.buffer.totalSize + (slabSize 10 : Nat)
          omega
        | _ => cases call
      · cases taken
    | _ => exact serving.elim
  | _ => exact Or.inl le_rfl

end Mog

namespace Fleet

variable {Worker : Type*} [DecidableEq Worker] [Fintype Worker] {Db : Type*}
  {hash : String → UInt64} {leveldb : LevelDb Db} {config : MogConfig}
  {files : String → Option (List UInt8)} {fleet next : Fleet Worker Db} {event : Event Worker}

/-- The limit of the buffer in bytes. -/
def bufferLimit (config : MogConfig) : Nat := 12 * config.bufferPageNum / 10 * config.pageSize

/-- What is buffered, with what the workers may add without another test, exceeds the limit by
1 MiB for each worker at most. -/
def Held (config : MogConfig) (fleet : Fleet Worker Db) : Prop :=
  fleet.mog.storage.buffer.totalSize +
      Threads.total (fun caller => caller.pc.passed) fleet.workers ≤
    (bufferLimit config + Fintype.card Worker * maxValueLength : Nat)

/-- A flush takes nothing into the buffer. -/
theorem runFlush_totalSize {storage written : Storage Db} {blockId : Nat}
    (ran : storage.runFlush hash leveldb blockId = some written) :
    written.buffer.totalSize ≤ storage.buffer.totalSize := by
  obtain ⟨-, rfl⟩ := Storage.runFlush_eq_some.mp ran
  rw [Storage.flush_buffer_eq]
  have freed : 0 ≤ ((storage.entriesOf blockId).map WriteBuffer.slabOf).sum := by
    apply List.sum_nonneg
    intro size member
    obtain ⟨info, -, rfl⟩ := List.mem_map.mp member
    exact Int.natCast_nonneg _
  change storage.buffer.totalSize - ((storage.entriesOf blockId).map WriteBuffer.slabOf).sum ≤
    storage.buffer.totalSize
  omega

/-- Every event keeps the buffer within its bound. -/
theorem step_held (lively : fleet.Lively hash leveldb config) (held : fleet.Held config)
    (stepped : (machine hash leveldb config files).step fleet event = some next) :
    next.Held config := by
  unfold Held at held ⊢
  cases step_occurs stepped with
  | readFile worker path rest =>
    have moved := Threads.total_update (fun caller : Caller => caller.pc.passed) fleet.workers
      worker { fleet.workers worker with pc := Mog.begin (.readFile path) }
    have called : (Mog.begin (.readFile path)).passed = 0 := rfl
    dsimp only at moved ⊢
    omega
  | step worker mog caller taken =>
    have moved := Threads.total_update (fun caller : Caller => caller.pc.passed) fleet.workers
      worker caller
    dsimp only at moved ⊢
    rcases Mog.step_passed lively.opened (lively.served worker) taken with added | ⟨same, below⟩
    · omega
    · have bounded := Threads.total_le (fun caller : Caller => caller.pc.passed)
        (fun other => (Function.update fleet.workers worker caller other).pc.passed_le)
      have limit : fleet.mog.storage.buffer.maxPageNum * fleet.mog.storage.buffer.pageSize =
          bufferLimit config := by
        rw [lively.roomy.sizes.maxPageNum, lively.roomy.sizes.pageSize]
        rfl
      have under : fleet.mog.storage.buffer.totalSize ≤
          (fleet.mog.storage.buffer.maxPageNum * fleet.mog.storage.buffer.pageSize : Nat) := by
        exact_mod_cast below
      rw [limit] at under
      omega
  | flush blockId storage ran =>
    have freed := runFlush_totalSize ran
    dsimp only
    omega
  | fetch => exact held

/-- In every run of the workers between two resets, the slabs of the buffered values take at most
the limit of the buffer and 1 MiB for each worker. -/
theorem buffer_memory_le {totalSize : Int} {value : Worker → ByteMemory}
    {events : List (Event Worker)} (page : 1 ≤ config.pagePerBlock)
    (ran : (machine hash leveldb config files).run (reopened leveldb config totalSize value)
      events = some fleet) :
    (fleet.mog.storage.buffer.kvStore.total fun _ => WriteBuffer.slabOf) ≤
      (12 * config.bufferPageNum / 10 * config.pageSize + Fintype.card Worker * 2 ^ 20 : Nat) := by
  have kept : fleet.Lively hash leveldb config ∧ fleet.Held config := by
    apply Machine.run_invariant (fun fleet : Fleet Worker Db =>
      fleet.Lively hash leveldb config ∧ fleet.Held config) _ _ ran
    · intro state event after holds stepped
      exact ⟨step_lively page holds.1 stepped, step_held holds.1 holds.2 stepped⟩
    · refine ⟨reopened_lively leveldb config totalSize value, ?_⟩
      have none_passed : Threads.total (fun caller : Caller => caller.pc.passed)
          (reopened leveldb config totalSize value).workers = 0 :=
        Threads.total_eq_zero fun _ => rfl
      unfold Held
      rw [none_passed]
      exact Int.natCast_nonneg _
  obtain ⟨lively, held⟩ := kept
  have coherent : fleet.mog.storage.buffer.Coherent hash
      fleet.mog.storage.buffer.flushThreadPool := lively.opened.storage.buffer
  rw [← coherent.total]
  have size : maxValueLength = 2 ^ 20 := by decide
  rw [← size]
  exact (Int.le_add_of_nonneg_right (Int.natCast_nonneg _)).trans held

/-- Two workers that cache one file at once stay within the bound. -/
theorem buffer_memory_le_bothAtOnce :
    ∃ fleet, (machine Mog.powerHash LevelDb.table MogConfig.oneBlock Mog.oneFile).run
        (reopened LevelDb.table MogConfig.oneBlock 2 fun _ _ => 0) bothAtOnce = some fleet ∧
      fleet.mog.storage.buffer.totalSize = 1024 ∧
      (fleet.mog.storage.buffer.kvStore.total fun _ => WriteBuffer.slabOf) ≤
        (12 * MogConfig.oneBlock.bufferPageNum / 10 * MogConfig.oneBlock.pageSize +
          Fintype.card (Fin 10) * 2 ^ 20 : Nat) := by
  have executed : ∃ fleet,
      (machine Mog.powerHash LevelDb.table MogConfig.oneBlock Mog.oneFile).run
        (reopened LevelDb.table MogConfig.oneBlock 2 fun _ _ => 0) bothAtOnce = some fleet ∧
      fleet.mog.storage.buffer.totalSize = 1024 := ⟨_, rfl, rfl⟩
  obtain ⟨fleet, ran, stored⟩ := executed
  exact ⟨fleet, ran, stored, buffer_memory_le (by decide) ran⟩

end Fleet

end CudaDb
