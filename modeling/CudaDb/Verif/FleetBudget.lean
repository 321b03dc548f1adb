import CudaDb.Verif.FleetAccount
import CudaDb.Verif.MogFiles

/-!
# The budget of the HDD

The guard of `insert_file_with_copy` is tested before a write and charged after it, so several
workers can pass one test. With what they were admitted to write and have not charged yet,
`total_size` exceeds the guard by at most 1 MiB for each worker. The accepted values lie in the
buffer or in the block files, each once, so their lengths bound the size of both.
-/

namespace CudaDb

/-- The bytes of the buffered values and of the block files. -/
def Storage.stored {Db : Type*} (storage : Storage Db) : Nat :=
  storage.hdd.total (fun _ file => file.length) +
    storage.buffer.kvStore.total fun _ info => info.value.length

/-- A flush of a block that has no file yet stores the same bytes. -/
theorem Storage.flush_stored {Db : Type*} {hash : String → UInt64} (leveldb : LevelDb Db)
    {storage : Storage Db} {pending : List Nat} {blockId : Nat}
    (coherent : storage.buffer.Coherent hash pending) (fresh : blockId ∉ storage.hdd) :
    (storage.flush hash leveldb blockId).stored = storage.stored := by
  have erased := Table.total_eraseAll (fun _ info => info.value.length)
    (fun entry : KvInfo => hash entry.key) (fun _ => Storage.entry_stored coherent)
    (Storage.block_apart coherent blockId).1
  have written : ((storage.entriesOf blockId).flatMap KvInfo.value).length =
      ((storage.entriesOf blockId).map fun entry => entry.value.length).sum :=
    List.length_flatMap
  unfold Storage.stored
  rw [Storage.flush_hdd, Storage.flush_kvStore, Table.total_insert_of_notMem _ _ fresh, written,
    ← erased]
  omega

/-- A call of `read_file` has nothing pending but the pool. -/
theorem MogPc.Serving.pendingAt {pc : MogPc} (serving : pc.Serving) {Db : Type*} (mog : Mog Db) :
    mog.pendingAt pc = mog.storage.buffer.flushThreadPool := by
  cases pc with
  | buffer writer inner =>
    cases writer with
    | insert path bytes =>
      cases inner with
      | syncInner size =>
        obtain ⟨-, ⟨key, call⟩ | ⟨status, returned⟩⟩ := serving
        · cases call
        · cases returned
      | _ => rfl
    | _ => exact serving.elim
  | _ => rfl

/-- The value of a call of `read_file` in the write buffer is short. -/
theorem MogPc.Serving.short {pc : MogPc} (serving : pc.Serving) : pc.bufferPc.Short := by
  intro key value call
  cases pc with
  | buffer writer inner =>
    cases writer with
    | insert path bytes =>
      have standing : inner.call = some (key, value) := call
      obtain ⟨length, ⟨own, carried⟩ | ⟨status, rfl⟩⟩ := serving
      · obtain ⟨-, rfl⟩ := Prod.mk.inj (Option.some.inj (carried.symm.trans standing))
        exact length
      · cases standing
    | _ => exact serving.elim
  | _ => cases call

namespace Mog

variable {Db : Type*} {hash : String → UInt64} {leveldb : LevelDb Db} {config : MogConfig}
  {files : String → Option (List UInt8)} {mog next : Mog Db} {caller after : Caller}

/-- A flush thread moves bytes from the buffer to the disk and loses none. -/
theorem runFlush_stored {pc : MogPc} {storage : Storage Db} {blockId : Nat}
    (opened : mog.Opened hash leveldb pc)
    (ran : mog.storage.runFlush hash leveldb blockId = some storage) :
    storage.stored = mog.storage.stored := by
  obtain ⟨scheduled, rfl⟩ := Storage.runFlush_eq_some.mp ran
  have member := Storage.mem_pendingAt scheduled pc.bufferPc
  have fresh : blockId ∉ mog.storage.hdd := fun old => (opened.flushed blockId old).2 member
  have taken := opened.storage.withPool (mog.storage.buffer.flushThreadPool.erase blockId)
  exact Storage.flush_stored leveldb taken.buffer fresh

/-- An access of a read leaves the buffer and the files. -/
theorem step_reading_storage {asked : Reader × String} (reads : caller.pc.reading = some asked)
    (stepped : mog.step hash leveldb config files caller = some (next, after)) :
    next.storage = mog.storage := by
  obtain ⟨pc, value⟩ := caller
  cases step_access stepped with
  | bufferStep => cases reads
  | _ => rfl

/-- An access of a call that does not stand under the lock stores nothing. -/
theorem step_stored_of_unlocked (opened : mog.Opened hash leveldb caller.pc)
    (unlocked : caller.pc.locked = none)
    (stepped : mog.step hash leveldb config files caller = some (next, after)) :
    next.storage.stored = mog.storage.stored := by
  cases reads : caller.pc.reading with
  | some asked => rw [step_reading_storage reads stepped]
  | none =>
    have step := step_other (fun _ _ => True) reads stepped
    unfold Storage.stored
    rw [step.hdd]
    rcases step.buffer with same | ⟨writer, inner, later, ssdFull, standing, -, taken⟩
    · rw [same]
    · rw [standing] at opened unlocked
      rcases (WriteBuffer.step_kept opened.storage.buffer opened.short taken).2 with
        ⟨key, value, locked, -⟩ | ⟨unchanged, -⟩
      · have here : inner = .locked key value := locked
        rw [here] at unlocked
        cases unlocked
      · rw [unchanged]

/-- An access under the lock stores its value, unless the hash of the key is buffered. -/
theorem step_stored_of_locked (opened : mog.Opened hash leveldb caller.pc) {key : String}
    {value : List UInt8} (locked : caller.pc.locked = some (key, value))
    (stepped : mog.step hash leveldb config files caller = some (next, after)) :
    next.storage.stored = mog.storage.stored +
      if hash key ∈ mog.storage.buffer.kvStore then 0 else value.length := by
  obtain ⟨pc, held⟩ := caller
  cases pc with
  | buffer writer inner =>
    cases inner with
    | locked own bytes =>
      obtain ⟨rfl, rfl⟩ := Prod.mk.inj (Option.some.inj locked)
      obtain ⟨⟨later, buffer⟩, taken, same⟩ := Option.map_eq_some_iff.mp stepped
      obtain ⟨rfl, -⟩ := Prod.mk.inj same
      unfold Storage.stored
      rcases (WriteBuffer.step_kept opened.storage.buffer opened.short taken).2 with
        ⟨key, value, standing, -, absent, inserted⟩ | ⟨unchanged, refused⟩
      · obtain ⟨rfl, rfl⟩ := WriteBuffer.Pc.locked.inj standing
        rw [inserted, Table.total_insert_of_notMem _ _ absent, if_neg absent]
        dsimp only
        omega
      · rw [unchanged, if_pos (refused own bytes rfl).2.1]
        rfl
    | _ => cases locked
  | _ => cases locked

/-- A call of `read_file` that moves finds and leaves an open `mog`. -/
theorem step_serving_opened (opened : mog.Opened hash leveldb .idle) (serving : caller.pc.Serving)
    (stepped : mog.step hash leveldb config files caller = some (next, after)) :
    mog.Opened hash leveldb caller.pc ∧ next.Opened hash leveldb .idle := by
  have idle (mog : Mog Db) : mog.pendingAt .idle = mog.storage.buffer.flushThreadPool := rfl
  have here : mog.Opened hash leveldb caller.pc :=
    opened.move ((serving.pendingAt mog).trans (idle mog).symm) serving.short
  have later := (step_account serving stepped).serving
  have there := step_opened here stepped
  exact ⟨here, there.move ((idle next).trans (later.pendingAt next).symm) nofun⟩

end Mog

namespace Fleet

variable {Worker : Type*} [DecidableEq Worker] [Fintype Worker] {Db : Type*}
  {hash : String → UInt64} {leveldb : LevelDb Db} {config : MogConfig}
  {files : String → Option (List UInt8)} {fleet next : Fleet Worker Db} {event : Event Worker}
  {values : List (List UInt8)}

/-- What holds in every run of the workers. -/
structure Budgeted (hash : String → UInt64) (leveldb : LevelDb Db) (config : MogConfig)
    (fleet : Fleet Worker Db) (values : List (List UInt8)) : Prop where
  /-- The stores are coherent. -/
  opened : fleet.mog.Opened hash leveldb .idle
  /-- Every worker is at rest or in a call of `read_file`. -/
  served : fleet.Served
  /-- What was charged and what was admitted exceed the guard by 1 MiB for each worker at most. -/
  spent : 100 * (fleet.mog.totalSize +
      Threads.total (fun caller => caller.pc.admitted) fleet.workers) ≤
    95 * 1024 * 1024 * config.hddPageNum + 100 * (Fintype.card Worker * maxValueLength : Nat)
  /-- What was accepted was charged or is owed. -/
  accepted : 0 ≤ fleet.excess values
  /-- What was accepted is stored. -/
  stored : fleet.mog.storage.stored = lengths values

/-- A step of a worker keeps the budget. -/
theorem step_spent {mog : Mog Db} {worker : Worker} {caller : Caller}
    (budgeted : fleet.Budgeted hash leveldb config values)
    (taken : fleet.mog.step hash leveldb config files (fleet.workers worker) = some (mog, caller)) :
    100 * (mog.totalSize + Threads.total (fun caller => caller.pc.admitted)
      (Function.update fleet.workers worker caller)) ≤
    95 * 1024 * 1024 * config.hddPageNum +
      100 * (Fintype.card Worker * maxValueLength : Nat) := by
  have step := Mog.step_account (budgeted.served worker) taken
  have total := Mog.step_totalSize taken
  have moved := Threads.total_update (fun caller => caller.pc.admitted) fleet.workers worker caller
  have spent := budgeted.spent
  rcases step.admitted with goes_on | ⟨before, uncharged, guard⟩
  · omega
  · have bounded : Threads.total (fun caller => caller.pc.admitted)
        (Function.update fleet.workers worker caller) ≤ Fintype.card Worker * maxValueLength := by
      apply Threads.total_le
      exact Threads.forall_update (fun caller : Caller => caller.pc.admitted ≤ maxValueLength)
        step.serving.admitted_le fun other => (budgeted.served other).admitted_le
    omega

omit [Fintype Worker] in
/-- Every event keeps the stores of the workers coherent. -/
theorem step_opened (opened : fleet.mog.Opened hash leveldb .idle) (served : fleet.Served)
    (stepped : (machine hash leveldb config files).step fleet event = some next) :
    next.mog.Opened hash leveldb .idle := by
  cases step_occurs stepped with
  | readFile => exact opened
  | step worker mog caller taken => exact (Mog.step_serving_opened opened (served worker) taken).2
  | flush blockId storage ran => exact Mog.runFlush_opened opened ran
  | fetch blockId => exact Mog.fetch_opened opened blockId _

/-- Every event keeps the budget. -/
theorem step_budgeted (budgeted : fleet.Budgeted hash leveldb config values)
    (stepped : (machine hash leveldb config files).step fleet event = some next) :
    next.Budgeted hash leveldb config (noteAccepted hash values fleet event) := by
  have opened := step_opened budgeted.opened budgeted.served stepped
  have served := step_served budgeted.served stepped
  have accepted := budgeted.accepted.trans (step_excess values budgeted.served stepped).1
  cases step_occurs stepped with
  | readFile worker path rest =>
    refine ⟨opened, served, ?_, accepted, budgeted.stored⟩
    have moved := Threads.total_update (fun caller => caller.pc.admitted) fleet.workers worker
      { fleet.workers worker with pc := Mog.begin (.readFile path) }
    have before : (fleet.workers worker).pc.admitted = 0 := (Mog.admitted_of_atRest rest).1
    have called : (Mog.begin (.readFile path)).admitted = 0 := rfl
    have spent := budgeted.spent
    dsimp only at moved ⊢
    omega
  | step worker mog caller taken =>
    obtain ⟨here, -⟩ := Mog.step_serving_opened budgeted.opened (budgeted.served worker) taken
    refine ⟨opened, served, step_spent budgeted taken, accepted, ?_⟩
    rw [lengths_noteAccepted, ← budgeted.stored]
    cases locked : (fleet.workers worker).pc.locked with
    | none =>
      rw [accepted_of_unlocked locked]
      exact (Mog.step_stored_of_unlocked here locked taken).trans (Nat.zero_add _).symm
    | some write =>
      have stored := Mog.step_stored_of_locked here locked taken
      rw [accepted_of_locked locked stepped]
      dsimp only
      rw [stored, Nat.add_comm]
      by_cases present : hash write.1 ∈ fleet.mog.storage.buffer.kvStore
      · rw [if_pos present, if_pos present]
        rfl
      · rw [if_neg present, if_neg present]
        rfl
  | flush blockId storage ran =>
    exact ⟨opened, served, budgeted.spent, accepted,
      (Mog.runFlush_stored budgeted.opened ran).trans budgeted.stored⟩
  | fetch => exact ⟨opened, served, budgeted.spent, accepted, budgeted.stored⟩

omit [DecidableEq Worker] in
/-- The workers start within the budget. -/
theorem start_budgeted (leveldb : LevelDb Db) (config : MogConfig) (value : Worker → ByteMemory) :
    (start leveldb config value).Budgeted hash leveldb config [] := by
  refine ⟨Mog.openDb_opened (Mog.new_cleared leveldb) leveldb config rfl, fun _ => trivial, ?_,
    (start_excess leveldb config value).ge, rfl⟩
  have nothing : Threads.total (fun caller : Caller => caller.pc.admitted)
      (start leveldb config value).workers = 0 := Threads.total_eq_zero fun _ => rfl
  have fresh : (start leveldb config value).mog.totalSize = 0 := rfl
  rw [nothing, fresh]
  omega

/-- In every run of the workers with the tasks in between they keep the budget. -/
theorem run_budgeted {value : Worker → ByteMemory} {events : List (Event Worker)}
    (ran : ((machine hash leveldb config files).observed (noteAccepted hash)).run
      (start leveldb config value, []) events = some (fleet, values)) :
    fleet.Budgeted hash leveldb config values := by
  refine Machine.run_invariant (fun state : Fleet Worker Db × List (List UInt8) =>
    state.1.Budgeted hash leveldb config state.2) ?_ (start_budgeted leveldb config value) ran
  rintro ⟨state, before⟩ event ⟨after, noted⟩ budgeted stepped
  obtain ⟨taken, rfl⟩ := Machine.observed_step.mp stepped
  exact step_budgeted budgeted taken

/-- In every run of ten workers that call `read_file`, with the flush and fetch tasks in between,
the sum of the accepted lengths is at most 0.95 `HDD_page_num` MiB and 10 MiB, it is the size of the
block files and of the buffered values, and it stays below `HDD_page_num` MiB from 1024 pages on. -/
theorem accepted_within_budget {fleet : Fleet (Fin 10) Db} {value : Fin 10 → ByteMemory}
    {events : List (Event (Fin 10))}
    (ran : ((machine hash leveldb config files).observed (noteAccepted hash)).run
      (start leveldb config value, []) events = some (fleet, values)) :
    (lengths values : ℚ) ≤ 95 / 100 * (config.hddPageNum * 2 ^ 20) + 10 * 2 ^ 20 ∧
    fleet.mog.storage.stored = lengths values ∧
    (1024 ≤ config.hddPageNum → lengths values < config.hddPageNum * 2 ^ 20) := by
  have budgeted := run_budgeted ran
  have spent := budgeted.spent
  have accepted := budgeted.accepted
  have owed : Threads.total (fun caller : Caller => caller.pc.owed) fleet.workers ≤
      Threads.total (fun caller : Caller => caller.pc.admitted) fleet.workers :=
    Threads.total_mono fun worker => MogPc.owed_le_admitted _
  have workers : Fintype.card (Fin 10) * maxValueLength = 10 * 2 ^ 20 := by
    rw [Fintype.card_fin]
    rfl
  rw [workers] at spent
  unfold excess at accepted
  have bound : 100 * lengths values ≤ 95 * (config.hddPageNum * 2 ^ 20) + 100 * (10 * 2 ^ 20) := by
    omega
  refine ⟨?_, budgeted.stored, fun enough => by omega⟩
  have cast : (100 * lengths values : ℚ) ≤
      95 * (config.hddPageNum * 2 ^ 20) + 100 * (10 * 2 ^ 20) := by
    exact_mod_cast bound
  linarith

/-- Two workers that cache one file at once stay within the budget of 64 MiB and 10 MiB. -/
theorem accepted_within_budget_bothAtOnce :
    ∃ fleet values, ((machine Mog.powerHash LevelDb.table MogConfig.oneBlock Mog.oneFile).observed
        (noteAccepted Mog.powerHash)).run
        (start LevelDb.table MogConfig.oneBlock fun _ _ => 0, []) bothAtOnce =
          some (fleet, values) ∧ values = [[1, 2]] ∧
      (lengths values : ℚ) ≤ 95 / 100 * (64 * 2 ^ 20) + 10 * 2 ^ 20 ∧
      fleet.mog.storage.stored = lengths values := by
  have executed : ∃ fleet values,
      ((machine Mog.powerHash LevelDb.table MogConfig.oneBlock Mog.oneFile).observed
        (noteAccepted Mog.powerHash)).run
        (start LevelDb.table MogConfig.oneBlock fun _ _ => 0, []) bothAtOnce =
          some (fleet, values) ∧ values = [[1, 2]] := ⟨_, _, rfl, rfl⟩
  obtain ⟨fleet, values, ran, accepted⟩ := executed
  obtain ⟨within, stored, -⟩ := accepted_within_budget ran
  exact ⟨fleet, values, ran, accepted, within, stored⟩

end Fleet

end CudaDb
