import CudaDb.Lib.Simulation
import CudaDb.Verif.BufferRepresentation
import CudaDb.Verif.FleetSsd

/-!
# The parts of the server

The server is put together from its parts: what its workers do to the write buffer is a run of calls
of `WriteBuffer::write` with the flushes in between, and what they do to the SSD cache is a run of
the SSD cache. So whatever holds in every run of a part holds of this part of the server.
-/

namespace CudaDb

/-! ## The write buffer -/

/-- The events other than a call of `WriteBuffer::sync`. -/
def Writers.Event.unsynced {Thread : Type*} : Event Thread → Bool
  | .sync _ => false
  | _ => true

/-- Where a call stands in the write buffer. -/
def MogPc.writePc : MogPc → Option WriteBuffer.Pc
  | .buffer _ inner => some inner
  | _ => none

/-- A call on a `mog` makes a call of the write buffer, while it is in one. -/
structure MogPc.Writes (pc : MogPc) (call : WriteBuffer.Pc) : Prop where
  /-- Inside the write buffer both stand at the same access. -/
  inside : ∀ inner, pc.writePc = some inner → call = inner
  /-- Elsewhere the call of the write buffer has returned. -/
  elsewhere : pc.writePc = none → ∃ status, call = .returned status

/-- A call outside the write buffer. -/
theorem MogPc.writes_of_outside {pc : MogPc} {call : WriteBuffer.Pc}
    (outside : pc.writePc = none) (returned : ∃ status, call = .returned status) :
    pc.Writes call where
  inside := by
    intro inner standing
    rw [outside] at standing
    cases standing
  elsewhere := fun _ => returned

/-- A call inside the write buffer. -/
theorem MogPc.writes_buffer (writer : Writer) (inner : WriteBuffer.Pc) :
    (MogPc.buffer writer inner).Writes inner where
  inside := fun _ same => Option.some.inj same
  elsewhere := fun outside => by cases outside

namespace Mog

variable {Db : Type*} {hash : String → UInt64} {leveldb : LevelDb Db} {config : MogConfig}
  {files : String → Option (List UInt8)} {mog next : Mog Db} {caller after : Caller}

/-- A call that has returned from `mog::read` is outside the write buffer. -/
theorem writePc_afterRead (reader : Reader) (key : String) (length : Nat) :
    (afterRead reader key length).writePc = none := by
  unfold afterRead
  cases reader with
  | caller => rfl
  | file path =>
    dsimp only
    split <;> rfl

/-- What an access of a `mog` is to its write buffer. -/
inductive Buffered (hash : String → UInt64) (mog next : Mog Db) (after : MogPc)
    (call : WriteBuffer.Pc) : Prop
  /-- It is no access of the write buffer. -/
  | stutters (storage : next.storage = mog.storage) (writes : after.Writes call)
  /-- It leads to a call of `WriteBuffer::write`. -/
  | called (storage : next.storage = mog.storage) (returned : ∃ status, call = .returned status)
    (key : String) (value : List UInt8) (writes : after.Writes (WriteBuffer.write key value))
  /-- It is a step of a call. -/
  | stepped (ssdFull : Bool) (later : WriteBuffer.Pc) (buffer : WriteBuffer)
    (taken : mog.storage.buffer.step hash ssdFull call = some (later, buffer))
    (storage : next.storage = { mog.storage with buffer }) (writes : after.Writes later)

/-- Every access of a `mog` is one of these to its write buffer. -/
theorem step_buffered {call : WriteBuffer.Pc} (writes : caller.pc.Writes call)
    (stepped : mog.step hash leveldb config files caller = some (next, after)) :
    Buffered hash mog next after.pc call := by
  obtain ⟨pc, value⟩ := caller
  cases step_access stepped with
  | bufferHit reader key | itemCopied reader key | indexMissed reader key
  | itemInserted reader key =>
    exact .stutters rfl
      (MogPc.writes_of_outside (writePc_afterRead reader key _) (writes.elsewhere rfl))
  | admitted path key bytes =>
    exact .called rfl (writes.elsewhere rfl) key bytes (MogPc.writes_buffer _ _)
  | bufferStep writer inner later buffer taken =>
    obtain rfl := writes.inside inner rfl
    exact .stepped _ later buffer taken rfl (MogPc.writes_buffer writer later)
  | bufferReturned writer status =>
    obtain rfl := writes.inside _ rfl
    have outside : (afterWrite writer status).writePc = none := by cases writer <;> rfl
    exact .stutters rfl (MogPc.writes_of_outside outside ⟨status, rfl⟩)
  | _ => exact .stutters rfl (MogPc.writes_of_outside rfl (writes.elsewhere rfl))

end Mog

namespace Fleet

variable {Worker : Type*} [DecidableEq Worker] {Db : Type*} {hash : String → UInt64}
  {leveldb : LevelDb Db} {config : MogConfig} {files : String → Option (List UInt8)}
  {fleet final : Fleet Worker Db}

/-- The workers of the server are callers of its write buffer. -/
structure Calls (fleet : Fleet Worker Db) (writers : Writers Worker Db) : Prop where
  /-- The write buffer, the index and the block files. -/
  storage : writers.storage = fleet.mog.storage
  /-- The workers make the calls. -/
  calls : ∀ worker, (fleet.workers worker).pc.Writes (writers.calls worker)

/-- A worker and a caller of the write buffer move together. -/
theorem writes_update {calls : Worker → WriteBuffer.Pc}
    (writes : ∀ worker, (fleet.workers worker).pc.Writes (calls worker)) (worker : Worker)
    {caller : Caller} {call : WriteBuffer.Pc} (moved : caller.pc.Writes call) (other : Worker) :
    (Function.update fleet.workers worker caller other).pc.Writes
      (Function.update calls worker call other) := by
  by_cases same : other = worker
  · rw [same, Function.update_self, Function.update_self]
    exact moved
  · rw [Function.update_of_ne same, Function.update_of_ne same]
    exact writes other

/-- What the workers do to the write buffer are calls of `write`, with the flushes in between. -/
theorem simulates_writers (hash : String → UInt64) (leveldb : LevelDb Db) (config : MogConfig)
    (files : String → Option (List UInt8)) :
    Machine.Simulates (machine hash leveldb config files) (Writers.machine hash leveldb)
      (@Calls Worker Db) (fun _ event => event.unsynced) := by
  intro fleet writers event next calls stepped
  cases step_occurs stepped with
  | readFile worker path rest =>
    have outside : (fleet.workers worker).pc.writePc = none := by
      generalize (fleet.workers worker).pc = pc at rest ⊢
      cases pc <;> first | rfl | cases rest
    have returned := (calls.calls worker).elsewhere outside
    exact Or.inl ⟨calls.storage,
      Threads.each_update (fun other (caller : Caller) => caller.pc.Writes (writers.calls other))
        (MogPc.writes_of_outside rfl returned) calls.calls⟩
  | step worker mog caller taken =>
    rcases Mog.step_buffered (calls.calls worker) taken with
      ⟨same, writes⟩ | ⟨same, returned, key, value, writes⟩ |
      ⟨ssdFull, later, buffer, accessed, same, writes⟩
    · exact Or.inl ⟨calls.storage.trans same.symm,
        Threads.each_update (fun other (caller : Caller) => caller.pc.Writes (writers.calls other))
          writes calls.calls⟩
    · obtain ⟨status, idle⟩ := returned
      refine Or.inr ⟨.write worker key value, { writers with
        calls := Function.update writers.calls worker (WriteBuffer.write key value) }, rfl, ?_,
        calls.storage.trans same.symm, writes_update calls.calls worker writes⟩
      simp only [Writers.machine, idle]
    · rw [← calls.storage] at accessed same
      exact Or.inr ⟨.step worker ssdFull, _, rfl,
        Option.map_eq_some_iff.mpr ⟨_, accessed, rfl⟩, same.symm,
        writes_update calls.calls worker writes⟩
  | flush blockId storage ran =>
    rw [← calls.storage] at ran
    exact Or.inr ⟨.flush blockId, { writers with storage }, rfl,
      Option.map_eq_some_iff.mpr ⟨storage, ran, rfl⟩, rfl, calls.calls⟩
  | fetch => exact Or.inl ⟨calls.storage, calls.calls⟩

/-! ## The parts together -/

/-- The contents of block files, empty for the blocks that have none. -/
def contentOf (hdd : Directory) (blockId : Nat) : List UInt8 := (hdd.lookup blockId).getD []

/-- Every run of the workers between two resets leaves the write buffer, the index and the block
files as a run of calls of `write` and of flushes does, with no call of `sync`, and the SSD cache as
a run of calls of `SSDCache::read` and of the steps of fetches does, over the block files that are
there in the end. -/
theorem run_projects {totalSize : Int} {value : Worker → ByteMemory} {events : List (Event Worker)}
    (page : 1 ≤ config.pagePerBlock)
    (ran : (machine hash leveldb config files).run (reopened leveldb config totalSize value)
      events = some fleet) :
    (∃ calls writers, (Writers.machine hash leveldb).run
        (Writers.start leveldb config.pageSize config.pagePerBlock config.bufferPageNum) calls =
          some writers ∧
      (∀ event ∈ calls, event.unsynced) ∧
      writers.storage = fleet.mog.storage ∧
      ∀ worker, (fleet.workers worker).pc.Writes (writers.calls worker)) ∧
    ∃ steps world, (SsdTier.machine (contentOf fleet.mog.storage.hdd)).run
        (SsdTier.start (config.ssdPageNum / config.pagePerBlock)) steps = some world ∧
      (∀ step ∈ steps, step.unplaced) ∧
      world.tier = fleet.mog.tier ∧ world.hdd = fleet.mog.storage.hdd := by
  constructor
  · have begun : (reopened leveldb config totalSize value).Calls
        (Writers.start leveldb config.pageSize config.pagePerBlock config.bufferPageNum) :=
      ⟨rfl, fun _ => MogPc.writes_of_outside rfl ⟨0, rfl⟩⟩
    obtain ⟨calls, writers, called, along, related⟩ :=
      (simulates_writers hash leveldb config files).runs begun ran
    exact ⟨calls, writers, called, Machine.forall_of_along along called, related.storage,
      related.calls⟩
  · have begun : (reopened leveldb config totalSize value).Tiered
        (SsdTier.start (config.ssdPageNum / config.pagePerBlock)) :=
      ⟨rfl, rfl, fun _ member => by cases member⟩
    have filed : Filed (contentOf fleet.mog.storage.hdd) fleet.mog.storage.hdd := by
      intro blockId file found
      rw [contentOf, found]
      rfl
    obtain ⟨steps, world, unplaced, stepped, related⟩ :=
      run_tiered page (reopened_lively leveldb config totalSize value) begun ran filed
    exact ⟨steps, world, stepped, unplaced, related.tier, related.hdd⟩

/-- Both parts of the server run along while two workers cache one file. -/
theorem run_projects_bothAtOnce :
    ∃ fleet, (machine Mog.powerHash LevelDb.table MogConfig.oneBlock Mog.oneFile).run
        (reopened LevelDb.table MogConfig.oneBlock 2 fun _ _ => 0) bothAtOnce = some fleet ∧
      ∃ (calls : List (Writers.Event (Fin 10))) (writers : Writers (Fin 10) _),
        (Writers.machine Mog.powerHash LevelDb.table).run
          (Writers.start LevelDb.table (1024 * 1024) 64 64) calls = some writers ∧
        (∀ event ∈ calls, event.unsynced) ∧
        writers.storage.buffer = fleet.mog.storage.buffer := by
  have executed : ∃ fleet,
      (machine Mog.powerHash LevelDb.table MogConfig.oneBlock Mog.oneFile).run
        (reopened LevelDb.table MogConfig.oneBlock 2 fun _ _ => 0) bothAtOnce = some fleet :=
    ⟨_, rfl⟩
  obtain ⟨fleet, ran⟩ := executed
  obtain ⟨⟨calls, writers, called, writes, storage, -⟩, -⟩ := run_projects (by decide) ran
  exact ⟨fleet, ran, calls, writers, called, writes, congrArg Storage.buffer storage⟩

end Fleet

end CudaDb
