import CudaDb.Verif.MogTransparent

/-!
# What a reset forgets

`mog::close` and `mog::open` bring every store back to where the first `mog::open` left it: what
`close` does not clear, `open` initialises. The one field that neither of them touches is
`total_size`, which only grows. So a reset leads to the state of a first open exactly when no file
was charged since the `mog` was constructed.
-/

namespace CudaDb

/-- The bytes that the next access adds to `total_size`. -/
def MogPc.charged : MogPc → Nat
  | .addTotal _ bytes => bytes.length
  | _ => 0

namespace Mog

variable {Db : Type*} {hash : String → UInt64} {leveldb : LevelDb Db} {config : MogConfig}
  {files : String → Option (List UInt8)} {mog next : Mog Db} {caller after : Caller}

/-- Opening a cleared `mog` is opening a new one, but for `total_size`. -/
theorem openDb_cleared (cleared : mog.Cleared) (queue : mog.ram.cachedItemQueue = [])
    (caching : mog.tier.cache.cachingBlock = ∅) (record : mog.tier.cache.readRecord = []) :
    mog.openDb leveldb config =
      { (new leveldb).openDb leveldb config with totalSize := mog.totalSize } := by
  obtain ⟨ready, totalSize, ⟨buffer, db, hdd⟩, ram, ⟨cache, ssd⟩⟩ := mog
  obtain ⟨pageSize, pagePerBlock, maxPageNum, latest, kvList, kvStore, blocks, without, total,
    pool⟩ := buffer
  obtain ⟨slabNum, ⟨free, freeNum, slabs⟩, items, itemQueue⟩ := ram
  obtain ⟨maxNum, num, unsynced, cachedId, cached, cachingBlock, readRecord, readNum, tasks⟩ :=
    cache
  obtain ⟨-, rfl, rfl, rfl, -, rfl, rfl, rfl, rfl, rfl, rfl⟩ := cleared
  dsimp only at queue caching record
  rw [queue, caching, record]
  rfl

/-- A reset leads to the state of a first open, but for `total_size`. -/
theorem reset_eq (mog : Mog Db) : (mog.closeDb hash leveldb).openDb leveldb config =
    { (new leveldb).openDb leveldb config with totalSize := mog.totalSize } :=
  openDb_cleared (closeDb_cleared hash leveldb mog) rfl rfl rfl

/-- An access adds to `total_size` what it charges. -/
theorem step_totalSize (stepped : mog.step hash leveldb config files caller = some (next, after)) :
    next.totalSize = mog.totalSize + caller.pc.charged := by
  obtain ⟨pc, value⟩ := caller
  cases step_access stepped with
  | charged path buffer => rfl
  | _ => exact (Int.add_zero _).symm

/-- The bytes that the event adds to `total_size`. -/
def charged (session : Session Db) : Event → Nat
  | .step => session.caller.pc.charged
  | _ => 0

/-- The event adds nothing to `total_size`. -/
def Uncharged (session : Session Db) (event : Event) : Prop := charged session event = 0

/-- Whether an event charges anything can be computed. -/
instance decidableUncharged (session : Session Db) (event : Event) :
    Decidable (Uncharged session event) := inferInstanceAs (Decidable (_ = _))

/-- Only a charge changes `total_size`: no reset, call or task does. -/
theorem event_totalSize {session next : Session Db} {event : Event}
    (stepped : (machine hash leveldb config).step session event = some next) :
    next.mog.totalSize = session.mog.totalSize + charged session event := by
  cases step_occurs stepped with
  | step mog caller taken => exact step_totalSize taken
  | _ => exact (Int.add_zero _).symm

/-- A reset leads to the state of the first open of a new `mog`, and every later run from there
goes as on a new one. -/
structure Forgets (hash : String → UInt64) (leveldb : LevelDb Db) (config : MogConfig)
    (mog : Mog Db) : Prop where
  /-- The state is that of a first open. -/
  state : (mog.closeDb hash leveldb).openDb leveldb config = (new leveldb).openDb leveldb config
  /-- Every later run of a caller ends as on a new `mog`. -/
  later : ∀ (files : String → Option (List UInt8)) (value : ByteMemory) (events : List Event),
    (machine hash leveldb config).run
        { startOpen leveldb config files value with
          mog := (mog.closeDb hash leveldb).openDb leveldb config } events =
      (machine hash leveldb config).run (startOpen leveldb config files value) events

/-- A reset forgets everything exactly when nothing is charged. -/
theorem forgets_iff_totalSize : mog.Forgets hash leveldb config ↔ mog.totalSize = 0 := by
  constructor
  · intro forgets
    have same := congrArg Mog.totalSize forgets.state
    rw [reset_eq] at same
    exact same
  · intro nothing
    have state : (mog.closeDb hash leveldb).openDb leveldb config =
        (new leveldb).openDb leveldb config := by
      rw [reset_eq, nothing]
      rfl
    refine ⟨state, fun files value events => ?_⟩
    rw [state]
    rfl

/-- In every run from the first open, whatever calls, tasks and resets it has, a reset in the state
reached forgets everything exactly when no access of the run charged a nonempty file. -/
theorem forgets_iff_uncharged {files : String → Option (List UInt8)} {value : ByteMemory}
    {events : List Event} {session : Session Db}
    (ran : (machine hash leveldb config).run (startOpen leveldb config files value) events =
      some session) :
    session.mog.Forgets hash leveldb config ↔
      (machine hash leveldb config).Along Uncharged (startOpen leveldb config files value)
        events := by
  have exact_along := Machine.along_iff_measure_eq (fun session : Session Db =>
    session.mog.totalSize) (fun _ => True) Uncharged ?_ ?_ ?_ trivial ran
  · rw [forgets_iff_totalSize, exact_along]
    rfl
  · exact fun _ _ _ _ _ => trivial
  · intro session event next _ stepped
    rw [event_totalSize stepped]
    omega
  · intro session event next _ stepped
    rw [event_totalSize stepped, Uncharged]
    omega

/-- A value is written. -/
def writeOne : List Event := .call (.write "bb" [1, 2]) :: List.replicate 4 .step

/-- A reset after a write leaves nothing of it. -/
theorem forgets_after_write :
    ∃ session, (machine powerHash LevelDb.table MogConfig.oneBlock).run
        (startOpen LevelDb.table MogConfig.oneBlock oneFile fun _ => 0) writeOne = some session ∧
      session.caller.pc = .done (.write "bb" [1, 2]) 0 ∧
      session.mog.storage.buffer.kvList = [powerHash "bb"] ∧
      session.mog.Forgets powerHash LevelDb.table MogConfig.oneBlock := by
  have executed : ∃ session, (machine powerHash LevelDb.table MogConfig.oneBlock).run
        (startOpen LevelDb.table MogConfig.oneBlock oneFile fun _ => 0) writeOne = some session ∧
      session.caller.pc = .done (.write "bb" [1, 2]) 0 ∧
      session.mog.storage.buffer.kvList = [powerHash "bb"] := ⟨_, rfl, rfl, rfl⟩
  obtain ⟨session, ran, returned, queued⟩ := executed
  have uncharged : (machine powerHash LevelDb.table MogConfig.oneBlock).Along Uncharged
      (startOpen LevelDb.table MogConfig.oneBlock oneFile fun _ => 0) writeOne := by
    decide +kernel
  exact ⟨session, ran, returned, queued, (forgets_iff_uncharged ran).mpr uncharged⟩

/-- A file is read, and thereby cached. -/
def readOne : List Event := .call (.readFile "a") :: List.replicate 11 .step

/-- A reset after a file was cached leaves its length in `total_size`, with no call or task
running. -/
theorem not_forgets_of_cached_file :
    ∃ session, (machine powerHash LevelDb.table MogConfig.oneBlock).run
        (startOpen LevelDb.table MogConfig.oneBlock oneFile fun _ => 0) readOne = some session ∧
      session.caller.pc = .done (.readFile "a") 2 ∧
      session.mog.storage.buffer.flushThreadPool = [] ∧
      session.mog.tier.cache.threadPool = [] ∧
      ((session.mog.closeDb powerHash LevelDb.table).openDb LevelDb.table
        MogConfig.oneBlock).totalSize = 2 ∧
      ¬ session.mog.Forgets powerHash LevelDb.table MogConfig.oneBlock := by
  have executed : ∃ session, (machine powerHash LevelDb.table MogConfig.oneBlock).run
        (startOpen LevelDb.table MogConfig.oneBlock oneFile fun _ => 0) readOne = some session ∧
      session.caller.pc = .done (.readFile "a") 2 ∧
      session.mog.storage.buffer.flushThreadPool = [] ∧
      session.mog.tier.cache.threadPool = [] ∧ session.mog.totalSize = 2 :=
    ⟨_, rfl, rfl, rfl, rfl, rfl⟩
  obtain ⟨session, ran, returned, flushed, fetched, charged⟩ := executed
  refine ⟨session, ran, returned, flushed, fetched, ?_, fun forgets => ?_⟩
  · rw [reset_eq]
    exact charged
  · have nothing := forgets_iff_totalSize.mp forgets
    omega

end Mog

end CudaDb
