import CudaDb.Verif.MogTransparent
import CudaDb.Verif.SsdTransparent

/-!
# Any calls on a mog

Along every run of calls of any kind, with the tasks in between and resets between the calls, an
open `mog` is coherent, its RAM cache holds a value for each entry, the files on the SSD are files
of the HDD, and the scheduled tasks of the SSD cache are fetches of marked blocks that have not
started. While the stores are closed, only `read_file` is called, as the server does.
-/

namespace CudaDb.Mog

variable {Db : Type*} {hash : String → UInt64} {leveldb : LevelDb Db} {config : MogConfig}
  {files : String → Option (List UInt8)} {mog next : Mog Db} {caller after : Caller}
  {session later : Session Db} {event : Event}

/-- What the tasks of the SSD cache rely on, while fetches have nothing between their steps. -/
structure Fetching (mog : Mog Db) : Prop where
  /-- The files on the SSD are files of the HDD. -/
  mirrored : SsdTier.Extends mog.tier.ssd mog.storage.hdd
  /-- The tasks are fetches from their start. -/
  tasks : ∀ task ∈ mog.tier.cache.threadPool, ∃ blockId, task = .fetchTest blockId
  /-- A block has at most one fetch. -/
  distinct : (mog.tier.cache.threadPool.filterMap SsdTask.fetches).Nodup
  /-- A fetch is for a block marked as being cached. -/
  marked : ∀ blockId ∈ mog.tier.cache.threadPool.filterMap SsdTask.fetches,
    blockId ∈ mog.tier.cache.cachingBlock

/-- What holds of an open `mog` in every run. -/
structure Running (hash : String → UInt64) (leveldb : LevelDb Db) (mog : Mog Db) (caller : Caller) :
    Prop where
  /-- The stores are coherent. -/
  opened : mog.Opened hash leveldb caller.pc
  /-- The RAM cache holds a value for each entry. -/
  ram : mog.ram.Holds fun _ _ => True
  /-- A read knows what it must. -/
  reading : Reading hash (fun _ _ => True) mog caller.value caller.pc
  /-- The tasks have what they rely on. -/
  fetching : mog.Fetching

/-- What holds in every run. -/
structure Session.Steady (hash : String → UInt64) (leveldb : LevelDb Db) (session : Session Db) :
    Prop where
  /-- An open `mog` is running. -/
  running : session.opened = true → Running hash leveldb session.mog session.caller
  /-- A closed `mog` is empty, and no call is in its stores. -/
  cleared : session.opened = false → session.mog.Cleared ∧ session.caller.pc.outside = true

/-- While the stores are closed, only `read_file` is called. -/
def Event.Served (session : Session Db) : Event → Prop
  | .call (.read _) | .call (.write _ _) | .call .sync => session.opened = true
  | _ => True

instance (session : Session Db) : DecidablePred (Event.Served session)
  | .call (.read _) | .call (.write _ _) | .call .sync =>
    inferInstanceAs (Decidable (session.opened = true))
  | .call (.readFile _) | .step | .flush _ | .fetch _ | .setReady _ | .closeDb | .openDb
  | .changeFiles _ => inferInstanceAs (Decidable True)

/-! ## The tasks -/

/-- Counting a read keeps what the tasks rely on. -/
theorem Fetching.noteRead (fetching : mog.Fetching) (blockId : Nat) :
    Fetching { mog with tier := { mog.tier with cache := mog.tier.cache.noteRead blockId } } := by
  obtain ⟨readRecord, readNum, counted | ⟨fetched, unmarked, scheduled⟩⟩ :=
    SSDCache.noteRead_cases mog.tier.cache blockId
  · rw [counted]
    exact ⟨fetching.mirrored, fetching.tasks, fetching.distinct, fetching.marked⟩
  · have blocks : (mog.tier.cache.threadPool ++ [SsdTask.fetchTest fetched]).filterMap
        SsdTask.fetches = mog.tier.cache.threadPool.filterMap SsdTask.fetches ++ [fetched] := by
      rw [List.filterMap_append]
      rfl
    have unlisted : fetched ∉ mog.tier.cache.threadPool.filterMap SsdTask.fetches :=
      fun listed => unmarked (fetching.marked fetched listed)
    rw [scheduled]
    constructor
    case mirrored => exact fetching.mirrored
    case tasks =>
      intro task member
      rcases List.mem_append.mp member with old | new
      · exact fetching.tasks task old
      · exact ⟨fetched, List.mem_singleton.mp new⟩
    case distinct =>
      dsimp only
      rw [blocks, ← List.concat_eq_append, List.nodup_concat]
      exact ⟨unlisted, fetching.distinct⟩
    case marked =>
      intro other member
      dsimp only at member
      rw [blocks, List.mem_append, List.mem_singleton] at member
      rcases member with old | new
      · exact Finmap.mem_insert.mpr (Or.inr (fetching.marked other old))
      · exact Finmap.mem_insert.mpr (Or.inl new)

/-- A fetch with nothing between its steps keeps what the tasks rely on. -/
theorem Fetching.fetch {pc : MogPc} (fetching : mog.Fetching)
    (opened : mog.Opened hash leveldb pc) {blockId : Nat}
    (scheduled : .fetchTest blockId ∈ mog.tier.cache.threadPool) :
    Fetching { mog with tier := { Mog.fetch blockId mog.tier mog.storage.hdd with
      cache := { (Mog.fetch blockId mog.tier mog.storage.hdd).cache with
        threadPool := (Mog.fetch blockId mog.tier mog.storage.hdd).cache.threadPool.erase
          (.fetchTest blockId) } } } := by
  have rest : ((mog.tier.cache.threadPool.erase (.fetchTest blockId)).filterMap
      SsdTask.fetches).Nodup ∧
      ∀ other ∈ (mog.tier.cache.threadPool.erase (.fetchTest blockId)).filterMap SsdTask.fetches,
        other ∈ mog.tier.cache.threadPool.filterMap SsdTask.fetches := by
    have ended := SsdTier.pool_step none scheduled nofun fetching.distinct
    rw [Option.toList_none, List.append_nil] at ended
    exact ended
  have tasks : ∀ task ∈ mog.tier.cache.threadPool.erase (.fetchTest blockId),
      ∃ blockId, task = .fetchTest blockId :=
    fun task member => fetching.tasks task (List.mem_of_mem_erase member)
  rcases fetch_cases opened.tier opened.synced blockId with
    same | ⟨file, evicted, absent, found, registered, fetched⟩
  · rw [same]
    exact ⟨fetching.mirrored, tasks, rest.1, fun other member =>
      fetching.marked other (rest.2 other member)⟩
  · rw [fetched]
    have pool : evicted.cache.threadPool = mog.tier.cache.threadPool := registered.threadPool
    have caching : evicted.cache.cachingBlock = mog.tier.cache.cachingBlock := registered.caching
    constructor
    case mirrored =>
      exact registered.files_extend (fetching.mirrored.copied found)
    case tasks =>
      dsimp only
      rw [pool]
      exact tasks
    case distinct =>
      dsimp only
      rw [pool]
      exact rest.1
    case marked =>
      dsimp only
      rw [pool, caching]
      intro other member
      have apart : other ≠ blockId := by
        rintro rfl
        exact SsdTier.pool_apart SsdTask.fetches scheduled rfl fetching.distinct member
      exact Finmap.mem_erase.mpr ⟨apart, fetching.marked other (rest.2 other member)⟩

/-- A flush keeps what the tasks rely on. -/
theorem Fetching.flush {pc : MogPc} {storage : Storage Db} {blockId : Nat}
    (fetching : mog.Fetching) (opened : mog.Opened hash leveldb pc)
    (ran : mog.storage.runFlush hash leveldb blockId = some storage) :
    Fetching { mog with storage } where
  mirrored := fun other file found =>
    runFlush_extends opened ran other file (fetching.mirrored other file found)
  tasks := fetching.tasks
  distinct := fetching.distinct
  marked := fetching.marked

/-! ## The accesses -/

/-- An access leaves the SSD cache alone or counts a read. -/
theorem step_tier (stepped : mog.step hash leveldb config files caller = some (next, after)) :
    next.tier = mog.tier ∨ ∃ blockId,
      next.tier = { mog.tier with cache := mog.tier.cache.noteRead blockId } := by
  obtain ⟨pc, value⟩ := caller
  cases step_access stepped with
  | ssdRead reader key info tier length read served =>
    obtain ⟨file, -, noted⟩ := Option.map_eq_some_iff.mp served
    obtain ⟨rfl, -⟩ := Prod.mk.inj noted
    exact Or.inr ⟨info.blockId, rfl⟩
  | _ => exact Or.inl rfl

/-- An access keeps an open `mog` running. -/
theorem step_running (running : Running hash leveldb mog caller)
    (stepped : mog.step hash leveldb config files caller = some (next, after)) :
    Running hash leveldb next after := by
  have opened := step_opened running.opened stepped
  have fetching (hdd : next.storage.hdd = mog.storage.hdd) : next.Fetching := by
    rcases step_tier stepped with same | ⟨blockId, noted⟩
    · exact ⟨by rw [same, hdd]; exact running.fetching.mirrored,
        by rw [same]; exact running.fetching.tasks,
        by rw [same]; exact running.fetching.distinct,
        by rw [same]; exact running.fetching.marked⟩
    · have counted := running.fetching.noteRead blockId
      exact ⟨by rw [noted, hdd]; exact counted.mirrored, by rw [noted]; exact counted.tasks,
        by rw [noted]; exact counted.distinct, by rw [noted]; exact counted.marked⟩
  cases reads : caller.pc.reading with
  | none =>
    have step := step_other (fun _ _ => True) reads stepped
    exact ⟨opened, by rw [step.ram]; exact running.ram, step.reading, fetching step.hdd⟩
  | some asked =>
    obtain ⟨reader, key⟩ := asked
    have disk : mog.DiskHolds hash leveldb (fun _ _ => True) key := by
      intro info _ found
      obtain ⟨-, -, -, bytes, slice⟩ := running.opened.storage.indexed key info found
      exact ⟨bytes, trivial, slice⟩
    have step := step_reading running.opened running.ram disk running.reading reads stepped
    refine ⟨opened, step.ram, ?_, fetching (congrArg Storage.hdd step.storage)⟩
    rcases step.outcome with ⟨-, knows⟩ | ⟨value, -, returned, -⟩
    · exact knows
    · rw [returned]
      exact reading_afterRead _ _ _

/-! ## Whole runs -/

/-- Opening a cleared `mog`. -/
theorem openDb_running (cleared : mog.Cleared) (outside : caller.pc.outside = true)
    (leveldb : LevelDb Db) (config : MogConfig) :
    Running hash leveldb (mog.openDb leveldb config) caller where
  opened := openDb_opened cleared leveldb config outside
  ram := (openDb_caches cleared leveldb config).ram
  reading := reading_of_outside outside _
  fetching :=
    { mirrored := fun _ _ found => (by cases found)
      tasks := fun _ member => (by cases member)
      distinct := List.nodup_nil
      marked := fun _ member => (by cases member) }

/-- Every event keeps the session steady. -/
theorem step_steady (steady : session.Steady hash leveldb) (served : event.Served session)
    (stepped : (machine hash leveldb config).step session event = some later) :
    later.Steady hash leveldb := by
  cases step_occurs stepped with
  | call call rest =>
    constructor
    · intro opened
      have running := steady.running opened
      exact ⟨begin_opened call running.opened rest, running.ram, (by cases call <;> trivial),
        running.fetching⟩
    · intro closed
      have cleared := (steady.cleared closed).1
      cases call with
      | readFile path => exact ⟨cleared, rfl⟩
      | _ => exact absurd (served.symm.trans closed) (by decide)
  | step mog caller taken =>
    constructor
    · exact fun opened => step_running (steady.running opened) taken
    · intro closed
      obtain ⟨cleared, outside⟩ := steady.cleared closed
      obtain ⟨rfl, still⟩ := step_cleared cleared.ready outside taken
      exact ⟨cleared, still⟩
  | flush blockId storage ran =>
    constructor
    · intro opened
      have running := steady.running opened
      exact ⟨runFlush_opened running.opened ran, running.ram,
        runFlush_reading running.opened running.reading ran,
        running.fetching.flush running.opened ran⟩
    · intro closed
      have scheduled := (Storage.runFlush_eq_some.mp ran).1
      rw [(steady.cleared closed).1.flushThreadPool] at scheduled
      cases scheduled
  | fetch blockId scheduled =>
    constructor
    · intro opened
      have running := steady.running opened
      exact ⟨fetch_opened running.opened blockId _, running.ram,
        fetch_reading running.reading _, running.fetching.fetch running.opened scheduled⟩
    · intro closed
      rw [(steady.cleared closed).1.threadPool] at scheduled
      cases scheduled
  | setReady ready allowed =>
    constructor
    · intro opened
      obtain ⟨coherent, ram, reading, fetching⟩ := steady.running opened
      exact ⟨coherent.withReady ready, ram, reading_withReady reading ready,
        ⟨fetching.mirrored, fetching.tasks, fetching.distinct, fetching.marked⟩⟩
    · intro closed
      obtain ⟨cleared, outside⟩ := steady.cleared closed
      exact ⟨cleared.withReady closed allowed, outside⟩
  | closeDb opened rest =>
    exact ⟨fun opened => (by cases opened), fun _ =>
      ⟨closeDb_cleared hash leveldb session.mog, outside_of_atRest rest⟩⟩
  | openDb closed rest =>
    obtain ⟨cleared, outside⟩ := steady.cleared closed
    exact ⟨fun _ => openDb_running cleared outside leveldb config, fun closed =>
      (by cases closed)⟩
  | changeFiles files => exact ⟨steady.running, steady.cleared⟩

/-- In every run from the start the session is steady. -/
theorem run_steady {events : List Event} {files : String → Option (List UInt8)}
    {value : ByteMemory}
    (served : (machine hash leveldb config).Along Event.Served (start leveldb files value) events)
    (ran : (machine hash leveldb config).run (start leveldb files value) events = some session) :
    session.Steady hash leveldb := by
  have initially : (start leveldb files value).Steady hash leveldb :=
    ⟨fun opened => (by cases opened), fun _ => ⟨new_cleared leveldb, rfl⟩⟩
  exact Machine.run_invariant_along _
    (fun _ _ _ steady served stepped => step_steady steady served stepped) initially served ran

end CudaDb.Mog
