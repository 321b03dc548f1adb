import CudaDb.Verif.SsdFootprint
import CudaDb.Verif.FleetProgress

/-!
# The SSD cache of the server

The workers schedule fetches, and here each of them runs with nothing between its steps. Step by
step it is a fetch of the SSD cache, whose eviction and section do not look at the tasks. So what
the workers do to the SSD cache is a run of calls of `SSDCache::read` with the steps of the fetches,
over block files that the flushes put on the HDD and that never change.
-/

namespace CudaDb

namespace SsdTier

variable {content : Nat → List UInt8} {tier : SsdTier} {world : World} {blockId : Nat}

/-- The tier with other tasks. -/
def withPool (pool : List SsdTask) (tier : SsdTier) : SsdTier :=
  { tier with cache := { tier.cache with threadPool := pool } }

/-- The eviction loop does not look at the tasks. -/
theorem evictLoop_withPool (pool : List SsdTask) (queue : List Nat) :
    evictLoop queue (tier.withPool pool) = (evictLoop queue tier).withPool pool := by
  induction queue generalizing tier with
  | nil => rfl
  | cons deleted rest ih =>
    rw [evictLoop, evictLoop]
    by_cases low : 10 * tier.cache.blockNum < 7 * tier.cache.maxBlockNum
    · rw [if_pos low]
      exact if_pos low
    · rw [if_neg low, ← ih]
      exact if_neg low

/-- The eviction does not look at the tasks. -/
theorem evict_withPool (pool : List SsdTask) :
    (tier.withPool pool).evict = tier.evict.withPool pool := by
  unfold evict
  by_cases full : tier.cache.blockNum ≥ tier.cache.maxBlockNum
  · rw [if_pos full, ← evictLoop_withPool]
    exact if_pos full
  · rw [if_neg full]
    exact if_neg full

/-- The tier with another block queued and counted. -/
def counting (blockId size : Nat) (tier : SsdTier) : SsdTier :=
  { register blockId size tier with cache := { (register blockId size tier).cache with
    blockNum := tier.cache.blockNum + 1 } }

/-- The tier with the mark of a fetched block taken back. -/
def unmark (blockId : Nat) (tier : SsdTier) : SsdTier :=
  { tier with cache := { tier.cache with cachingBlock := tier.cache.cachingBlock.erase blockId } }

/-- The section of a fetch in one line. -/
theorem fetchSection_eq (blockId : Nat) (tier : SsdTier) : tier.fetchSection blockId =
    (tier.ssd.lookup blockId).map fun file =>
      (counting blockId file.length tier).evict.unmark blockId := rfl

/-- The section of a fetch does not look at the tasks. -/
theorem fetchSection_withPool (pool : List SsdTask) :
    (tier.withPool pool).fetchSection blockId =
      (tier.fetchSection blockId).map (withPool pool) := by
  have section_eq (size : Nat) :
      (counting blockId size (tier.withPool pool)).evict.unmark blockId =
        withPool pool ((counting blockId size tier).evict.unmark blockId) := by
    have moved : counting blockId size (tier.withPool pool) =
        (counting blockId size tier).withPool pool := rfl
    rw [moved, evict_withPool]
    rfl
  rw [fetchSection_eq, fetchSection_eq, Option.map_map]
  exact Option.map_congr fun file _ => section_eq file.length

/-- What a section leaves does not depend on the tasks. -/
theorem fetchSection_getD_withPool (pool : List SsdTask) :
    ((tier.withPool pool).fetchSection blockId).getD (tier.withPool pool) =
      ((tier.fetchSection blockId).getD tier).withPool pool := by
  rw [fetchSection_withPool]
  cases tier.fetchSection blockId <;> rfl

/-- The section of a fetch does not change the tasks. -/
theorem fetchSection_threadPool :
    ((tier.fetchSection blockId).getD tier).cache.threadPool = tier.cache.threadPool := by
  rw [fetchSection_eq]
  cases tier.ssd.lookup blockId with
  | none => rfl
  | some file => exact (evict_evicted (counting blockId file.length tier)).threadPool

/-- A step of a task in a pool. -/
theorem task_step (content : Nat → List UInt8) (world : World) (task : SsdTask)
    (inside : task ∈ world.tier.cache.threadPool) {after : Option SsdTask}
    {moved : SsdTier} {hdd : Directory}
    (ran : world.tier.runTask world.hdd task = (after, moved, hdd)) :
    (machine content).step world (.task task) = some { world with
      tier := moved.withPool (moved.cache.threadPool.erase task ++ after.toList), hdd } := by
  simp only [machine, if_pos inside, ran]
  rfl

/-- A fetch whose copy fails ends. -/
theorem runTask_fetchCopy_none {hdd : Directory} (copy : copyFile hdd tier.ssd blockId = none) :
    tier.runTask hdd (.fetchCopy blockId) = (none, tier, hdd) := by
  unfold runTask
  simp only [copy]

/-- A fetch that has copied comes to its section. -/
theorem runTask_fetchCopy_some {hdd ssd : Directory}
    (copy : copyFile hdd tier.ssd blockId = some ssd) :
    tier.runTask hdd (.fetchCopy blockId) =
      (some (.fetchSection blockId), { tier with ssd }, hdd) := by
  unfold runTask
  simp only [copy]

/-- Erasing the last task that occurs nowhere else. -/
theorem erase_last {pool : List SsdTask} {task : SsdTask} (absent : task ∉ pool) :
    (pool ++ [task]).erase task = pool := by
  rw [List.erase_append_right _ absent, List.erase_cons_head, List.append_nil]

/-- Only fetches that have not begun are scheduled. -/
def Unbegun (tier : SsdTier) : Prop :=
  ∀ task ∈ tier.cache.threadPool, ∃ blockId, task = .fetchTest blockId

/-- Another task is not scheduled. -/
theorem Unbegun.notMem_erase (unbegun : tier.Unbegun) {task other : SsdTask}
    (begun : ∀ blockId, task ≠ .fetchTest blockId) : task ∉ tier.cache.threadPool.erase other := by
  intro member
  obtain ⟨blockId, same⟩ := unbegun task (List.mem_of_mem_erase member)
  exact begun blockId same

/-- A fetch with nothing between its steps does not change the tasks. -/
theorem fetch_threadPool (blockId : Nat) (tier : SsdTier) (hdd : Directory) :
    (Mog.fetch blockId tier hdd).cache.threadPool = tier.cache.threadPool := by
  unfold Mog.fetch
  split
  · split
    · exact fetchSection_threadPool
    · rfl
  · rfl

/-- A fetch whose copy fails leaves the pool. -/
theorem fetchCopy_fails (content : Nat → List UInt8) (world : World) {pool : List SsdTask}
    (absent : .fetchCopy blockId ∉ pool)
    (copy : copyFile world.hdd world.tier.ssd blockId = none) :
    (machine content).step
      { world with tier := world.tier.withPool (pool ++ [.fetchCopy blockId]) }
      (.task (.fetchCopy blockId)) = some { world with tier := world.tier.withPool pool } := by
  have stepped := task_step content
    { world with tier := world.tier.withPool (pool ++ [.fetchCopy blockId]) } _
    (List.mem_append_right _ List.mem_cons_self) (runTask_fetchCopy_none copy)
  have left : (pool ++ [SsdTask.fetchCopy blockId]).erase (.fetchCopy blockId) ++
      (none : Option SsdTask).toList = pool := by
    rw [erase_last absent]
    exact List.append_nil _
  exact stepped.trans
    (congrArg (fun pool => some { world with tier := world.tier.withPool pool }) left)

/-- A fetch that copies comes to its section, and its section ends it. -/
theorem fetchCopy_runs (content : Nat → List UInt8) (world : World) {pool : List SsdTask}
    (absent : .fetchCopy blockId ∉ pool) (unregistered : .fetchSection blockId ∉ pool)
    {ssd : Directory} (copy : copyFile world.hdd world.tier.ssd blockId = some ssd) :
    (machine content).run
      { world with tier := world.tier.withPool (pool ++ [.fetchCopy blockId]) }
      [.task (.fetchCopy blockId), .task (.fetchSection blockId)] = some { world with
        tier := ((fetchSection blockId { world.tier with ssd }).getD
          { world.tier with ssd }).withPool pool } := by
  have copied := task_step content
    { world with tier := world.tier.withPool (pool ++ [.fetchCopy blockId]) } _
    (List.mem_append_right _ List.mem_cons_self) (runTask_fetchCopy_some copy)
  have begun : (pool ++ [SsdTask.fetchCopy blockId]).erase (.fetchCopy blockId) ++
      (some (SsdTask.fetchSection blockId)).toList = pool ++ [.fetchSection blockId] := by
    rw [erase_last absent]
    rfl
  have first := copied.trans (congrArg (fun pool => some { world with
    tier := SsdTier.withPool pool { world.tier with ssd } }) begun)
  have ended : (pool ++ [SsdTask.fetchSection blockId]).erase (.fetchSection blockId) ++
      (none : Option SsdTask).toList = pool := by
    rw [erase_last unregistered]
    exact List.append_nil _
  have registered := task_step content
    { world with
      tier := SsdTier.withPool (pool ++ [.fetchSection blockId]) { world.tier with ssd } }
    (.fetchSection blockId) (List.mem_append_right _ List.mem_cons_self) rfl
  rw [fetchSection_getD_withPool] at registered
  have second := registered.trans (congrArg (fun pool => some { world with
    tier := SsdTier.withPool pool
      ((fetchSection blockId { world.tier with ssd }).getD { world.tier with ssd }) }) ended)
  exact Machine.run_cons.mpr ⟨_, first, Machine.run_cons.mpr ⟨_, second, rfl⟩⟩

/-- A fetch with nothing between its steps is a run of the steps of its task. -/
theorem fetch_runs (content : Nat → List UInt8) (world : World) (unbegun : world.tier.Unbegun)
    (scheduled : .fetchTest blockId ∈ world.tier.cache.threadPool) :
    ∃ events, (∀ event ∈ events, event.unplaced) ∧ (machine content).run world events =
      some { world with
        tier := (Mog.fetch blockId world.tier world.hdd).withPool
          (world.tier.cache.threadPool.erase (.fetchTest blockId)) } := by
  have uncopied : SsdTask.fetchCopy blockId ∉
      world.tier.cache.threadPool.erase (.fetchTest blockId) :=
    unbegun.notMem_erase fun _ same => by cases same
  have unregistered : SsdTask.fetchSection blockId ∉
      world.tier.cache.threadPool.erase (.fetchTest blockId) :=
    unbegun.notMem_erase fun _ same => by cases same
  by_cases room : world.tier.cache.blockNum < world.tier.cache.maxBlockNum
  · have tested := task_step content world _ scheduled (if_pos room)
    cases copy : copyFile world.hdd world.tier.ssd blockId with
    | none =>
      have skipped : Mog.fetch blockId world.tier world.hdd = world.tier := by
        rw [Mog.fetch, if_pos room, copy]
      rw [skipped]
      refine ⟨[.task (.fetchTest blockId), .task (.fetchCopy blockId)], by simp [Event.unplaced],
        Machine.run_cons.mpr ⟨_, tested, Machine.run_cons.mpr
          ⟨_, fetchCopy_fails content world uncopied copy, rfl⟩⟩⟩
    | some ssd =>
      have fetched : Mog.fetch blockId world.tier world.hdd =
          (fetchSection blockId { world.tier with ssd }).getD { world.tier with ssd } := by
        rw [Mog.fetch, if_pos room, copy]
      rw [fetched]
      exact ⟨[.task (.fetchTest blockId), .task (.fetchCopy blockId),
        .task (.fetchSection blockId)], by simp [Event.unplaced],
        Machine.run_cons.mpr ⟨_, tested, fetchCopy_runs content world uncopied unregistered copy⟩⟩
  · have tested := task_step content world _ scheduled (if_neg room)
    have skipped : Mog.fetch blockId world.tier world.hdd = world.tier := if_neg room
    have left := List.append_nil (world.tier.cache.threadPool.erase (.fetchTest blockId))
    have ended := tested.trans (congrArg (fun pool => some { world with
      tier := world.tier.withPool pool }) left)
    rw [skipped]
    exact ⟨[.task (.fetchTest blockId)], by simp [Event.unplaced],
      Machine.run_cons.mpr ⟨_, ended, rfl⟩⟩

/-- Counting a read schedules fetches only. -/
theorem Unbegun.noteRead (unbegun : tier.Unbegun) (blockId : Nat) :
    Unbegun { tier with cache := tier.cache.noteRead blockId } := by
  intro task member
  obtain ⟨_, _, same | ⟨fetched, -, same⟩⟩ := SSDCache.noteRead_cases tier.cache blockId
  · dsimp only at member
    rw [same] at member
    exact unbegun task member
  · dsimp only at member
    rw [same] at member
    rcases List.mem_append.mp member with old | new
    · exact unbegun task old
    · exact ⟨fetched, List.mem_singleton.mp new⟩

end SsdTier

namespace Mog

variable {Db : Type*} {hash : String → UInt64} {leveldb : LevelDb Db} {config : MogConfig}
  {files : String → Option (List UInt8)} {mog next : Mog Db} {caller after : Caller}

/-- An access of a call writes no block file. -/
theorem step_hdd (stepped : mog.step hash leveldb config files caller = some (next, after)) :
    next.storage.hdd = mog.storage.hdd := by
  obtain ⟨pc, value⟩ := caller
  cases step_access stepped <;> rfl

/-- An access of a call leaves the SSD cache alone, or is a call of `SSDCache::read`. -/
theorem step_ssd (stepped : mog.step hash leveldb config files caller = some (next, after)) :
    next.tier = mog.tier ∨ ∃ info served,
      mog.tier.read info mog.storage.hdd caller.value = some (next.tier, served) := by
  obtain ⟨pc, value⟩ := caller
  cases step_access stepped with
  | ssdRead reader key info tier length read served => exact Or.inr ⟨info, (length, read), served⟩
  | _ => exact Or.inl rfl

end Mog

namespace Fleet

variable {Worker : Type*} [DecidableEq Worker] {Db : Type*} {hash : String → UInt64}
  {leveldb : LevelDb Db} {config : MogConfig} {files : String → Option (List UInt8)}
  {fleet next final : Fleet Worker Db} {event : Event Worker}

/-- An event adds block files and changes none. -/
theorem step_extends (opened : fleet.mog.Opened hash leveldb .idle)
    (stepped : (machine hash leveldb config files).step fleet event = some next) :
    SsdTier.Extends fleet.mog.storage.hdd next.mog.storage.hdd := by
  cases step_occurs stepped with
  | step worker mog caller taken =>
    change SsdTier.Extends fleet.mog.storage.hdd mog.storage.hdd
    rw [Mog.step_hdd taken]
    exact SsdTier.Extends.refl _
  | flush blockId storage ran => exact Mog.runFlush_extends opened ran
  | readFile | fetch => exact SsdTier.Extends.refl _

/-- A run adds block files and changes none. -/
theorem run_extends (page : 1 ≤ config.pagePerBlock) (lively : fleet.Lively hash leveldb config)
    {events : List (Event Worker)}
    (ran : (machine hash leveldb config files).run fleet events = some final) :
    SsdTier.Extends fleet.mog.storage.hdd final.mog.storage.hdd := by
  induction events generalizing fleet with
  | nil =>
    obtain rfl := Option.some.inj ran
    exact SsdTier.Extends.refl _
  | cons event events ih =>
    obtain ⟨next, stepped, rest⟩ := Machine.run_cons.mp ran
    intro blockId file found
    exact ih (step_lively page lively stepped) rest blockId file
      (step_extends lively.opened stepped blockId file found)

/-- The block files have these contents. -/
def Filed (content : Nat → List UInt8) (hdd : Directory) : Prop :=
  ∀ blockId file, hdd.lookup blockId = some file → content blockId = file

/-- The SSD cache of the server is that of a world, with its files and its tasks. -/
structure Tiered (fleet : Fleet Worker Db) (world : SsdTier.World) : Prop where
  /-- The cache and the files on the SSD. -/
  tier : world.tier = fleet.mog.tier
  /-- The block files on the HDD. -/
  hdd : world.hdd = fleet.mog.storage.hdd
  /-- No fetch has begun. -/
  unbegun : fleet.mog.tier.Unbegun

/-- An event of the server is a run of the SSD cache. -/
theorem step_tiered {content : Nat → List UInt8} {world : SsdTier.World}
    (opened : fleet.mog.Opened hash leveldb .idle) (tiered : fleet.Tiered world)
    (stepped : (machine hash leveldb config files).step fleet event = some next)
    (filed : Filed content next.mog.storage.hdd) :
    ∃ events after, (∀ event ∈ events, event.unplaced) ∧
      (SsdTier.machine content).run world events = some after ∧ next.Tiered after := by
  have nothing : ∀ event ∈ ([] : List SsdTier.Event), event.unplaced := fun _ member =>
    (by cases member)
  cases step_occurs stepped with
  | readFile => exact ⟨[], world, nothing, rfl, tiered.tier, tiered.hdd, tiered.unbegun⟩
  | step worker mog caller taken =>
    have hdd := Mog.step_hdd taken
    rcases Mog.step_ssd taken with same | ⟨info, served, read⟩
    · refine ⟨[], world, nothing, rfl, tiered.tier.trans same.symm, tiered.hdd.trans hdd.symm, ?_⟩
      change mog.tier.Unbegun
      rw [same]
      exact tiered.unbegun
    · obtain ⟨file, found, delivered⟩ := Option.map_eq_some_iff.mp read
      obtain ⟨noted, -⟩ := Prod.mk.inj delivered
      have again : world.tier.read info world.hdd (fun _ => 0) = some
          (mog.tier, info.length, ByteMemory.write (fun _ => 0)
            ((file.drop info.offset).take info.length)) := by
        rw [tiered.tier, tiered.hdd]
        exact Option.map_eq_some_iff.mpr ⟨file, found, Prod.ext noted rfl⟩
      refine ⟨[.read info], { world with tier := mog.tier }, by simp [SsdTier.Event.unplaced],
        Machine.run_cons.mpr ⟨_, Option.map_eq_some_iff.mpr ⟨_, again, rfl⟩, rfl⟩, rfl,
        tiered.hdd.trans hdd.symm, ?_⟩
      change mog.tier.Unbegun
      rw [← noted]
      exact tiered.unbegun.noteRead info.blockId
  | flush blockId storage ran =>
    obtain ⟨scheduled, same⟩ := Storage.runFlush_eq_some.mp ran
    have member := Storage.mem_pendingAt scheduled (.returned 0)
    have fresh : blockId ∉ fleet.mog.storage.hdd := fun old =>
      (opened.flushed blockId old).2 member
    obtain ⟨file, written⟩ : ∃ file, storage.hdd = fleet.mog.storage.hdd.insert blockId file :=
      ⟨_, by rw [same, Storage.flush_hdd]⟩
    have contents : content blockId = file := filed blockId file (by
      change storage.hdd.lookup blockId = some file
      rw [written]
      exact Finmap.lookup_insert _)
    have placed : (SsdTier.machine content).step world (.placeHdd blockId) =
        some { world with hdd := storage.hdd } := by
      rw [← tiered.hdd] at fresh written
      rw [written, ← contents]
      exact if_neg fresh
    exact ⟨[.placeHdd blockId], _, by simp [SsdTier.Event.unplaced],
      Machine.run_cons.mpr ⟨_, placed, rfl⟩, tiered.tier, rfl, tiered.unbegun⟩
  | fetch blockId scheduled =>
    have inside : SsdTask.fetchTest blockId ∈ world.tier.cache.threadPool := by
      rw [tiered.tier]
      exact scheduled
    have unbegun : world.tier.Unbegun := by
      rw [tiered.tier]
      exact tiered.unbegun
    obtain ⟨events, unplaced, ran⟩ := SsdTier.fetch_runs content world unbegun inside
    refine ⟨events, _, unplaced, ran, ?_, tiered.hdd, ?_⟩
    · dsimp only
      rw [SsdTier.fetch_threadPool, tiered.tier, tiered.hdd]
      rfl
    · intro task member
      dsimp only at member
      rw [SsdTier.fetch_threadPool] at member
      exact tiered.unbegun task (List.mem_of_mem_erase member)

/-- A run of the server is a run of the SSD cache, over the block files of its end. -/
theorem run_tiered {content : Nat → List UInt8} (page : 1 ≤ config.pagePerBlock)
    {world : SsdTier.World} (lively : fleet.Lively hash leveldb config)
    (tiered : fleet.Tiered world) {events : List (Event Worker)}
    (ran : (machine hash leveldb config files).run fleet events = some final)
    (filed : Filed content final.mog.storage.hdd) :
    ∃ events after, (∀ event ∈ events, event.unplaced) ∧
      (SsdTier.machine content).run world events = some after ∧ final.Tiered after := by
  induction events generalizing fleet world with
  | nil =>
    obtain rfl := Option.some.inj ran
    exact ⟨[], world, fun _ member => (by cases member), rfl, tiered⟩
  | cons event events ih =>
    obtain ⟨next, stepped, rest⟩ := Machine.run_cons.mp ran
    have later := step_lively page lively stepped
    have grown := run_extends page later rest
    have here : Filed content next.mog.storage.hdd := fun blockId file found =>
      filed blockId file (grown blockId file found)
    obtain ⟨first, middle, unplaced, taken, moved⟩ :=
      step_tiered lively.opened tiered stepped here
    obtain ⟨second, after, also, done, there⟩ := ih later moved rest
    refine ⟨first ++ second, after, fun event member => ?_,
      Machine.run_append.mpr ⟨middle, taken, done⟩, there⟩
    rcases List.mem_append.mp member with early | late
    · exact unplaced event early
    · exact also event late

end Fleet

end CudaDb
