import CudaDb.Model.FlushSteps
import CudaDb.Verif.MogSteady

/-!
# Files that are still being written

While a flush writes the file of its block, other readers see a file that only gets longer. What a
record denotes in such a file stays, a read through the SSD cache delivers it, and the tasks of the
SSD cache go on as if the file were complete, unless one of them copies it too early.
-/

namespace CudaDb

/-! ## Files that get longer -/

/-- Every file of the first directory is in the second, where it may be longer. -/
def Grown (before after : Directory) : Prop :=
  ∀ blockId file, before.lookup blockId = some file →
    ∃ longer, after.lookup blockId = some longer ∧ file <+: longer

/-- A directory whose files have not changed. -/
theorem Grown.refl (directory : Directory) : Grown directory directory :=
  fun _ file found => ⟨file, found, List.prefix_refl file⟩

/-- A file that is replaced by a longer one. -/
theorem grown_insert {directory : Directory} {blockId : Nat} {longer : List UInt8}
    (starts : ∀ file, directory.lookup blockId = some file → file <+: longer) :
    Grown directory (directory.insert blockId longer) := by
  intro other file found
  rw [Table.lookup_insert_if]
  by_cases same : other = blockId
  · rw [if_pos same]
    exact ⟨longer, rfl, starts file (same ▸ found)⟩
  · rw [if_neg same]
    exact ⟨file, found, List.prefix_refl file⟩

namespace Storage

/-- The bytes of the record can be read, and they are the value. -/
def Readable (hdd : Directory) (info : IndexInfo) (value : List UInt8) : Prop :=
  value.length = info.length ∧ fileBytes hdd info = some value

/-- What a record denotes can be read. -/
theorem readable_of_slice {hdd : Directory} {info : IndexInfo} {value : List UInt8}
    (denoted : slice hdd info = some value) : Readable hdd info value := by
  refine ⟨slice_length denoted, ?_⟩
  obtain ⟨file, found, inside⟩ := Option.bind_eq_some_iff.mp denoted
  rw [fileBytes, found, Option.map_some]
  split at inside
  · exact inside
  · cases inside

/-- What can be read of a record can still be read when the files are longer. -/
theorem Readable.grown {before after : Directory} {info : IndexInfo} {value : List UInt8}
    (readable : Readable before info value) (grown : Grown before after) :
    Readable after info value := by
  obtain ⟨length, bytes⟩ := readable
  obtain ⟨file, found, taken⟩ := Option.map_eq_some_iff.mp bytes
  obtain ⟨longer, later, starts⟩ := grown info.blockId file found
  refine ⟨length, ?_⟩
  have still : value <+: (longer.drop info.offset).take info.length := by
    rw [← taken]
    exact (starts.drop info.offset).take info.length
  have short : ((longer.drop info.offset).take info.length).length ≤ value.length := by
    rw [length]
    exact List.length_take_le _ _
  rw [fileBytes, later, Option.map_some, still.eq_of_length_le short]

end Storage

/-! ## The SSD cache beside a file that is being written -/

namespace SsdTier

variable {content : Nat → List UInt8} {tier : SsdTier} {hdd complete : Directory}

/-- `SSDCache::read` delivers what can be read of the record, wherever it reads it. -/
theorem read_readable
    (coherent : World.Coherent content { tier, hdd := complete, announced := [] })
    (grown : Grown hdd complete) {info : IndexInfo} {value : List UInt8}
    (readable : Storage.Readable hdd info value) {memory delivered : ByteMemory} {later : SsdTier}
    {length : Nat} (served : tier.read info hdd memory = some (later, length, delivered)) :
    delivered.StartsWith value := by
  obtain ⟨source, there, same⟩ := Option.map_eq_some_iff.mp served
  obtain ⟨-, written⟩ := Prod.mk.inj same
  obtain ⟨-, rfl⟩ := Prod.mk.inj written
  have bytes : (source.drop info.offset).take info.length = value := by
    dsimp only at there
    obtain ⟨-, cached, unsynced⟩ := SSDCache.noteRead_maps tier.cache info.blockId
    split at there
    · next listed =>
      rw [cached, unsynced] at listed
      have queued : info.blockId ∈ tier.cache.cachedBlockId := by
        rcases listed with cached | announced
        · exact (coherent.tier.queued info.blockId).mpr cached
        · exact absurd (coherent.unsynced info.blockId announced) List.not_mem_nil
      obtain ⟨both, here, copy⟩ := coherent.tier.cached info.blockId queued
      have read := (readable.grown grown).2
      dsimp only at here copy
      rw [Storage.fileBytes, copy, Option.map_some] at read
      rw [here] at there
      rw [← Option.some.inj there]
      exact Option.some.inj read
    · have read := readable.2
      rw [Storage.fileBytes, there, Option.map_some] at read
      exact Option.some.inj read
  rw [bytes]
  exact ByteMemory.write_startsWith memory value

/-- A step of a task by what it returns. -/
theorem runTask_returns
    (coherent : World.Coherent content { tier, hdd := complete, announced := [] }) {task : SsdTask}
    (inside : task ∈ tier.cache.threadPool) {next : Option SsdTask} {later : SsdTier}
    (ran : tier.runTask complete task = (next, later, complete)) :
    World.Coherent content {
      tier := { later with cache := { later.cache with
        threadPool := later.cache.threadPool.erase task ++ next.toList } }
      hdd := complete
      announced := [] } := by
  refine runTask_coherent coherent inside ?_
  simp only [machine]
  rw [if_pos inside, ran]

/-- A step of a task while a file is being written leaves the files of the HDD alone. If it copies
no incomplete file, it keeps the tier coherent with the complete files, and on the SSD only
those. -/
theorem runTask_growing
    (coherent : World.Coherent content { tier, hdd := complete, announced := [] }) {task : SsdTask}
    (inside : task ∈ tier.cache.threadPool) (mirrored : Extends tier.ssd complete)
    (copied : ∀ blockId, task = .fetchCopy blockId → blockId ∈ hdd → blockId ∉ tier.ssd →
      hdd.lookup blockId = complete.lookup blockId) :
    ∃ next later, tier.runTask hdd task = (next, later, hdd) ∧ Extends later.ssd complete ∧
      World.Coherent content {
        tier := { later with cache := { later.cache with
          threadPool := later.cache.threadPool.erase task ++ next.toList } }
        hdd := complete
        announced := [] } := by
  have no_flush (blockId : Nat) (flushes : task.flushes = some blockId) : False := by
    have unsynced := coherent.flushing blockId (mem_kind SsdTask.flushes inside flushes)
    exact List.not_mem_nil (coherent.unsynced blockId unsynced)
  cases task with
  | flushCopy blockId | flushSection blockId => exact (no_flush blockId rfl).elim
  | fetchTest blockId =>
    by_cases room : tier.cache.blockNum < tier.cache.maxBlockNum
    · have ran (files : Directory) : tier.runTask files (.fetchTest blockId) =
          (some (.fetchCopy blockId), tier, files) := by
        rw [runTask, if_pos room]
      exact ⟨_, _, ran hdd, mirrored, runTask_returns coherent inside (ran complete)⟩
    · have ran (files : Directory) : tier.runTask files (.fetchTest blockId) =
          (none, tier, files) := by
        rw [runTask, if_neg room]
      exact ⟨_, _, ran hdd, mirrored, runTask_returns coherent inside (ran complete)⟩
  | fetchSection blockId =>
    obtain ⟨evicted, registered, section_ran⟩ := fetchSection_registered coherent inside
    refine ⟨_, _, rfl, ?_, runTask_returns coherent inside rfl⟩
    dsimp only at section_ran
    rw [section_ran, Option.getD_some]
    exact registered.files_extend mirrored
  | fetchCopy blockId =>
    cases copy : copyFile hdd tier.ssd blockId with
    | none =>
      exact ⟨none, tier, by rw [runTask, copy], mirrored, coherent.ended inside⟩
    | some ssd =>
      obtain ⟨absent, file, found, rfl⟩ := copyFile_eq_some.mp copy
      have full : complete.lookup blockId = some file := by
        rw [← copied blockId rfl (Finmap.mem_iff.mpr ⟨file, found⟩) absent]
        exact found
      have same : copyFile complete tier.ssd blockId = some (tier.ssd.insert blockId file) :=
        copyFile_eq_some.mpr ⟨absent, file, full, rfl⟩
      have ran (files : Directory)
          (copy : copyFile files tier.ssd blockId = some (tier.ssd.insert blockId file)) :
          tier.runTask files (.fetchCopy blockId) = (some (.fetchSection blockId),
            { tier with ssd := tier.ssd.insert blockId file }, files) := by
        rw [runTask, copy]
      exact ⟨_, _, ran hdd copy, mirrored.copied full,
        runTask_returns coherent inside (ran complete same)⟩

end SsdTier

end CudaDb
