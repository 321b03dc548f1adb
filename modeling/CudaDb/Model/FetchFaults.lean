import CudaDb.Model.SSDCache

/-!
# Fetches that are skipped or fail

`SSDCache::read` marks a block in `caching_block` and schedules its fetch; `SSDCache::fetch` takes
the mark back at the end of its section. The machine here adds to the one of the SSD cache what
happens outside the locks: a fetch in its section has incremented `block_num` and not yet evicted,
which the tests of the other fetches see, and the copy of a file may fail for any reason.
-/

namespace CudaDb

/-- The task comes to its `copy_file` next. -/
def SsdTask.copies : SsdTask → Bool
  | .flushCopy _ | .fetchCopy _ => true
  | _ => false

namespace SsdTier

/-- The world with so many blocks added to `block_num`. -/
def World.count (added : Int) (world : World) : World :=
  { world with tier := { world.tier with cache := { world.tier.cache with
    blockNum := world.tier.cache.blockNum + added } } }

/-- The world in which the task has ended and done nothing else. -/
def World.drop (task : SsdTask) (world : World) : World :=
  { world with tier := { world.tier with cache := { world.tier.cache with
    threadPool := world.tier.cache.threadPool.erase task } } }

/-- What takes none of the locks of `SSDCache`: the files that the rest of the server puts down,
the test of `block_num`, and the copies. -/
def Event.unlocked : Event → Bool
  | .placeSsd _ | .placeHdd _ => true
  | .task (.flushCopy _) | .task (.fetchTest _) | .task (.fetchCopy _) => true
  | _ => false

/-- A world in which a fetch may be in the middle of its section. -/
structure FaultyWorld where
  /-- The cache, both directories and the announced blocks, without what that section does. -/
  world : World
  /-- The block whose fetch has incremented `block_num` and still holds `fetch_lock`. -/
  inside : Option Nat

/-- What the section has added to `block_num` so far. -/
def FaultyWorld.added (faulty : FaultyWorld) : Int := if faulty.inside.isSome then 1 else 0

/-- The world with `block_num` as a task without the lock reads it. -/
def FaultyWorld.seen (faulty : FaultyWorld) : World := faulty.world.count faulty.added

/-- What can happen next where copies may fail. -/
inductive FaultyEvent
  /-- An event without failures. -/
  | sound (event : Event)
  /-- A fetch enters its section and comes to its increment of `block_num`. -/
  | enter (blockId : Nat)
  /-- The fetch in its section evicts, takes its mark back and ends. -/
  | leave
  /-- `copy_file` throws in the task, which ends. -/
  | copyFails (task : SsdTask)

/-- The calls and the tasks with copies that may fail; while a fetch is in its section, the others
take only steps without a lock. -/
def faultyMachine (content : Nat → List UInt8) : Machine FaultyWorld FaultyEvent where
  step faulty
    | .sound event =>
      if faulty.inside.isSome ∧ ¬ event.unlocked then none
      else ((machine content).step faulty.seen event).map fun next =>
        { faulty with world := next.count (-faulty.added) }
    | .enter blockId =>
      if faulty.inside = none ∧ .fetchSection blockId ∈ faulty.world.tier.cache.threadPool ∧
          blockId ∈ faulty.world.tier.ssd then
        some { faulty with inside := some blockId }
      else none
    | .leave =>
      faulty.inside.bind fun blockId =>
        ((machine content).step faulty.world (.task (.fetchSection blockId))).map fun next =>
          { world := next, inside := none }
    | .copyFails task =>
      if task.copies ∧ task ∈ faulty.world.tier.cache.threadPool then
        some { faulty with world := faulty.world.drop task }
      else none

/-- Empty directories and an empty cache, with no task. -/
def faultyStart (maxBlockNum : Nat) : FaultyWorld where
  world := start maxBlockNum
  inside := none

end SsdTier

end CudaDb
