import CudaDb.Verif.WorkerBuffer
import CudaDb.Verif.MogTransparent

/-!
# The cache server is transparent to its workers together

Between two resets the workers make their calls of `read_file` at the same time, and each of their
accesses can fall between two accesses of any other. Two workers may miss one file together, write
it twice to the buffer or cache it twice in the RAM; what the stores hold under the key of a path
is the file of this path all the same, so every worker that has returned holds its own file.
-/

namespace CudaDb

namespace Mog

variable {Db : Type*} {hash : String → UInt64} {leveldb : LevelDb Db} {config : MogConfig}
  {files : String → Option (List UInt8)} {paths : Set String} {mog next : Mog Db}
  {caller after : Caller} {right : String → List UInt8 → Prop} {key : String}

/-- What a read knows where it stands, whatever the other workers do. -/
def Carries (right : String → List UInt8 → Prop) (hdd : Directory) (value : ByteMemory) :
    MogPc → Prop
  | .readSsd _ key info => info.lengthType = slabType info.length ∧
      ∃ bytes, right key bytes ∧ Storage.slice hdd info = some bytes
  | .insertItem _ key info => info.lengthType = slabType info.length ∧
      ∃ bytes, right key bytes ∧ bytes.length = info.length ∧ value.StartsWith bytes
  | _ => True

/-- More files on the HDD change nothing that a read knows. -/
theorem Carries.extends {hdd later : Directory} {value : ByteMemory} {pc : MogPc}
    (carries : Carries right hdd value pc) (grown : SsdTier.Extends hdd later) :
    Carries right later value pc := by
  cases pc with
  | readSsd reader key info =>
    obtain ⟨typed, bytes, own, slice⟩ := carries
    exact ⟨typed, bytes, own, slice_extends grown slice⟩
  | _ => exact carries

/-- A read that is alone with the stores knows it as well. -/
theorem carries_of_reading {value : ByteMemory} {pc : MogPc}
    (knows : Reading hash right mog value pc) : Carries right mog.storage.hdd value pc := by
  cases pc with
  | readSsd | insertItem => exact knows.2
  | _ => trivial

/-- An insert of the bytes of its key keeps a cache that holds one value at most for each key, also
if another worker has cached the key since it was missed. -/
theorem insertItem_holds {cache later : CpuCache} {info : IndexInfo} {memory : ByteMemory}
    {bytes : List UInt8} (partition : cache.Partition) (holds : cache.Holds right)
    (only : ∀ key first second, right key first → right key second → first = second)
    (own : right key bytes) (length : bytes.length = info.length)
    (typed : info.lengthType = slabType info.length) (starts : memory.StartsWith bytes)
    (inserted : cache.insert key info memory = some later) : later.Holds right := by
  cases cached : cache.cachedItem.lookup key with
  | none =>
    have fits : bytes.length ≤ 2 ^ info.lengthType * 1024 := by
      rw [typed, length]
      exact length_le_slab info.length
    exact CpuCache.insert_holds partition holds (Finmap.lookup_eq_none.mp cached) starts length fits
      own inserted
  | some item =>
    obtain ⟨held, good, sized, -⟩ := holds key item cached
    have same : item.length = info.length := by
      rw [← sized, ← length, only key held bytes good own]
    exact CpuCache.insert_again partition holds cached same inserted

/-- What an access of a read does among other workers. -/
structure SharedStep (leveldb : LevelDb Db) (right : String → List UInt8 → Prop)
    (mog next : Mog Db) (after : Caller) (reader : Reader) (key : String) : Prop where
  /-- The stores go on holding right values. -/
  caches : next.Caches leveldb right
  /-- The buffer, the index and the HDD stay. -/
  storage : next.storage = mog.storage
  /-- The read goes on, or it delivers a right value or nothing. -/
  outcome : (after.pc.reading = some (reader, key) ∧
      Carries right next.storage.hdd after.value after.pc) ∨
    ∃ value, (right key value ∨ value = []) ∧ after.pc = afterRead reader key value.length ∧
      after.value.StartsWith value

/-- An access of a read among other workers delivers right values only, where each key has one
right value and the hash tells the keys of right values apart. -/
theorem step_shared (opened : mog.Opened hash leveldb caller.pc)
    (caches : mog.Caches leveldb right)
    (only : ∀ key first second, right key first → right key second → first = second)
    (apart : ∀ other value, right other value → hash other = hash key → other = key)
    (carries : Carries right mog.storage.hdd caller.value caller.pc) {reader : Reader}
    (reads : caller.pc.reading = some (reader, key))
    (stepped : mog.step hash leveldb config files caller = some (next, after)) :
    SharedStep leveldb right mog next after reader key := by
  obtain ⟨pc, value⟩ := caller
  cases step_access stepped with
  | bufferHit _ asked info found =>
    obtain ⟨rfl, rfl⟩ := Prod.mk.inj (Option.some.inj reads)
    have good : right info.key info.value := caches.buffered _ info found
    have hashed := (opened.storage.buffer.entries _ info found).1
    have own : right asked info.value := apart info.key info.value good hashed ▸ good
    exact ⟨caches, rfl, Or.inr ⟨info.value, Or.inl own, rfl,
      ByteMemory.write_startsWith value info.value⟩⟩
  | bufferMiss | itemFound | itemMissed =>
    obtain ⟨rfl, rfl⟩ := Prod.mk.inj (Option.some.inj reads)
    exact ⟨caches, rfl, Or.inl ⟨rfl, trivial⟩⟩
  | itemCopied _ _ item found =>
    obtain ⟨rfl, rfl⟩ := Prod.mk.inj (Option.some.inj reads)
    obtain ⟨bytes, own, length, starts⟩ := CpuCache.copyOut_holds caches.ram found value
    refine ⟨caches, rfl, Or.inr ⟨bytes, Or.inl own, ?_, starts⟩⟩
    rw [length]
  | indexMissed _ _ unknown =>
    obtain ⟨rfl, rfl⟩ := Prod.mk.inj (Option.some.inj reads)
    exact ⟨caches, rfl, Or.inr ⟨[], Or.inr rfl, rfl, ByteMemory.startsWith_nil value⟩⟩
  | indexFound _ _ info found =>
    obtain ⟨rfl, rfl⟩ := Prod.mk.inj (Option.some.inj reads)
    have typed := (opened.storage.indexed _ info found).2.2.1
    exact ⟨caches, rfl, Or.inl ⟨rfl, typed, caches.disk _ info found⟩⟩
  | ssdRead _ _ info tier length read served =>
    obtain ⟨rfl, rfl⟩ := Prod.mk.inj (Option.some.inj reads)
    obtain ⟨typed, bytes, own, slice⟩ := carries
    have delivered := readSsd_delivers opened.tier opened.synced slice served
    exact ⟨⟨caches.buffered, caches.disk, caches.ram⟩, rfl,
      Or.inl ⟨rfl, typed, bytes, own, Storage.slice_length slice, delivered⟩⟩
  | itemInserted _ _ info cache inserted =>
    obtain ⟨rfl, rfl⟩ := Prod.mk.inj (Option.some.inj reads)
    obtain ⟨typed, bytes, own, length, starts⟩ := carries
    have ram := insertItem_holds opened.ram caches.ram only own length typed starts inserted
    refine ⟨⟨caches.buffered, caches.disk, ram⟩, rfl, Or.inr ⟨bytes, Or.inl own, ?_, starts⟩⟩
    rw [length]
  | _ => cases reads

/-! ## Paths that the hash tells apart -/

/-- A path has one file. -/
theorem fileOf_only (paths_apart : Set.InjOn hash paths) (key : String) (first second : List UInt8)
    (left : FileOf hash paths files key first) (other : FileOf hash paths files key second) :
    first = second := by
  obtain ⟨here, inside, named, read⟩ := left
  obtain ⟨there, also_inside, also_named, also_read⟩ := other
  have same : here = there :=
    paths_apart inside also_inside (keyOf_injective (named.trans also_named.symm))
  rw [same, also_read] at read
  exact (Option.some.inj read).symm

/-- The hash tells the key of a path from the key of any other file. -/
theorem fileOf_apart (keys_apart : Set.InjOn hash (keyOf hash '' paths)) {path : String}
    (inside : path ∈ paths) (other : String) (value : List UInt8)
    (held : FileOf hash paths files other value) (hashed : hash other = hash (keyOf hash path)) :
    other = keyOf hash path := by
  obtain ⟨owner, owned, rfl, -⟩ := held
  exact keys_apart (Set.mem_image_of_mem _ owned) (Set.mem_image_of_mem _ inside) hashed

/-- The file behind the key of a path is that of the path. -/
theorem direct_of_fileOf (paths_apart : Set.InjOn hash paths) {path : String}
    (inside : path ∈ paths) {value : List UInt8}
    (held : FileOf hash paths files (keyOf hash path) value) : value = direct files path := by
  obtain ⟨owner, owned, named, read⟩ := held
  obtain rfl : owner = path := paths_apart owned inside (keyOf_injective named)
  rw [direct, read, Option.getD_some]

/-- A call that has returned holds what a direct read of its path gives. -/
def Answered (files : String → Option (List UInt8)) (caller : Caller) : Prop :=
  ∀ path result, caller.pc = .done (.readFile path) result →
    result = (direct files path).length ∧ caller.value.StartsWith (direct files path)

/-- What may be returned for a path is its file. -/
theorem answered_of_returns (paths_apart : Set.InjOn hash paths)
    (keys_apart : Set.InjOn hash (keyOf hash '' paths)) (returns : Returns hash paths files after) :
    Answered files after := by
  intro path result done
  obtain ⟨inside, value, serves, length, starts⟩ := returns path result done
  have whole : value = direct files path := by
    rcases serves with same | ⟨other, owned, hashed, read⟩
    · exact same
    · have held : FileOf hash paths files (keyOf hash other) value := ⟨other, owned, rfl, read⟩
      have named := fileOf_apart keys_apart inside _ value held hashed
      exact direct_of_fileOf paths_apart inside (named ▸ held)
  rw [← whole]
  exact ⟨length, starts⟩

/-- What a worker knows and, if it has returned, holds. -/
structure WorkerSound (hash : String → UInt64) (paths : Set String)
    (files : String → Option (List UInt8)) (hdd : Directory) (caller : Caller) : Prop where
  /-- The call is on one of the paths. -/
  filing : Filing hash paths files caller.pc
  /-- A read knows what it must. -/
  carries : Carries (FileOf hash paths files) hdd caller.value caller.pc
  /-- A call that has returned holds its file. -/
  answered : Answered files caller

/-- An access of one worker keeps the stores right and its own knowledge. -/
theorem step_workerSound (paths_apart : Set.InjOn hash paths)
    (keys_apart : Set.InjOn hash (keyOf hash '' paths))
    (opened : mog.Opened hash leveldb caller.pc)
    (caches : mog.Caches leveldb (FileOf hash paths files))
    (sound : WorkerSound hash paths files mog.storage.hdd caller)
    (stepped : mog.step hash leveldb config files caller = some (next, after)) :
    next.Caches leveldb (FileOf hash paths files) ∧ next.storage.hdd = mog.storage.hdd ∧
      WorkerSound hash paths files next.storage.hdd after := by
  cases reads : caller.pc.reading with
  | none =>
    have step := step_other (FileOf hash paths files) reads stepped
    obtain ⟨filing, returns⟩ := step_filing sound.filing reads stepped
    exact ⟨step_caches opened caches sound.filing step, step.hdd, filing,
      carries_of_reading step.reading, answered_of_returns paths_apart keys_apart returns⟩
  | some asked =>
    obtain ⟨reader, key⟩ := asked
    obtain ⟨path, inside, rfl, rfl⟩ := (filing_reading reads).mp sound.filing
    have step := step_shared opened caches (fileOf_only paths_apart)
      (fileOf_apart keys_apart inside) sound.carries reads stepped
    refine ⟨step.caches, congrArg Storage.hdd step.storage, ?_⟩
    rcases step.outcome with ⟨goes_on, carries⟩ | ⟨value, good, returned, starts⟩
    · have running : after.pc.atRest = false := by
        cases pc : after.pc <;> first | rfl | (rw [pc] at goes_on; cases goes_on)
      exact ⟨(filing_reading goes_on).mpr ⟨path, inside, rfl, rfl⟩, carries,
        answered_of_returns paths_apart keys_apart (returns_of_running running)⟩
    · by_cases bytes : value.length > 0
      · rw [afterRead, if_pos bytes] at returned
        have some_file : value ≠ [] := List.ne_nil_of_length_pos bytes
        have whole := direct_of_fileOf paths_apart inside (good.resolve_right some_file)
        refine ⟨by rw [returned]; trivial, by rw [returned]; trivial, ?_⟩
        intro other result done
        obtain ⟨call, same⟩ := MogPc.done.inj (returned.symm.trans done)
        obtain rfl := MogCall.readFile.inj call
        rw [← whole]
        exact ⟨same.symm, starts⟩
      · rw [afterRead, if_neg bytes] at returned
        refine ⟨by rw [returned]; exact ⟨inside, rfl⟩, by rw [returned]; trivial, ?_⟩
        intro other result done
        cases returned.symm.trans done

end Mog

namespace Fleet

variable {Worker : Type*} [DecidableEq Worker] {Db : Type*} {hash : String → UInt64}
  {leveldb : LevelDb Db} {config : MogConfig} {files : String → Option (List UInt8)}
  {paths : Set String} {fleet next : Fleet Worker Db} {event : Event Worker}

/-- The workers are asked for these paths. -/
def Event.Asks (paths : Set String) : Event Worker → Prop
  | .readFile _ path => path ∈ paths
  | _ => True

/-- What holds in every run of the workers over files that do not change. -/
structure Sound (hash : String → UInt64) (leveldb : LevelDb Db) (paths : Set String)
    (files : String → Option (List UInt8)) (fleet : Fleet Worker Db) : Prop where
  /-- The stores are coherent. -/
  opened : fleet.mog.Opened hash leveldb .idle
  /-- Every worker is at rest or in a call of `read_file`. -/
  served : fleet.Served
  /-- The stores hold files under the keys of their paths. -/
  caches : fleet.mog.Caches leveldb (Mog.FileOf hash paths files)
  /-- Every worker knows what it must and holds what it has returned. -/
  workers : ∀ worker,
    Mog.WorkerSound hash paths files fleet.mog.storage.hdd (fleet.workers worker)

/-- More files on the HDD change nothing for a worker. -/
theorem workerSound_extends {hdd later : Directory} {caller : Caller}
    (sound : Mog.WorkerSound hash paths files hdd caller) (grown : SsdTier.Extends hdd later) :
    Mog.WorkerSound hash paths files later caller :=
  ⟨sound.filing, sound.carries.extends grown, sound.answered⟩

/-- Every event keeps the stores right and the workers sound. -/
theorem step_sound (paths_apart : Set.InjOn hash paths)
    (keys_apart : Set.InjOn hash (keyOf hash '' paths))
    (sound : fleet.Sound hash leveldb paths files) (asks : event.Asks paths)
    (stepped : (machine hash leveldb config files).step fleet event = some next) :
    next.Sound hash leveldb paths files := by
  have opened := step_opened sound.opened sound.served stepped
  have served := step_served sound.served stepped
  cases step_occurs stepped with
  | readFile worker path rest =>
    have called : Mog.WorkerSound hash paths files fleet.mog.storage.hdd
        { fleet.workers worker with pc := Mog.begin (.readFile path) } :=
      ⟨asks, trivial, fun _ _ done => by cases done⟩
    exact ⟨opened, served, sound.caches, Threads.forall_update _ called sound.workers⟩
  | step worker mog caller taken =>
    obtain ⟨here, -⟩ := Mog.step_serving_opened sound.opened (sound.served worker) taken
    obtain ⟨caches, hdd, moved⟩ := Mog.step_workerSound paths_apart keys_apart here sound.caches
      (sound.workers worker) taken
    refine ⟨opened, served, caches, ?_⟩
    change ∀ other, Mog.WorkerSound hash paths files mog.storage.hdd _
    rw [hdd] at moved ⊢
    exact Threads.forall_update _ moved sound.workers
  | flush blockId storage ran =>
    have grown := Mog.runFlush_extends sound.opened ran
    exact ⟨opened, served, Mog.runFlush_caches sound.opened sound.caches ran,
      fun worker => workerSound_extends (sound.workers worker) grown⟩
  | fetch blockId scheduled =>
    exact ⟨opened, served, ⟨sound.caches.buffered, sound.caches.disk, sound.caches.ram⟩,
      sound.workers⟩

omit [DecidableEq Worker] in
/-- After a reset the stores hold nothing and no worker has been asked. -/
theorem reopened_sound (leveldb : LevelDb Db) (config : MogConfig) (totalSize : Int)
    (value : Worker → ByteMemory) :
    (reopened leveldb config totalSize value).Sound hash leveldb paths files := by
  have fresh : ((Mog.new leveldb).openDb leveldb config).Caches leveldb
      (Mog.FileOf hash paths files) :=
    Mog.openDb_caches (Mog.new_cleared leveldb) leveldb config
  exact ⟨(reopened_follows leveldb config totalSize value).opened, fun _ => trivial,
    ⟨fresh.buffered, fresh.disk, fresh.ram⟩,
    fun _ => ⟨trivial, trivial, fun _ _ done => by cases done⟩⟩

/-- In every run of the workers the stores are right and the workers sound. -/
theorem run_sound (paths_apart : Set.InjOn hash paths)
    (keys_apart : Set.InjOn hash (keyOf hash '' paths)) {totalSize : Int}
    {value : Worker → ByteMemory} {events : List (Event Worker)}
    (asks : ∀ event ∈ events, event.Asks paths)
    (ran : (machine hash leveldb config files).run (reopened leveldb config totalSize value)
      events = some fleet) : fleet.Sound hash leveldb paths files := by
  refine Machine.run_invariant_along (Sound hash leveldb paths files) ?_
    (reopened_sound leveldb config totalSize value) (Machine.along_of_mem asks _) ran
  intro state event after sound asked stepped
  exact step_sound paths_apart keys_apart sound asked stepped

/-- In every run of any number of workers between two resets, each access of a worker between any
two of the others and with the flush and fetch tasks in between: where the hash tells the paths and
their keys apart, every worker that has returned from `read_file` holds the length of a direct read
of its path, with its bytes at the front of its buffer. -/
theorem readFile_eq_direct_together (paths_apart : Set.InjOn hash paths)
    (keys_apart : Set.InjOn hash (keyOf hash '' paths)) {totalSize : Int}
    {value : Worker → ByteMemory} {events : List (Event Worker)}
    (asks : ∀ event ∈ events, event.Asks paths)
    (ran : (machine hash leveldb config files).run (reopened leveldb config totalSize value)
      events = some fleet) {worker : Worker} {path : String} {result : Int}
    (returned : (fleet.workers worker).pc = .done (.readFile path) result) :
    result = (Mog.direct files path).length ∧
      (fleet.workers worker).value.StartsWith (Mog.direct files path) :=
  ((run_sound paths_apart keys_apart asks ran).workers worker).answered path result returned

/-- Two workers that miss one file together and write it both have the file. -/
theorem readFile_together_bothAtOnce :
    ∃ fleet, (machine Mog.powerHash LevelDb.table MogConfig.oneBlock Mog.oneFile).run
        (reopened LevelDb.table MogConfig.oneBlock 2 fun _ _ => 0) bothAtOnce = some fleet ∧
      (fleet.workers 0).value.StartsWith [1, 2] ∧ (fleet.workers 1).value.StartsWith [1, 2] := by
  have executed : ∃ fleet,
      (machine Mog.powerHash LevelDb.table MogConfig.oneBlock Mog.oneFile).run
        (reopened LevelDb.table MogConfig.oneBlock 2 fun _ _ => 0) bothAtOnce = some fleet ∧
      (fleet.workers 0).pc = .done (.readFile "a") 2 ∧
      (fleet.workers 1).pc = .done (.readFile "a") 2 := ⟨_, rfl, rfl, rfl⟩
  obtain ⟨fleet, ran, first, second⟩ := executed
  have asks : ∀ event ∈ bothAtOnce, event.Asks {"a", "bb"} := by
    simp [bothAtOnce, Event.Asks]
  exact ⟨fleet, ran,
    (readFile_eq_direct_together Mog.powerHash_injOn Mog.powerHash_keys_injOn asks ran first).2,
    (readFile_eq_direct_together Mog.powerHash_injOn Mog.powerHash_keys_injOn asks ran second).2⟩

end Fleet

end CudaDb
