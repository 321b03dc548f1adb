import CudaDb.Model.Mog

/-!
# What one access does

A call of a `mog` goes from one access to the next. `Access` lists what an access can do, with the
test that it has passed: one case for each branch of `Mog.step`, and none where the call waits or
has returned. `Occurs` does the same for the events of a session. The invariants of the stores and
of the calls are proved from these cases.
-/

namespace CudaDb

/-- Writing nothing leaves the memory. -/
theorem ByteMemory.write_nil (memory : ByteMemory) : memory.write [] = memory := by
  funext position
  exact ByteMemory.write_outside (Nat.zero_le position)

namespace Mog

variable {Db : Type*}

/-- What an access does: where the call stands, and the store and the caller after it. -/
inductive Access (hash : String → UInt64) (leveldb : LevelDb Db) (config : MogConfig)
    (files : String → Option (List UInt8)) (mog : Mog Db) (value : ByteMemory) :
    MogPc → Mog Db → Caller → Prop
  /-- `read_file` finds the `mog` ready. -/
  | ready (path : String) (ready : mog.ready = true) :
    Access hash leveldb config files mog value (.testReady path) mog
      { pc := .readBuffer (.file path) (keyOf hash path), value }
  /-- `read_file` reads around a `mog` that is not ready. -/
  | unready (path : String) (not_ready : mog.ready = false) :
    Access hash leveldb config files mog value (.testReady path) mog
      { pc := .readDirect path, value }
  /-- The direct read finds no file, or one that is too long. -/
  | directNothing (path : String)
    (unread : ∀ file, files path = some file → file.length > maxFileLength) :
    Access hash leveldb config files mog value (.readDirect path) mog
      { pc := .done (.readFile path) 0, value }
  /-- The direct read returns the file. -/
  | directFile (path : String) (file : List UInt8) (found : files path = some file)
    (short : file.length ≤ maxFileLength) :
    Access hash leveldb config files mog value (.readDirect path) mog
      { pc := .done (.readFile path) file.length, value := value.write file }
  /-- The buffer has bytes for the key. -/
  | bufferHit (reader : Reader) (key : String) (info : KvInfo)
    (found : mog.storage.buffer.kvStore.lookup (hash key) = some info)
    (bytes : info.value.length > 0) :
    Access hash leveldb config files mog value (.readBuffer reader key) mog
      { pc := afterRead reader key info.value.length, value := value.write info.value }
  /-- The buffer has no bytes for the key. -/
  | bufferMiss (reader : Reader) (key : String)
    (missed : ∀ info, mog.storage.buffer.kvStore.lookup (hash key) = some info →
      info.value = []) :
    Access hash leveldb config files mog value (.readBuffer reader key) mog
      { pc := .findItem reader key, value }
  /-- The RAM cache has the key. -/
  | itemFound (reader : Reader) (key : String) (cached : key ∈ mog.ram.cachedItem) :
    Access hash leveldb config files mog value (.findItem reader key) mog
      { pc := .copyItem reader key, value }
  /-- The RAM cache does not have the key. -/
  | itemMissed (reader : Reader) (key : String) (uncached : key ∉ mog.ram.cachedItem) :
    Access hash leveldb config files mog value (.findItem reader key) mog
      { pc := .getIndex reader key, value }
  /-- The slabs found are copied out. -/
  | itemCopied (reader : Reader) (key : String) (item : CPUCachedItem)
    (found : mog.ram.cachedItem.lookup key = some item) :
    Access hash leveldb config files mog value (.copyItem reader key) mog
      { pc := afterRead reader key (mog.ram.copyOut item value).1
        value := (mog.ram.copyOut item value).2 }
  /-- The index has no record of the key. -/
  | indexMissed (reader : Reader) (key : String)
    (unknown : CentraIndex.getInfo leveldb mog.storage.db key = none) :
    Access hash leveldb config files mog value (.getIndex reader key) mog
      { pc := afterRead reader key 0, value }
  /-- The index has a record of the key. -/
  | indexFound (reader : Reader) (key : String) (info : IndexInfo)
    (found : CentraIndex.getInfo leveldb mog.storage.db key = some info) :
    Access hash leveldb config files mog value (.getIndex reader key) mog
      { pc := .readSsd reader key info, value }
  /-- The bytes are read from the SSD or from the HDD. -/
  | ssdRead (reader : Reader) (key : String) (info : IndexInfo) (tier : SsdTier) (length : Nat)
    (read : ByteMemory)
    (served : mog.tier.read info mog.storage.hdd value = some (tier, length, read)) :
    Access hash leveldb config files mog value (.readSsd reader key info) { mog with tier }
      { pc := .insertItem reader key info, value := read }
  /-- The bytes are inserted into the RAM cache. -/
  | itemInserted (reader : Reader) (key : String) (info : IndexInfo) (ram : CpuCache)
    (inserted : mog.ram.insert key info value = some ram) :
    Access hash leveldb config files mog value (.insertItem reader key info) { mog with ram }
      { pc := afterRead reader key info.length, value }
  /-- `insert_file_with_copy` finds no file, or one that is too long. -/
  | fileNothing (path key : String)
    (unread : ∀ file, files path = some file → file.length > maxFileLength) :
    Access hash leveldb config files mog value (.openFile path key) mog
      { pc := .done (.readFile path) 0, value }
  /-- `insert_file_with_copy` reads the file. -/
  | fileRead (path key : String) (file : List UInt8) (found : files path = some file)
    (short : file.length ≤ maxFileLength) :
    Access hash leveldb config files mog value (.openFile path key) mog
      { pc := .testTotal path key file, value }
  /-- The file is short and there is room for it. -/
  | admitted (path key : String) (buffer : List UInt8) (short : buffer.length ≤ maxValueLength)
    (room : 100 * mog.totalSize ≤ 95 * 1024 * 1024 * config.hddPageNum) :
    Access hash leveldb config files mog value (.testTotal path key buffer) mog
      { pc := .buffer (.insert path buffer) (WriteBuffer.write key buffer), value }
  /-- The file is returned without being cached. -/
  | uncached (path key : String) (buffer : List UInt8) :
    Access hash leveldb config files mog value (.testTotal path key buffer) mog
      { pc := .done (.readFile path) buffer.length, value := value.write buffer }
  /-- A call of the write buffer takes a step. -/
  | bufferStep (writer : Writer) (pc later : WriteBuffer.Pc) (buffer : WriteBuffer)
    (taken : mog.storage.buffer.step hash
      (decide (mog.tier.cache.blockNum ≥ mog.tier.cache.maxBlockNum)) pc = some (later, buffer)) :
    Access hash leveldb config files mog value (.buffer writer pc)
      { mog with storage := { mog.storage with buffer } } { pc := .buffer writer later, value }
  /-- A call of the write buffer has returned. -/
  | bufferReturned (writer : Writer) (status : Int) :
    Access hash leveldb config files mog value (.buffer writer (.returned status)) mog
      { pc := afterWrite writer status, value }
  /-- The bytes are added to `total_size`. -/
  | charged (path : String) (buffer : List UInt8) :
    Access hash leveldb config files mog value (.addTotal path buffer)
      { mog with totalSize := mog.totalSize + buffer.length }
      { pc := .done (.readFile path) buffer.length, value := value.write buffer }
  /-- The SSD cache has no task left. -/
  | synced :
    Access hash leveldb config files mog value .syncSsd mog { pc := .done .sync 0, value }

variable {hash : String → UInt64} {leveldb : LevelDb Db} {config : MogConfig}
  {files : String → Option (List UInt8)} {mog next : Mog Db} {caller after : Caller}

/-- Every access is one of these. -/
theorem step_access (stepped : mog.step hash leveldb config files caller = some (next, after)) :
    Access hash leveldb config files mog caller.value caller.pc next after := by
  obtain ⟨pc, value⟩ := caller
  unfold step at stepped
  dsimp only at stepped ⊢
  cases pc with
  | idle | done call result => cases stepped
  | testReady path =>
    obtain ⟨rfl, rfl⟩ := Prod.mk.inj (Option.some.inj stepped)
    by_cases ready : mog.ready = true
    · rw [if_pos ready]
      exact .ready path ready
    · rw [if_neg ready]
      exact .unready path (Bool.eq_false_iff.mpr ready)
  | readDirect path | openFile path key =>
    dsimp only at stepped
    split at stepped
    · next missing =>
      obtain ⟨rfl, rfl⟩ := Prod.mk.inj (Option.some.inj stepped)
      constructor
      intro file found
      cases missing.symm.trans found
    · next file found =>
      split at stepped
      · next long =>
        obtain ⟨rfl, rfl⟩ := Prod.mk.inj (Option.some.inj stepped)
        constructor
        intro other same
        obtain rfl := Option.some.inj (found.symm.trans same)
        exact long
      · next short =>
        obtain ⟨rfl, rfl⟩ := Prod.mk.inj (Option.some.inj stepped)
        have fits : file.length ≤ maxFileLength := Nat.not_lt.mp short
        first
          | exact .directFile path file found fits
          | exact .fileRead path key file found fits
  | readBuffer reader key =>
    obtain ⟨rfl, rfl⟩ := Prod.mk.inj (Option.some.inj stepped)
    unfold WriteBuffer.read
    cases found : mog.storage.buffer.kvStore.lookup (hash key) with
    | none =>
      refine .bufferMiss reader key fun info present => ?_
      cases found.symm.trans present
    | some info =>
      by_cases bytes : info.value.length > 0
      · rw [if_pos bytes]
        exact .bufferHit reader key info found bytes
      · have empty : info.value = [] := List.eq_nil_of_length_eq_zero (by omega)
        rw [if_neg bytes]
        dsimp only
        rw [empty, ByteMemory.write_nil]
        refine .bufferMiss reader key fun other present => ?_
        obtain rfl := Option.some.inj (found.symm.trans present)
        exact empty
  | findItem reader key =>
    obtain ⟨rfl, rfl⟩ := Prod.mk.inj (Option.some.inj stepped)
    by_cases cached : key ∈ mog.ram.cachedItem
    · rw [if_pos cached]
      exact .itemFound reader key cached
    · rw [if_neg cached]
      exact .itemMissed reader key cached
  | copyItem reader key =>
    obtain ⟨item, found, same⟩ := Option.map_eq_some_iff.mp stepped
    obtain ⟨rfl, rfl⟩ := Prod.mk.inj same
    exact .itemCopied reader key item found
  | getIndex reader key =>
    dsimp only at stepped
    split at stepped
    · next unknown =>
      obtain ⟨rfl, rfl⟩ := Prod.mk.inj (Option.some.inj stepped)
      exact .indexMissed reader key unknown
    · next info found =>
      obtain ⟨rfl, rfl⟩ := Prod.mk.inj (Option.some.inj stepped)
      exact .indexFound reader key info found
  | readSsd reader key info =>
    obtain ⟨⟨tier, length, read⟩, served, same⟩ := Option.map_eq_some_iff.mp stepped
    obtain ⟨rfl, rfl⟩ := Prod.mk.inj same
    exact .ssdRead reader key info tier length read served
  | insertItem reader key info =>
    obtain ⟨ram, inserted, same⟩ := Option.map_eq_some_iff.mp stepped
    obtain ⟨rfl, rfl⟩ := Prod.mk.inj same
    exact .itemInserted reader key info ram inserted
  | testTotal path key buffer =>
    dsimp only at stepped
    split at stepped
    · next fits =>
      obtain ⟨rfl, rfl⟩ := Prod.mk.inj (Option.some.inj stepped)
      exact .admitted path key buffer fits.1 fits.2
    · obtain ⟨rfl, rfl⟩ := Prod.mk.inj (Option.some.inj stepped)
      exact .uncached path key buffer
  | buffer writer inner =>
    cases inner with
    | returned status =>
      obtain ⟨rfl, rfl⟩ := Prod.mk.inj (Option.some.inj stepped)
      exact .bufferReturned writer status
    | _ =>
      obtain ⟨⟨later, buffer⟩, taken, same⟩ := Option.map_eq_some_iff.mp stepped
      obtain ⟨rfl, rfl⟩ := Prod.mk.inj same
      exact .bufferStep writer _ later buffer taken
  | addTotal path buffer =>
    obtain ⟨rfl, rfl⟩ := Prod.mk.inj (Option.some.inj stepped)
    exact .charged path buffer
  | syncSsd =>
    dsimp only at stepped
    split at stepped
    · obtain ⟨rfl, rfl⟩ := Prod.mk.inj (Option.some.inj stepped)
      exact .synced
    · cases stepped

/-! ## Events -/

/-- What an event does to a session that allows it. -/
inductive Occurs (hash : String → UInt64) (leveldb : LevelDb Db) (config : MogConfig)
    (session : Session Db) : Event → Session Db → Prop
  /-- The caller, who is at rest, makes a call. -/
  | call (call : MogCall) (rest : session.caller.pc.atRest = true) :
    Occurs hash leveldb config session (.call call)
      { session with caller := { session.caller with pc := begin call } }
  /-- The call makes its next access. -/
  | step (mog : Mog Db) (caller : Caller)
    (taken : session.mog.step hash leveldb config session.files session.caller =
      some (mog, caller)) :
    Occurs hash leveldb config session .step { session with mog, caller }
  /-- A scheduled flush runs. -/
  | flush (blockId : Nat) (storage : Storage Db)
    (ran : session.mog.storage.runFlush hash leveldb blockId = some storage) :
    Occurs hash leveldb config session (.flush blockId)
      { session with mog := { session.mog with storage } }
  /-- A scheduled fetch runs. -/
  | fetch (blockId : Nat)
    (scheduled : SsdTask.fetchTest blockId ∈ session.mog.tier.cache.threadPool) :
    Occurs hash leveldb config session (.fetch blockId)
      { session with mog := { session.mog with
        tier := { Mog.fetch blockId session.mog.tier session.mog.storage.hdd with
          cache := { (Mog.fetch blockId session.mog.tier session.mog.storage.hdd).cache with
            threadPool := (Mog.fetch blockId session.mog.tier
              session.mog.storage.hdd).cache.threadPool.erase (.fetchTest blockId) } } } }
  /-- `ready` is assigned; to true only in an open `mog`. -/
  | setReady (ready : Bool) (allowed : ready = false ∨ session.opened = true) :
    Occurs hash leveldb config session (.setReady ready)
      { session with mog := { session.mog with ready } }
  /-- An open `mog` is closed between two calls. -/
  | closeDb (opened : session.opened = true) (rest : session.caller.pc.atRest = true) :
    Occurs hash leveldb config session .closeDb
      { session with mog := session.mog.closeDb hash leveldb, opened := false }
  /-- A closed `mog` is opened between two calls. -/
  | openDb (closed : session.opened = false) (rest : session.caller.pc.atRest = true) :
    Occurs hash leveldb config session .openDb
      { session with mog := session.mog.openDb leveldb config, opened := true }
  /-- The files change while the `mog` is closed. -/
  | changeFiles (files : String → Option (List UInt8)) (closed : session.opened = false)
    (rest : session.caller.pc.atRest = true) :
    Occurs hash leveldb config session (.changeFiles files) { session with files }

/-- Every event is one of these. -/
theorem step_occurs {session later : Session Db} {event : Event}
    (stepped : (machine hash leveldb config).step session event = some later) :
    Occurs hash leveldb config session event later := by
  cases event with
  | step =>
    obtain ⟨⟨mog, caller⟩, taken, rfl⟩ := Option.map_eq_some_iff.mp stepped
    exact .step mog caller taken
  | flush blockId =>
    obtain ⟨storage, ran, rfl⟩ := Option.map_eq_some_iff.mp stepped
    exact .flush blockId storage ran
  | call call =>
    obtain ⟨rest, same⟩ := Option.ite_none_right_eq_some.mp stepped
    obtain rfl := Option.some.inj same
    exact .call call rest
  | fetch blockId =>
    obtain ⟨scheduled, same⟩ := Option.ite_none_right_eq_some.mp stepped
    obtain rfl := Option.some.inj same
    exact .fetch blockId scheduled
  | setReady ready =>
    obtain ⟨allowed, same⟩ := Option.ite_none_right_eq_some.mp stepped
    obtain rfl := Option.some.inj same
    exact .setReady ready allowed
  | closeDb =>
    obtain ⟨⟨opened, rest⟩, same⟩ := Option.ite_none_right_eq_some.mp stepped
    obtain rfl := Option.some.inj same
    exact .closeDb opened rest
  | openDb =>
    obtain ⟨⟨closed, rest⟩, same⟩ := Option.ite_none_right_eq_some.mp stepped
    obtain rfl := Option.some.inj same
    exact .openDb closed rest
  | changeFiles files =>
    obtain ⟨⟨closed, rest⟩, same⟩ := Option.ite_none_right_eq_some.mp stepped
    obtain rfl := Option.some.inj same
    exact .changeFiles files closed rest

end Mog

end CudaDb
