import CudaDb.Model.WriteBuffer
import CudaDb.Model.CpuCache
import CudaDb.Model.SSDCache

/-!
# The cache server's store

`Mog` puts the write buffer, the RAM cache, the index and the SSD cache together. A call of
`read`, `read_file`, `write` or `sync` goes from one access of the shared state to the next;
each access is one step, and the flush and fetch tasks run between them. The definitions follow
`mog.cpp` and `CpuCache::read`; `files` are the regular files of the file system that
`read_file` is asked for.
-/

namespace CudaDb

/-- The parameters that `mog::initial_para` sets; sizes are in pages of `pageSize` bytes. -/
structure MogConfig where
  /-- `page_size`, which the code sets to 1 MiB. -/
  pageSize : Nat
  /-- `cpu_page_num`. -/
  cpuPageNum : Nat
  /-- `SSD_page_num`. -/
  ssdPageNum : Nat
  /-- `HDD_page_num`. -/
  hddPageNum : Nat
  /-- `page_per_block`. -/
  pagePerBlock : Nat
  /-- `buffer_page_num`. -/
  bufferPageNum : Nat

/-- `mog::initial_para` — from `RAM_Cache_Size`, `SSD_Cache_Size`, `HDD_Cache_Size`, `Block_Size`
and `Buffer_Size`; all but the blocks are given in GiB. -/
def MogConfig.initialPara (ramCacheSize ssdCacheSize hddCacheSize blockSize bufferSize : Nat) :
    MogConfig where
  pageSize := 1024 * 1024
  cpuPageNum := ramCacheSize * 1024
  ssdPageNum := ssdCacheSize * 1024
  hddPageNum := hddCacheSize * 1024
  pagePerBlock := blockSize
  bufferPageNum := bufferSize * 1024

/-- Pages of 1 MiB in blocks of 64, with room for one block in each store. -/
def MogConfig.oneBlock : MogConfig where
  pageSize := 1024 * 1024
  cpuPageNum := 64
  ssdPageNum := 64
  hddPageNum := 64
  pagePerBlock := 64
  bufferPageNum := 64

/-- The state of a `mog` with the stores behind it. -/
structure Mog (Db : Type*) where
  /-- `ready`. -/
  ready : Bool
  /-- `total_size`, the bytes that `insert_file_with_copy` has written. -/
  totalSize : Int
  /-- `WriteBuffer`, `CentraIndex` and the files under `hdd_path`. -/
  storage : Storage Db
  /-- `CpuCache`. -/
  ram : CpuCache
  /-- `SSDCache` and the files under `ssd_path`. -/
  tier : SsdTier

/-- A call on a `mog`. -/
inductive MogCall
  /-- `mog::read`. -/
  | read (key : String)
  /-- `mog::read_file`. -/
  | readFile (path : String)
  /-- `mog::write`. -/
  | write (key : String) (value : List UInt8)
  /-- `mog::sync`. -/
  | sync

/-- Who has called `mog::read`. -/
inductive Reader
  /-- The caller of the `mog`. -/
  | caller
  /-- `mog::read_file`, for the path. -/
  | file (path : String)

/-- Who has called the write buffer. -/
inductive Writer
  /-- `mog::write`. -/
  | write (key : String) (value : List UInt8)
  /-- `mog::insert_file_with_copy`, with the contents of the file. -/
  | insert (path : String) (buffer : List UInt8)
  /-- `mog::sync`. -/
  | sync

/-- The access that a call makes next. -/
inductive MogPc
  /-- No call has been made. -/
  | idle
  /-- `if (!this->ready)` of `read_file`. -/
  | testReady (path : String)
  /-- The direct read of `read_file`. -/
  | readDirect (path : String)
  /-- `WriteBuffer::singleton().read(key, value)`. -/
  | readBuffer (reader : Reader) (key : String)
  /-- `cached_item.find(key)` of `CpuCache::read`. -/
  | findItem (reader : Reader) (key : String)
  /-- The copy of the slabs found, under the lock. -/
  | copyItem (reader : Reader) (key : String)
  /-- `CentraIndex::singleton().get(...)`. -/
  | getIndex (reader : Reader) (key : String)
  /-- `SSDCache::singleton().read(...)`. -/
  | readSsd (reader : Reader) (key : String) (info : IndexInfo)
  /-- `CpuCache::insert`. -/
  | insertItem (reader : Reader) (key : String) (info : IndexInfo)
  /-- The read of the file at the start of `insert_file_with_copy`. -/
  | openFile (path key : String)
  /-- The test of the length and of `total_size`. -/
  | testTotal (path key : String) (buffer : List UInt8)
  /-- Inside a call of the write buffer. -/
  | buffer (writer : Writer) (pc : WriteBuffer.Pc)
  /-- `total_size.fetch_add(length)`. -/
  | addTotal (path : String) (buffer : List UInt8)
  /-- `SSDCache::singleton().sync()`. -/
  | syncSsd
  /-- The call has returned. -/
  | done (call : MogCall) (result : Int)

/-- No call is being executed. -/
def MogPc.atRest : MogPc → Bool
  | .idle | .done _ _ => true
  | _ => false

/-- A caller with its value buffer. -/
structure Caller where
  /-- Where its call stands. -/
  pc : MogPc
  /-- `value`. -/
  value : ByteMemory

/-- `64*1024*1024`, the length of the longest file that is served. -/
def maxFileLength : Nat := 64 * 1024 * 1024

/-- `1024*1024`, the length of the longest file that is cached. -/
def maxValueLength : Nat := 1024 * 1024

/-- `std::to_string(std::hash<std::string> {}(path))`, the key of a path. -/
def keyOf (hash : String → UInt64) (path : String) : String := toString (hash path).toNat

namespace Mog

variable {Db : Type*}

/-- The start of a call. -/
def begin (call : MogCall) : MogPc :=
  match call with
  | .read key => .readBuffer .caller key
  | .readFile path => .testReady path
  | .write key value => .buffer (.write key value) (WriteBuffer.write key value)
  | .sync => .buffer .sync WriteBuffer.sync

/-- What follows the return of `mog::read`; `read_file` goes on to the file if it returned 0. -/
def afterRead (reader : Reader) (key : String) (length : Nat) : MogPc :=
  match reader with
  | .caller => .done (.read key) length
  | .file path => if length > 0 then .done (.readFile path) length else .openFile path key

/-- What follows the return of the write buffer. -/
def afterWrite (writer : Writer) (status : Int) : MogPc :=
  match writer with
  | .write key value => .done (.write key value) (if status = 0 then 0 else -1)
  | .insert path buffer => .addTotal path buffer
  | .sync => .syncSsd

/-- One access of a call. -/
def step (hash : String → UInt64) (leveldb : LevelDb Db) (config : MogConfig)
    (files : String → Option (List UInt8)) (mog : Mog Db) (caller : Caller) :
    Option (Mog Db × Caller) :=
  match caller.pc with
  | .idle | .done _ _ => none
  | .testReady path =>
    some (mog, { caller with
      pc := if mog.ready then .readBuffer (.file path) (keyOf hash path) else .readDirect path })
  | .readDirect path =>
    match files path with
    | none => some (mog, { caller with pc := .done (.readFile path) 0 })
    | some file =>
      if file.length > maxFileLength then
        some (mog, { caller with pc := .done (.readFile path) 0 })
      else
        some (mog, { pc := .done (.readFile path) file.length, value := caller.value.write file })
  | .readBuffer reader key =>
    let (length, value) := mog.storage.buffer.read hash key caller.value
    some (mog, {
      pc := if length > 0 then afterRead reader key length else .findItem reader key
      value })
  | .findItem reader key =>
    some (mog, { caller with
      pc := if key ∈ mog.ram.cachedItem then .copyItem reader key else .getIndex reader key })
  | .copyItem reader key =>
    (mog.ram.cachedItem.lookup key).map fun item =>
      let (length, value) := mog.ram.copyOut item caller.value
      (mog, { pc := afterRead reader key length, value })
  | .getIndex reader key =>
    match CentraIndex.getInfo leveldb mog.storage.db key with
    | none => some (mog, { caller with pc := afterRead reader key 0 })
    | some info => some (mog, { caller with pc := .readSsd reader key info })
  | .readSsd reader key info =>
    (mog.tier.read info mog.storage.hdd caller.value).map fun (tier, _, value) =>
      ({ mog with tier }, { pc := .insertItem reader key info, value })
  | .insertItem reader key info =>
    (mog.ram.insert key info caller.value).map fun ram =>
      ({ mog with ram }, { caller with pc := afterRead reader key info.length })
  | .openFile path key =>
    match files path with
    | none => some (mog, { caller with pc := .done (.readFile path) 0 })
    | some file =>
      if file.length > maxFileLength then
        some (mog, { caller with pc := .done (.readFile path) 0 })
      else some (mog, { caller with pc := .testTotal path key file })
  | .testTotal path key buffer =>
    -- `total_size <= 0.95*1024*1024*HDD_page_num`, with the exact rational.
    if buffer.length ≤ maxValueLength ∧
        100 * mog.totalSize ≤ 95 * 1024 * 1024 * config.hddPageNum then
      some (mog, { caller with
        pc := .buffer (.insert path buffer) (WriteBuffer.write key buffer) })
    else
      some (mog, { pc := .done (.readFile path) buffer.length, value := caller.value.write buffer })
  | .buffer writer (.returned status) =>
    some (mog, { caller with pc := afterWrite writer status })
  | .buffer writer pc =>
    (mog.storage.buffer.step hash
        (mog.tier.cache.blockNum ≥ mog.tier.cache.maxBlockNum) pc).map fun (after, buffer) =>
      ({ mog with storage := { mog.storage with buffer } },
        { caller with pc := .buffer writer after })
  | .addTotal path buffer =>
    some ({ mog with totalSize := mog.totalSize + buffer.length },
      { pc := .done (.readFile path) buffer.length, value := caller.value.write buffer })
  | .syncSsd =>
    if mog.tier.cache.threadPool = [] ∧ mog.tier.cache.unsyncedBlockId.keys = ∅ then
      some (mog, { caller with pc := .done .sync 0 })
    else none

/-! ## Opening and closing -/

/-- A `mog` after its constructor, with the stores that it has not opened yet. -/
def new (leveldb : LevelDb Db) : Mog Db where
  ready := false
  totalSize := 0
  storage := { buffer := WriteBuffer.new, db := leveldb.create, hdd := ∅ }
  ram := CpuCache.new
  tier := { cache := SSDCache.new 0, ssd := ∅ }

/-- `SSDCache::initial`, with the number of blocks that `mog::allocate_memory` sets. -/
def initialSsd (cache : SSDCache) (maxBlockNum : Nat) : SSDCache :=
  { cache with maxBlockNum, blockNum := 0, readNum := 0, threadPool := [] }

/-- `mog::open` — both directories are emptied, the index is created anew and every store is
initialised. -/
def openDb (leveldb : LevelDb Db) (config : MogConfig) (mog : Mog Db) : Mog Db :=
  { mog with
    ready := true
    storage :=
      { buffer := mog.storage.buffer.initial config.pageSize config.pagePerBlock
          config.bufferPageNum
        db := CentraIndex.setup leveldb
        hdd := ∅ }
    ram := (mog.ram.initial config.pageSize config.cpuPageNum).allocateMemory
    tier :=
      { cache := initialSsd mog.tier.cache (config.ssdPageNum / config.pagePerBlock)
        ssd := ∅ } }

/-- `WriteBuffer::close` — the maps are cleared; the destructor of the pool then runs every flush
that is still scheduled. -/
def closeBuffer (hash : String → UInt64) (leveldb : LevelDb Db) (storage : Storage Db) :
    Storage Db :=
  let cleared := { storage with buffer := { storage.buffer with
    kvStore := ∅
    blocks := ∅
    kvList := [] } }
  let flushed := storage.buffer.flushThreadPool.foldl (fun storage blockId =>
    storage.flush hash leveldb blockId) cleared
  { flushed with buffer := { flushed.buffer with flushThreadPool := [] } }

/-- `SSDCache::fetch`, with nothing between its steps. -/
def fetch (blockId : Nat) (tier : SsdTier) (hdd : Directory) : SsdTier :=
  if tier.cache.blockNum < tier.cache.maxBlockNum then
    match copyFile hdd tier.ssd blockId with
    | some ssd => (SsdTier.fetchSection blockId { tier with ssd }).getD { tier with ssd }
    | none => tier
  else tier

/-- The block of a scheduled fetch. -/
def scheduledFetch : SsdTask → Option Nat
  | .fetchTest blockId => some blockId
  | _ => none

/-- `SSDCache::close` — after the scheduled tasks have run the maps are cleared. Then `mog::close`
removes the files under `ssd_path`. -/
def closeSsd (tier : SsdTier) (hdd : Directory) : SsdTier :=
  let synced := (tier.cache.threadPool.filterMap scheduledFetch).foldl (fun tier blockId =>
    fetch blockId tier hdd) tier
  { cache := { synced.cache with
      unsyncedBlockId := ∅
      cachedBlock := ∅
      cachingBlock := ∅
      cachedBlockId := []
      readRecord := []
      threadPool := [] }
    ssd := ∅ }

/-- `mog::close`. -/
def closeDb (hash : String → UInt64) (leveldb : LevelDb Db) (mog : Mog Db) : Mog Db :=
  let storage := closeBuffer hash leveldb mog.storage
  { mog with
    ready := false
    storage
    ram := mog.ram.close
    tier := closeSsd mog.tier storage.hdd }

/-! ## Calls one after another -/

/-- A `mog` with a caller, who makes one call after another, and the files. -/
structure Session (Db : Type*) where
  /-- The store. -/
  mog : Mog Db
  /-- The caller. -/
  caller : Caller
  /-- The regular files by path. -/
  files : String → Option (List UInt8)
  /-- `mog::open` has returned and no `mog::close` has followed it. -/
  opened : Bool

/-- What can happen next. -/
inductive Event
  /-- The caller makes a call. -/
  | call (call : MogCall)
  /-- The call goes on to its next access. -/
  | step
  /-- A flush thread flushes a scheduled block. -/
  | flush (blockId : Nat)
  /-- A thread of the SSD cache fetches a scheduled block. -/
  | fetch (blockId : Nat)
  /-- The server assigns `ready` from outside; to true only after `open`. -/
  | setReady (ready : Bool)
  /-- `mog::close` is called between two calls. -/
  | closeDb
  /-- `mog::open` is called between two calls. -/
  | openDb
  /-- The files change while the stores are closed. -/
  | changeFiles (files : String → Option (List UInt8))

/-- Calls one after another, with the tasks in between and resets between the calls. -/
def machine (hash : String → UInt64) (leveldb : LevelDb Db) (config : MogConfig) :
    Machine (Session Db) Event where
  step session
    | .call call =>
      if session.caller.pc.atRest then
        some { session with caller := { session.caller with pc := begin call } }
      else none
    | .step =>
      (session.mog.step hash leveldb config session.files session.caller).map fun (mog, caller) =>
        { session with mog, caller }
    | .flush blockId =>
      (session.mog.storage.runFlush hash leveldb blockId).map fun storage =>
        { session with mog := { session.mog with storage } }
    | .fetch blockId =>
      if .fetchTest blockId ∈ session.mog.tier.cache.threadPool then
        let fetched := fetch blockId session.mog.tier session.mog.storage.hdd
        some { session with mog := { session.mog with
          tier := { fetched with cache := { fetched.cache with
            threadPool := fetched.cache.threadPool.erase (.fetchTest blockId) } } } }
      else none
    | .setReady ready =>
      if ready = false ∨ session.opened = true then
        some { session with mog := { session.mog with ready } }
      else none
    | .closeDb =>
      if session.opened = true ∧ session.caller.pc.atRest then
        some { session with mog := session.mog.closeDb hash leveldb, opened := false }
      else none
    | .openDb =>
      if session.opened = false ∧ session.caller.pc.atRest then
        some { session with mog := session.mog.openDb leveldb config, opened := true }
      else none
    | .changeFiles files =>
      if session.opened = false ∧ session.caller.pc.atRest then
        some { session with files }
      else none

/-- A session with a `mog` that was constructed and not opened. -/
def start (leveldb : LevelDb Db) (files : String → Option (List UInt8)) (value : ByteMemory) :
    Session Db where
  mog := new leveldb
  caller := { pc := .idle, value }
  files
  opened := false

/-- A session with a `mog` that has been opened. -/
def startOpen (leveldb : LevelDb Db) (config : MogConfig)
    (files : String → Option (List UInt8)) (value : ByteMemory) : Session Db where
  mog := (new leveldb).openDb leveldb config
  caller := { pc := .idle, value }
  files
  opened := true

end Mog

end CudaDb
