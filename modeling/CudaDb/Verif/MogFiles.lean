import CudaDb.Verif.MogRead

/-!
# Files behind their hashed paths

`read_file` caches a file under the decimal text of the hash of its path. In every run of
`read_file` calls, with the tasks in between and resets between the calls, what the stores hold
under a key is the file of some path that has this key. So a call returns what a direct read of
its path gives, or the file of a path whose key has the same hash.
-/

namespace CudaDb.Mog

variable {Db : Type*} {hash : String → UInt64} {leveldb : LevelDb Db} {config : MogConfig}
  {files : String → Option (List UInt8)} {paths : Set String} {mog next : Mog Db}
  {caller after : Caller} {right : String → List UInt8 → Prop}

/-- The file of the path, unless it is too long to be served. -/
def readable (files : String → Option (List UInt8)) (path : String) : Option (List UInt8) :=
  (files path).filter fun file => file.length ≤ maxFileLength

/-- What a direct read of the path gives: the bytes of the file, or none. -/
def direct (files : String → Option (List UInt8)) (path : String) : List UInt8 :=
  (readable files path).getD []

/-- A file that is served is one of the files. -/
theorem files_of_readable {path : String} {file : List UInt8}
    (read : readable files path = some file) : files path = some file :=
  (Option.filter_eq_some_iff.mp read).1

/-- A file that is served is not too long. -/
theorem short_of_readable {path : String} {file : List UInt8}
    (read : readable files path = some file) : file.length ≤ maxFileLength := by
  simpa using (Option.filter_eq_some_iff.mp read).2

/-- A file that is missing or too long is not served. -/
theorem readable_eq_none {path : String}
    (unread : ∀ file, files path = some file → file.length > maxFileLength) :
    readable files path = none := by
  unfold readable
  cases found : files path with
  | none => rfl
  | some file => simp [Option.filter_some, unread file found]

/-- A file that is not too long is served. -/
theorem readable_eq_some {path : String} {file : List UInt8} (found : files path = some file)
    (short : file.length ≤ maxFileLength) : readable files path = some file := by
  simp [readable, found, Option.filter_some, short]

/-- The value is the file of one of the paths that have the key. -/
def FileOf (hash : String → UInt64) (paths : Set String) (files : String → Option (List UInt8))
    (key : String) (value : List UInt8) : Prop :=
  ∃ path ∈ paths, keyOf hash path = key ∧ readable files path = some value

/-- What `read_file` may return for a path: its file, or that of a path whose key has the same
hash. -/
def Serves (hash : String → UInt64) (paths : Set String) (files : String → Option (List UInt8))
    (path : String) (value : List UInt8) : Prop :=
  value = direct files path ∨ ∃ other ∈ paths,
    hash (keyOf hash other) = hash (keyOf hash path) ∧ readable files other = some value

/-! ## What the stores hold -/

/-- The stores hold right values. -/
structure Caches (leveldb : LevelDb Db) (right : String → List UInt8 → Prop) (mog : Mog Db) :
    Prop where
  /-- The buffered values are right for their keys. -/
  buffered : ∀ hashed info, mog.storage.buffer.kvStore.lookup hashed = some info →
    right info.key info.value
  /-- The records denote right values. -/
  disk : ∀ key info, CentraIndex.getInfo leveldb mog.storage.db key = some info →
    ∃ value, right key value ∧ Storage.slice mog.storage.hdd info = some value
  /-- The values in the RAM cache are right. -/
  ram : mog.ram.Holds right

/-- A `mog` that has just been opened holds nothing. -/
theorem openDb_caches (cleared : mog.Cleared) (leveldb : LevelDb Db) (config : MogConfig) :
    (mog.openDb leveldb config).Caches leveldb right := by
  constructor
  · intro hashed info found
    have empty : (mog.openDb leveldb config).storage.buffer.kvStore = ∅ := cleared.kvStore
    rw [empty] at found
    cases found
  · intro key info found
    have fresh : CentraIndex.getInfo leveldb (mog.openDb leveldb config).storage.db key = none :=
      CentraIndex.getInfo_setup leveldb key
    rw [fresh] at found
    cases found
  · intro key item found
    have empty : (mog.openDb leveldb config).ram.cachedItem = ∅ := cleared.cachedItem
    rw [empty] at found
    cases found

/-- A flush moves right values to the disk. -/
theorem runFlush_caches {pc : MogPc} {storage : Storage Db} {blockId : Nat}
    (opened : mog.Opened hash leveldb pc) (caches : mog.Caches leveldb right)
    (ran : mog.storage.runFlush hash leveldb blockId = some storage) :
    ({ mog with storage } : Mog Db).Caches leveldb right := by
  refine ⟨fun hashed info found =>
    caches.buffered hashed info (Storage.runFlush_kvStore ran found), ?_, caches.ram⟩
  intro key info found
  have grown := runFlush_extends opened ran
  obtain ⟨-, rfl⟩ := Storage.runFlush_eq_some.mp ran
  have taken := opened.storage.withPool (mog.storage.buffer.flushThreadPool.erase blockId)
  rcases Storage.flush_index _ hash leveldb blockId key with
    ⟨entry, inside, rfl, record, put, -, -, -, slice⟩ | ⟨-, unchanged⟩
  · have same : record = info := Option.some.inj (put.symm.trans found)
    refine ⟨entry.value, caches.buffered _ entry (Storage.entry_stored taken.buffer inside), ?_⟩
    rw [← same]
    exact slice
  · obtain ⟨value, own, slice⟩ := caches.disk key info (unchanged.symm.trans found)
    exact ⟨value, own, slice_extends grown slice⟩

/-! ## The calls of `read_file` -/

/-- Where a call of `read_file` on one of the paths stands, and what it carries. -/
def Filing (hash : String → UInt64) (paths : Set String) (files : String → Option (List UInt8)) :
    MogPc → Prop
  | .idle | .done _ _ => True
  | .testReady path | .readDirect path => path ∈ paths
  | .readBuffer reader key | .findItem reader key | .copyItem reader key | .getIndex reader key
  | .readSsd reader key _ | .insertItem reader key _ =>
    ∃ path ∈ paths, reader = .file path ∧ key = keyOf hash path
  | .openFile path key => path ∈ paths ∧ key = keyOf hash path
  | .testTotal path key buffer =>
    path ∈ paths ∧ key = keyOf hash path ∧ readable files path = some buffer
  | .buffer writer pc => ∃ path ∈ paths, ∃ buffer, writer = .insert path buffer ∧
    readable files path = some buffer ∧
    ∀ key value, pc.call = some (key, value) → key = keyOf hash path ∧ value = buffer
  | .addTotal path buffer => path ∈ paths ∧ readable files path = some buffer
  | .syncSsd => False

/-- The accesses of a read are those of `read_file` on one of the paths. -/
theorem filing_reading {pc : MogPc} {reader : Reader} {key : String}
    (reads : pc.reading = some (reader, key)) :
    Filing hash paths files pc ↔ ∃ path ∈ paths, reader = .file path ∧ key = keyOf hash path := by
  cases pc with
  | readBuffer | findItem | copyItem | getIndex | readSsd | insertItem =>
    obtain ⟨rfl, rfl⟩ := Prod.mk.inj (Option.some.inj reads)
    exact Iff.rfl
  | _ => cases reads

/-- A call that has returned has returned something that it may. -/
def Returns (hash : String → UInt64) (paths : Set String) (files : String → Option (List UInt8))
    (caller : Caller) : Prop :=
  ∀ path result, caller.pc = .done (.readFile path) result → path ∈ paths ∧
    ∃ value, Serves hash paths files path value ∧ result = value.length ∧
      caller.value.StartsWith value

/-- A path without a file to be served reads as nothing. -/
theorem returns_nothing {path : String} (inside : path ∈ paths)
    (unread : readable files path = none) (value : ByteMemory) :
    Returns hash paths files { pc := .done (.readFile path) 0, value } := by
  intro other result done
  obtain ⟨call, same⟩ := MogPc.done.inj done
  obtain rfl := MogCall.readFile.inj call
  have nothing : direct files path = [] := by rw [direct, unread, Option.getD_none]
  exact ⟨inside, [], Or.inl nothing.symm, same.symm, ByteMemory.startsWith_nil value⟩

/-- The file of the path is returned. -/
theorem returns_file {path : String} {file : List UInt8} (inside : path ∈ paths)
    (read : readable files path = some file) (value : ByteMemory) :
    Returns hash paths files
      { pc := .done (.readFile path) file.length, value := value.write file } := by
  intro other result done
  obtain ⟨call, same⟩ := MogPc.done.inj done
  obtain rfl := MogCall.readFile.inj call
  have whole : direct files path = file := by rw [direct, read, Option.getD_some]
  exact ⟨inside, file, Or.inl whole.symm, same.symm, ByteMemory.write_startsWith value file⟩

/-- A call that goes on has returned nothing. -/
theorem returns_of_running (running : caller.pc.atRest = false) :
    Returns hash paths files caller := by
  intro path result done
  rw [done] at running
  cases running

/-- An access outside a read keeps a call of `read_file` on its way; what it returns is the
direct read. -/
theorem step_filing (filing : Filing hash paths files caller.pc)
    (no_read : caller.pc.reading = none)
    (stepped : mog.step hash leveldb config files caller = some (next, after)) :
    Filing hash paths files after.pc ∧ Returns hash paths files after := by
  obtain ⟨pc, value⟩ := caller
  cases step_access stepped with
  | ready path => exact ⟨⟨path, filing, rfl, rfl⟩, returns_of_running rfl⟩
  | unready path => exact ⟨filing, returns_of_running rfl⟩
  | directNothing path unread =>
    exact ⟨trivial, returns_nothing filing (readable_eq_none unread) value⟩
  | directFile path file found short =>
    exact ⟨trivial, returns_file filing (readable_eq_some found short) value⟩
  | fileNothing path key unread =>
    exact ⟨trivial, returns_nothing filing.1 (readable_eq_none unread) value⟩
  | fileRead path key file found short =>
    exact ⟨⟨filing.1, filing.2, readable_eq_some found short⟩, returns_of_running rfl⟩
  | admitted path key buffer =>
    obtain ⟨inside, named, read⟩ := filing
    refine ⟨⟨path, inside, buffer, rfl, read, fun other bytes call => ?_⟩, returns_of_running rfl⟩
    obtain ⟨same, whole, -⟩ := WriteBuffer.write_call call
    exact ⟨same.trans named, whole⟩
  | uncached path key buffer =>
    obtain ⟨inside, -, read⟩ := filing
    exact ⟨trivial, returns_file inside read value⟩
  | bufferStep writer inner later stored taken =>
    obtain ⟨path, inside, buffer, rfl, read, about⟩ := filing
    exact ⟨⟨path, inside, buffer, rfl, read, fun key value call =>
      about key value (WriteBuffer.step_call taken call)⟩, returns_of_running rfl⟩
  | bufferReturned writer status =>
    obtain ⟨path, inside, buffer, rfl, read, -⟩ := filing
    exact ⟨⟨inside, read⟩, returns_of_running rfl⟩
  | charged path buffer => exact ⟨trivial, returns_file filing.1 filing.2 value⟩
  | synced => exact filing.elim
  | _ => cases no_read

/-- An access outside a read keeps the stores holding files under the keys of their paths. -/
theorem step_caches (opened : mog.Opened hash leveldb caller.pc)
    (caches : mog.Caches leveldb (FileOf hash paths files))
    (filing : Filing hash paths files caller.pc)
    (step : OtherStep hash right mog next caller after) :
    next.Caches leveldb (FileOf hash paths files) := by
  refine ⟨?_, by rw [step.db, step.hdd]; exact caches.disk, by rw [step.ram]; exact caches.ram⟩
  intro hashed info found
  rcases step.buffer with same | ⟨writer, inner, later, ssdFull, standing, -, taken⟩
  · rw [same] at found
    exact caches.buffered hashed info found
  rw [standing] at filing opened
  obtain ⟨path, inside, buffer, -, read, about⟩ := filing
  rcases (WriteBuffer.step_kept opened.storage.buffer opened.short taken).2 with
    ⟨key, value, locked, -, -, stored⟩ | ⟨unchanged, -⟩
  · rw [stored, Table.lookup_insert_if] at found
    split at found
    · obtain rfl := Option.some.inj found
      have call : inner.call = some (key, value) := by
        have here : inner = .locked key value := locked
        rw [here]
        rfl
      obtain ⟨named, whole⟩ := about key value call
      exact ⟨path, inside, named.symm, whole ▸ read⟩
    · exact caches.buffered hashed info found
  · rw [unchanged] at found
    exact caches.buffered hashed info found

/-! ## Whole runs -/

/-- An open `mog` in a run of `read_file` calls. -/
structure Working (hash : String → UInt64) (leveldb : LevelDb Db) (paths : Set String)
    (files : String → Option (List UInt8)) (mog : Mog Db) (caller : Caller) : Prop where
  /-- The stores are coherent. -/
  opened : mog.Opened hash leveldb caller.pc
  /-- They hold files under the keys of their paths. -/
  caches : mog.Caches leveldb (FileOf hash paths files)
  /-- A read knows what it must. -/
  reading : Reading hash (FileOf hash paths files) mog caller.value caller.pc
  /-- A call is on one of the paths and carries its file. -/
  filing : Filing hash paths files caller.pc

/-- What an access of a read does in a working `mog`. -/
theorem Working.readStep {reader : Reader} {key : String}
    (working : Working hash leveldb paths files mog caller)
    (reads : caller.pc.reading = some (reader, key))
    (stepped : mog.step hash leveldb config files caller = some (next, after)) :
    ReadStep hash leveldb (FileOf hash paths files) mog next after reader key := by
  have disk : mog.DiskHolds hash leveldb (FileOf hash paths files) key :=
    fun info _ found => working.caches.disk key info found
  exact step_reading working.opened working.caches.ram disk working.reading reads stepped

/-- What a read of a path's key delivers may be returned for the path. -/
theorem serves_of_answer {pc : MogPc} {path : String} {value : List UInt8}
    (opened : mog.Opened hash leveldb pc) (caches : mog.Caches leveldb (FileOf hash paths files))
    (answer : Answer hash leveldb (FileOf hash paths files) mog (keyOf hash path) value)
    (some_bytes : value.length > 0) : Serves hash paths files path value := by
  cases answer with
  | held value own =>
    obtain ⟨other, inside, same, read⟩ := own
    exact Or.inr ⟨other, inside, congrArg hash same, read⟩
  | buffered info found =>
    obtain ⟨other, inside, same, read⟩ := caches.buffered _ info found
    have hashed : hash info.key = hash (keyOf hash path) :=
      (opened.storage.buffer.entries _ info found).1
    exact Or.inr ⟨other, inside, (congrArg hash same).trans hashed, read⟩
  | absent missed unknown => cases some_bytes

/-- Every access keeps an open `mog` working and returns only what may be returned. -/
theorem step_working (working : Working hash leveldb paths files mog caller)
    (stepped : mog.step hash leveldb config files caller = some (next, after)) :
    Working hash leveldb paths files next after ∧ Returns hash paths files after := by
  have opened := step_opened working.opened stepped
  cases reads : caller.pc.reading with
  | none =>
    have step := step_other (FileOf hash paths files) reads stepped
    obtain ⟨filing, returns⟩ := step_filing working.filing reads stepped
    have caches := step_caches working.opened working.caches working.filing step
    exact ⟨⟨opened, caches, step.reading, filing⟩, returns⟩
  | some asked =>
    obtain ⟨reader, key⟩ := asked
    obtain ⟨path, inside, rfl, rfl⟩ := (filing_reading reads).mp working.filing
    have step := working.readStep reads stepped
    have caches : next.Caches leveldb (FileOf hash paths files) := by
      refine ⟨?_, ?_, step.ram⟩
      · rw [step.storage]
        exact working.caches.buffered
      · rw [step.storage]
        exact working.caches.disk
    rcases step.outcome with ⟨goes_on, knows⟩ | ⟨value, answer, returned, starts⟩
    · have filing : Filing hash paths files after.pc :=
        (filing_reading goes_on).mpr ⟨path, inside, rfl, rfl⟩
      refine ⟨⟨opened, caches, knows, filing⟩, ?_⟩
      intro other result done
      rw [done] at goes_on
      cases goes_on
    · have knows : Reading hash (FileOf hash paths files) next after.value after.pc := by
        rw [returned]
        exact reading_afterRead _ _ _
      by_cases bytes : value.length > 0
      · rw [afterRead, if_pos bytes] at returned
        refine ⟨⟨opened, caches, knows, by rw [returned]; trivial⟩, ?_⟩
        intro other result done
        obtain ⟨call, same⟩ := MogPc.done.inj (returned.symm.trans done)
        obtain rfl := MogCall.readFile.inj call
        exact ⟨inside, value,
          serves_of_answer working.opened working.caches answer bytes, same.symm, starts⟩
      · rw [afterRead, if_neg bytes] at returned
        refine ⟨⟨opened, caches, knows, by rw [returned]; exact ⟨inside, rfl⟩⟩, ?_⟩
        intro other result done
        rw [returned] at done
        cases done

end CudaDb.Mog
