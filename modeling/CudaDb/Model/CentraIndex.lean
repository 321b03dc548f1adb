import CudaDb.Lib.Table

/-!
# The central index

`CentraIndex` keeps one record for each key in a leveldb database: where the value of the key
lies in the block files. Of leveldb the code relies on three documented facts, which a `LevelDb`
carries: a new database is empty, a get after a put returns what was put, and a put leaves the
other keys alone. The definitions follow `CentraIndex.cpp`.
-/

namespace CudaDb

/-- `IndexInfo` — where a value lies. -/
structure IndexInfo where
  /-- The block, which is the name of its file. -/
  blockId : Nat
  /-- Position of the first byte in the file. -/
  offset : Nat
  /-- Length in bytes. -/
  length : Nat
  /-- The slab type of the length. -/
  lengthType : Nat
  deriving DecidableEq

/-- The two kinds of record that the code puts into the index. -/
inductive IndexRecord
  /-- The 8 bytes put under `FILE_NUM` by `mog::create`. -/
  | fileNum (initialBlockId : Nat)
  /-- An `IndexInfo`. -/
  | info (info : IndexInfo)
  deriving DecidableEq

/-- `sizeof` of the record. -/
def IndexRecord.size : IndexRecord → Nat
  | .fileNum _ => 8
  | .info _ => 32

/-- The databases of one leveldb implementation, with what the code relies on. -/
structure LevelDb (Db : Type*) where
  /-- `leveldb_open` of a directory that does not exist. -/
  create : Db
  /-- `leveldb_put`. -/
  put : Db → String → IndexRecord → Db
  /-- `leveldb_get`. -/
  get : Db → String → Option IndexRecord
  /-- A new database is empty. -/
  get_create : ∀ key, get create key = none
  /-- A put is seen under its key and nowhere else. -/
  get_put : ∀ db key record asked,
    get (put db key record) asked = if asked = key then some record else get db asked

attribute [simp] LevelDb.get_create LevelDb.get_put

/-- A database that is a table in memory. -/
def LevelDb.table : LevelDb (Table String IndexRecord) where
  create := ∅
  put db key record := db.insert key record
  get db key := db.lookup key
  get_create := Finmap.lookup_empty
  get_put db key record asked := Table.lookup_insert_if db asked key record

namespace CentraIndex

variable {Db : Type*}

/-- `CentraIndex::setup` in a fresh directory, and the record that `mog::create` puts there. -/
def setup (leveldb : LevelDb Db) : Db := leveldb.put leveldb.create "FILE_NUM" (.fileNum 0)

/-- `CentraIndex::get` — the record, if the buffer is long enough for it. -/
def get (leveldb : LevelDb Db) (db : Db) (key : String) (bufferLength : Nat) :
    Option IndexRecord :=
  (leveldb.get db key).filter fun record => record.size ≤ bufferLength

/-- The read of an `IndexInfo` — `get` into a buffer of its size, taken only if it is filled. -/
def getInfo (leveldb : LevelDb Db) (db : Db) (key : String) : Option IndexInfo :=
  match get leveldb db key 32 with
  | some (.info info) => some info
  | _ => none

/-- A put of an `IndexInfo` is read back under its key and changes no other read. -/
theorem getInfo_put (leveldb : LevelDb Db) (db : Db) (key asked : String) (info : IndexInfo) :
    getInfo leveldb (leveldb.put db key (.info info)) asked =
      if asked = key then some info else getInfo leveldb db asked := by
  unfold getInfo get
  rw [leveldb.get_put]
  by_cases same : asked = key
  · simp [same, Option.filter, IndexRecord.size]
  · simp [same]

/-- A new index holds no `IndexInfo`. -/
theorem getInfo_setup (leveldb : LevelDb Db) (key : String) :
    getInfo leveldb (setup leveldb) key = none := by
  unfold getInfo get setup
  rw [leveldb.get_put, leveldb.get_create]
  by_cases same : key = "FILE_NUM" <;> simp [same, Option.filter, IndexRecord.size]

end CentraIndex

end CudaDb
