import CudaDb.Verif.MogTransparent

/-!
# When a path is served the file of another

`read_file` uses the decimal text of the hash of a path as its key, and the write buffer compares
the hashes of the keys. Whatever the hash, a call returns the contents of no file but its own and
those of paths whose keys have the same hash; two paths with one hash show that it can return
these.
-/

namespace CudaDb.Mog

variable {Db : Type*} {hash : String → UInt64} {leveldb : LevelDb Db} {config : MogConfig}
  {paths : Set String} {session next : Session Db}

/-- A memory starts with at most one list of bytes of each length. -/
theorem startsWith_unique {memory : ByteMemory} {first second : List UInt8}
    (length : first.length = second.length) (left : memory.StartsWith first)
    (right : memory.StartsWith second) : first = second := by
  have left_read := (memory.startsWith_iff_take first).mp left
  have right_read := (memory.startsWith_iff_take second).mp right
  rw [← left_read, ← right_read, length]

/-- In every run of `read_file` calls, whatever the hash: contents that a call returns are those
of its path, or those of a path of the run whose key has the same hash as the key of the path. -/
theorem contents_by_key {events : List Event} (reads : ∀ event ∈ events, event.ReadsFiles paths)
    {files : String → Option (List UInt8)} {value : ByteMemory}
    (ran : (machine hash leveldb config).run (start leveldb files value) events = some session)
    (stepped : (machine hash leveldb config).step session .step = some next)
    {path : String} {contents : List UInt8}
    (returned : next.caller.pc = .done (.readFile path) contents.length)
    (starts : next.caller.value.StartsWith contents) :
    contents = direct session.files path ∨ ∃ other ∈ paths,
      hash (keyOf hash other) = hash (keyOf hash path) ∧ session.files other = some contents := by
  obtain ⟨-, value, serves, length, own⟩ := run_returns reads ran stepped path _ returned
  have same : contents = value :=
    startsWith_unique (Int.natCast_inj.mp length) starts own
  rw [same]
  rcases serves with direct_read | ⟨other, inside, hashed, read⟩
  · exact Or.inl direct_read
  · exact Or.inr ⟨other, inside, hashed, files_of_readable read⟩

/-- A hash that tells nothing apart. -/
def sameHash (_ : String) : UInt64 := 0

/-- Two files. -/
def twoFiles (path : String) : Option (List UInt8) :=
  if path = "a" then some [1] else if path = "b" then some [2] else none

/-- The first file is read and buffered, and then the second is read up to the lookup in the
buffer. -/
def readBoth : List Event :=
  [.call (.readFile "a")] ++ List.replicate 11 .step ++ [.call (.readFile "b"), .step]

/-- Where all hashes are equal, the second path is served the file of a path with its key. -/
theorem contents_by_equal_key :
    ∃ session next,
      (machine sameHash LevelDb.table MogConfig.oneBlock).run
        (start LevelDb.table twoFiles fun _ => 0) (.openDb :: readBoth) = some session ∧
      (machine sameHash LevelDb.table MogConfig.oneBlock).step session .step = some next ∧
      next.caller.value.StartsWith [1] ∧
      ([1] = direct session.files "b" ∨ ∃ other ∈ ({"a", "b"} : Set String),
        sameHash (keyOf sameHash other) = sameHash (keyOf sameHash "b") ∧
          session.files other = some [1]) := by
  have executed : ∃ session next,
      (machine sameHash LevelDb.table MogConfig.oneBlock).run
        (start LevelDb.table twoFiles fun _ => 0) (.openDb :: readBoth) = some session ∧
      (machine sameHash LevelDb.table MogConfig.oneBlock).step session .step = some next ∧
      next.caller.pc = .done (.readFile "b") 1 ∧
      next.caller.value.take 1 = [1] := ⟨_, _, rfl, rfl, rfl, rfl⟩
  obtain ⟨session, next, ran, stepped, returned, delivered⟩ := executed
  have reads : ∀ event ∈ Event.openDb :: readBoth, event.ReadsFiles {"a", "b"} := by
    simp [readBoth, Event.ReadsFiles]
  have starts : next.caller.value.StartsWith [1] :=
    (ByteMemory.startsWith_iff_take _ _).mpr delivered
  exact ⟨session, next, ran, stepped, starts, contents_by_key reads ran stepped returned starts⟩

/-- The calls of `read_file` and the flushes in between. -/
def Event.Serves : Event → Prop
  | .call (.readFile _) | .step | .flush _ => True
  | _ => False

/-- Two paths with one hash have one key, and the second is served the file of the first. -/
theorem not_isolated_of_equal_hash :
    ¬ ∀ (hash : String → UInt64) (files : String → Option (List UInt8)) (events : List Event)
      (session next : Session (Table String IndexRecord)) (path other : String)
      (contents : List UInt8),
      (∀ event ∈ events, event.Serves) →
      (machine hash LevelDb.table MogConfig.oneBlock).run
        (startOpen LevelDb.table MogConfig.oneBlock files fun _ => 0) events = some session →
      (machine hash LevelDb.table MogConfig.oneBlock).step session .step = some next →
      path ≠ other → files other = some contents →
      next.caller.pc = .done (.readFile path) contents.length →
      next.caller.value.StartsWith contents → files path = some contents := by
  intro always
  have executed : ∃ session next,
      (machine sameHash LevelDb.table MogConfig.oneBlock).run
        (startOpen LevelDb.table MogConfig.oneBlock twoFiles fun _ => 0) readBoth = some session ∧
      (machine sameHash LevelDb.table MogConfig.oneBlock).step session .step = some next ∧
      next.caller.pc = .done (.readFile "b") 1 ∧
      next.caller.value.take 1 = [1] := ⟨_, _, rfl, rfl, rfl, rfl⟩
  obtain ⟨session, next, ran, stepped, returned, delivered⟩ := executed
  have serves : ∀ event ∈ readBoth, event.Serves := by simp [readBoth, Event.Serves]
  have starts : next.caller.value.StartsWith [1] :=
    (ByteMemory.startsWith_iff_take _ _).mpr delivered
  have equal := always sameHash twoFiles readBoth session next "b" "a" [1] serves ran stepped
    (by decide) rfl returned starts
  cases equal

end CudaDb.Mog
