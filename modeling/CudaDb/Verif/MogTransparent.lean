import CudaDb.Verif.MogFiles

/-!
# The cache server is transparent where the hash tells paths apart

Along every run of `read_file` calls with flushes, fetches and resets, a call that returns has
returned its file or the file of a path whose key has the same hash. If the hash tells the paths
and their keys apart, that is what a direct read gives; if it does not, a wrong file can be
served.
-/

namespace CudaDb.Mog

variable {Db : Type*} {hash : String → UInt64} {leveldb : LevelDb Db} {config : MogConfig}
  {paths : Set String} {session next : Session Db} {event : Event}

/-- The calls are calls of `read_file` on these paths. -/
def Event.ReadsFiles (paths : Set String) : Event → Prop
  | .call (.readFile path) => path ∈ paths
  | .call _ => False
  | _ => True

/-- What holds in every run of `read_file` calls. -/
structure Session.Sound (hash : String → UInt64) (leveldb : LevelDb Db) (paths : Set String)
    (session : Session Db) : Prop where
  /-- An open `mog` works. -/
  working : session.opened = true →
    Working hash leveldb paths session.files session.mog session.caller
  /-- A closed `mog` is empty, and no call is in its stores. -/
  cleared : session.opened = false → session.mog.Cleared ∧ session.caller.pc.outside = true
  /-- A call is on one of the paths and carries its file. -/
  filing : Filing hash paths session.files session.caller.pc

/-- A caller at rest is in no store. -/
theorem outside_of_atRest {pc : MogPc} (rest : pc.atRest = true) : pc.outside = true := by
  cases pc <;> first | rfl | cases rest

/-- A caller at rest carries nothing. -/
theorem filing_of_atRest {pc : MogPc} (rest : pc.atRest = true)
    (files : String → Option (List UInt8)) : Filing hash paths files pc := by
  cases pc <;> trivial

/-- Outside the stores no call of the write buffer is made. -/
theorem bufferPc_of_outside {pc : MogPc} (outside : pc.outside = true) :
    pc.bufferPc = .returned 0 := by
  cases pc <;> first | rfl | cases outside

/-- Outside the stores nothing is known of them. -/
theorem reading_of_outside {right : String → List UInt8 → Prop} {pc : MogPc} {mog : Mog Db}
    (outside : pc.outside = true) (value : ByteMemory) : Reading hash right mog value pc := by
  cases pc <;> trivial

/-- A `mog` that is not ready is read around. -/
theorem step_cleared {mog next : Mog Db} {caller after : Caller}
    {files : String → Option (List UInt8)} (not_ready : mog.ready = false)
    (outside : caller.pc.outside = true)
    (stepped : mog.step hash leveldb config files caller = some (next, after)) :
    next = mog ∧ after.pc.outside = true := by
  obtain ⟨pc, value⟩ := caller
  cases step_access stepped with
  | ready path ready =>
    rw [not_ready] at ready
    cases ready
  | unready | directNothing | directFile => exact ⟨rfl, rfl⟩
  | _ => cases outside

/-- An access keeps the session sound and returns only what may be returned. -/
theorem access_sound (sound : session.Sound hash leveldb paths) {mog : Mog Db} {caller : Caller}
    (stepped : session.mog.step hash leveldb config session.files session.caller =
      some (mog, caller)) :
    ({ session with mog, caller } : Session Db).Sound hash leveldb paths ∧
      Returns hash paths session.files caller := by
  cases standing : session.opened with
  | true =>
    obtain ⟨working, returns⟩ := step_working (sound.working standing) stepped
    exact ⟨⟨fun _ => working, nofun, working.filing⟩, returns⟩
  | false =>
    obtain ⟨cleared, outside⟩ := sound.cleared standing
    have no_read : session.caller.pc.reading = none := by
      cases pc : session.caller.pc <;> first | rfl | (rw [pc] at outside; cases outside)
    obtain ⟨rfl, still⟩ := step_cleared cleared.ready outside stepped
    obtain ⟨filing, returns⟩ := step_filing sound.filing no_read stepped
    exact ⟨⟨nofun, fun _ => ⟨cleared, still⟩, filing⟩, returns⟩

/-- Every event keeps the session sound. -/
theorem step_sound (sound : session.Sound hash leveldb paths) (reads : event.ReadsFiles paths)
    (stepped : (machine hash leveldb config).step session event = some next) :
    next.Sound hash leveldb paths := by
  cases step_occurs stepped with
  | call call rest =>
    cases call with
    | readFile path =>
      have idle := bufferPc_of_outside (outside_of_atRest rest)
      refine ⟨fun opened => ?_, fun closed => ⟨(sound.cleared closed).1, rfl⟩, reads⟩
      have working := sound.working opened
      exact ⟨working.opened.moveIdle idle rfl, working.caches, trivial, reads⟩
    | _ => exact reads.elim
  | step mog caller taken => exact (access_sound sound taken).1
  | flush blockId storage ran =>
    refine ⟨fun opened => ?_, fun closed => ?_, sound.filing⟩
    · have working := sound.working opened
      exact ⟨runFlush_opened working.opened ran, runFlush_caches working.opened working.caches ran,
        runFlush_reading working.opened working.reading ran, working.filing⟩
    · have scheduled := (Storage.runFlush_eq_some.mp ran).1
      rw [(sound.cleared closed).1.flushThreadPool] at scheduled
      cases scheduled
  | fetch blockId scheduled =>
    refine ⟨fun opened => ?_, fun closed => ?_, sound.filing⟩
    · have working := sound.working opened
      exact ⟨fetch_opened working.opened blockId _,
        ⟨working.caches.buffered, working.caches.disk, working.caches.ram⟩,
        fetch_reading working.reading _, working.filing⟩
    · rw [(sound.cleared closed).1.threadPool] at scheduled
      cases scheduled
  | setReady ready allowed =>
    refine ⟨fun opened => ?_, fun closed => ?_, sound.filing⟩
    · obtain ⟨coherent, caches, reading, filing⟩ := sound.working opened
      exact ⟨coherent.withReady ready, ⟨caches.buffered, caches.disk, caches.ram⟩,
        reading_withReady reading ready, filing⟩
    · obtain ⟨cleared, outside⟩ := sound.cleared closed
      exact ⟨cleared.withReady closed allowed, outside⟩
  | closeDb opened rest =>
    exact ⟨nofun, fun _ => ⟨closeDb_cleared hash leveldb session.mog, outside_of_atRest rest⟩,
      sound.filing⟩
  | openDb closed rest =>
    obtain ⟨cleared, outside⟩ := sound.cleared closed
    exact ⟨fun _ => ⟨openDb_opened cleared leveldb config outside,
      openDb_caches cleared leveldb config, reading_of_outside outside _, sound.filing⟩, nofun,
      sound.filing⟩
  | changeFiles files closed rest =>
    refine ⟨fun opened => ?_, sound.cleared, filing_of_atRest rest files⟩
    cases closed.symm.trans opened

/-- In every run from the start the session is sound. -/
theorem run_sound {events : List Event} (reads : ∀ event ∈ events, event.ReadsFiles paths)
    {files : String → Option (List UInt8)} {value : ByteMemory}
    (ran : (machine hash leveldb config).run (start leveldb files value) events = some session) :
    session.Sound hash leveldb paths := by
  have initially : (start leveldb files value).Sound hash leveldb paths :=
    ⟨nofun, fun _ => ⟨new_cleared leveldb, rfl⟩, trivial⟩
  exact Machine.run_invariant_along _
    (fun state event next sound reads stepped => step_sound sound reads stepped) initially
    (Machine.along_of_mem reads _) ran

/-- A call that returns in a run has returned its file, or that of a path of the run whose key
has the same hash. -/
theorem run_returns {events : List Event} (reads : ∀ event ∈ events, event.ReadsFiles paths)
    {files : String → Option (List UInt8)} {value : ByteMemory}
    (ran : (machine hash leveldb config).run (start leveldb files value) events = some session)
    (stepped : (machine hash leveldb config).step session .step = some next) :
    Returns hash paths session.files next.caller := by
  obtain ⟨⟨mog, caller⟩, taken, rfl⟩ := Option.map_eq_some_iff.mp stepped
  exact (access_sound (run_sound reads ran) taken).2

/-! ## Paths that the hash tells apart -/

/-- Paths with the same key have the same hash. -/
theorem keyOf_injective {first second : String} (same : keyOf hash first = keyOf hash second) :
    hash first = hash second := by
  unfold keyOf at same
  exact UInt64.toNat_inj.mp (Nat.repr_injective same)

/-- In every run of `read_file` calls, one after another, with the flush and fetch tasks in
between, with resets between the calls, with `ready` set and cleared at any time, and with files
that change only while the stores are closed: where the hash tells the paths and their keys
apart, every call that returns has returned the length of a direct read, with its bytes at the
front of the buffer. -/
theorem readFile_eq_direct (paths_apart : Set.InjOn hash paths)
    (keys_apart : Set.InjOn hash (keyOf hash '' paths)) {events : List Event}
    (reads : ∀ event ∈ events, event.ReadsFiles paths)
    {files : String → Option (List UInt8)} {value : ByteMemory}
    (ran : (machine hash leveldb config).run (start leveldb files value) events = some session)
    (stepped : (machine hash leveldb config).step session .step = some next)
    {path : String} {result : Int} (returned : next.caller.pc = .done (.readFile path) result) :
    result = (direct session.files path).length ∧
      next.caller.value.StartsWith (direct session.files path) := by
  obtain ⟨inside, value, serves, length, starts⟩ :=
    run_returns reads ran stepped path result returned
  have whole : value = direct session.files path := by
    rcases serves with same | ⟨other, other_inside, hashed, read⟩
    · exact same
    · have keys : keyOf hash other = keyOf hash path :=
        keys_apart (Set.mem_image_of_mem _ other_inside) (Set.mem_image_of_mem _ inside) hashed
      have same : other = path := paths_apart other_inside inside (keyOf_injective keys)
      rw [← same, direct, read, Option.getD_some]
  rw [← whole]
  exact ⟨length, starts⟩

/-- A hash that tells two paths of different lengths and their keys apart. -/
def powerHash (key : String) : UInt64 := UInt64.ofNat (10 ^ key.length)

/-- The hash tells the two paths apart. -/
theorem powerHash_injOn : Set.InjOn powerHash {"a", "bb"} := by
  have apart : powerHash "a" ≠ powerHash "bb" := by decide
  rintro first (rfl | rfl) second (rfl | rfl) same
  · rfl
  · exact absurd same apart
  · exact absurd same.symm apart
  · rfl

/-- The hash tells the keys of the two paths apart. -/
theorem powerHash_keys_injOn : Set.InjOn powerHash (keyOf powerHash '' {"a", "bb"}) := by
  have apart : powerHash (keyOf powerHash "a") ≠ powerHash (keyOf powerHash "bb") := by decide
  rintro _ ⟨first, (rfl | rfl), rfl⟩ _ ⟨second, (rfl | rfl), rfl⟩ same
  · rfl
  · exact absurd same apart
  · exact absurd same.symm apart
  · rfl

/-- One file. -/
def oneFile (path : String) : Option (List UInt8) := if path = "a" then some [1, 2] else none

/-- A file is read and buffered, and then read again up to the lookup in the buffer. -/
def readTwice : List Event :=
  [.openDb, .call (.readFile "a")] ++ List.replicate 11 .step ++ [.call (.readFile "a"), .step]

/-- A file that is served from the buffer is the file. -/
theorem readFile_twice_eq_direct :
    ∃ session next,
      (machine powerHash LevelDb.table MogConfig.oneBlock).run
        (start LevelDb.table oneFile fun _ => 0) readTwice = some session ∧
      (machine powerHash LevelDb.table MogConfig.oneBlock).step session .step = some next ∧
      session.caller.pc = .readBuffer (.file "a") "10" ∧
      2 = ((direct session.files "a").length : Int) ∧
      next.caller.value.StartsWith (direct session.files "a") := by
  have executed : ∃ session next,
      (machine powerHash LevelDb.table MogConfig.oneBlock).run
        (start LevelDb.table oneFile fun _ => 0) readTwice = some session ∧
      (machine powerHash LevelDb.table MogConfig.oneBlock).step session .step = some next ∧
      session.caller.pc = .readBuffer (.file "a") "10" ∧
      next.caller.pc = .done (.readFile "a") 2 := ⟨_, _, rfl, rfl, rfl, rfl⟩
  obtain ⟨session, next, ran, stepped, standing, returned⟩ := executed
  have reads : ∀ event ∈ readTwice, event.ReadsFiles {"a", "bb"} := by
    simp [readTwice, Event.ReadsFiles]
  exact ⟨session, next, ran, stepped, standing,
    readFile_eq_direct powerHash_injOn powerHash_keys_injOn reads ran stepped returned⟩

end CudaDb.Mog
