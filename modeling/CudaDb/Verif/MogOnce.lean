import CudaDb.Verif.MogTransparent
import CudaDb.Verif.FleetBudget
import CudaDb.Verif.WriteProgress

/-!
# A file is stored once

A call of `read_file` that finds no bytes in the stores reads the file and writes it to the
buffer. Once the value of a path was accepted, its key stays in the buffer or in the index. So a
later call finds it, as long as there are bytes to find: where the file is empty, the length 0 of
what is stored reads as nothing stored, and the file is read and written again.
-/

namespace CudaDb

/-- The path whose file is about to be cached, from the miss to the lock of the write buffer. -/
def MogPc.missed : MogPc → Option String
  | .openFile path _ | .testTotal path _ _ => some path
  | .buffer (.insert path _) pc => pc.call.map fun _ => path
  | _ => none

/-- A call of `read_file` on the path is served: it is on its way through the stores, or it has
returned the file. -/
def Caller.Served (path : String) (file : List UInt8) (caller : Caller) : Prop :=
  match caller.pc with
  | .testReady called => called = path
  | .readBuffer reader _ | .findItem reader _ | .copyItem reader _ | .getIndex reader _
  | .readSsd reader _ _ | .insertItem reader _ _ => reader = .file path
  | .done call result =>
    call = .readFile path ∧ result = file.length ∧ caller.value.StartsWith file
  | _ => False

namespace Storage

variable {Db : Type*} {hash : String → UInt64} {leveldb : LevelDb Db} {storage next : Storage Db}
  {pending : List Nat} {blockId : Nat} {key : String}

/-- The key is in the buffer or in the index. -/
def Known (hash : String → UInt64) (leveldb : LevelDb Db) (storage : Storage Db) (key : String) :
    Prop :=
  (∃ info, storage.buffer.kvStore.lookup (hash key) = some info ∧ info.key = key) ∨
    CentraIndex.getInfo leveldb storage.db key ≠ none

/-- A flush gives a record to every key that it takes from the buffer. -/
theorem Known.flush (known : storage.Known hash leveldb key)
    (coherent : storage.buffer.Coherent hash pending) (blockId : Nat) :
    (storage.flush hash leveldb blockId).Known hash leveldb key := by
  rcases flush_index storage hash leveldb blockId key with
    ⟨entry, inside, same, record, put, -⟩ | ⟨other, unchanged⟩
  · right
    rw [put]
    exact Option.some_ne_none record
  · rcases known with ⟨info, found, own⟩ | indexed
    · have kept : hash key ∉ (storage.entriesOf blockId).map fun entry => hash entry.key := by
        intro erased
        obtain ⟨entry, inside, same⟩ := List.mem_map.mp erased
        have stored := entry_stored coherent inside
        rw [same, found] at stored
        have whole : info = entry := Option.some.inj stored
        exact other entry inside (whole ▸ own)
      left
      exact ⟨info, (flush_kept kept).trans found, own⟩
    · right
      rw [unchanged]
      exact indexed

/-- A flush thread keeps every key known. -/
theorem Known.runFlush (known : storage.Known hash leveldb key)
    (coherent : storage.buffer.Coherent hash pending)
    (ran : storage.runFlush hash leveldb blockId = some next) :
    next.Known hash leveldb key := by
  obtain ⟨-, rfl⟩ := runFlush_eq_some.mp ran
  refine Known.flush ?_ (coherent.withPool (storage.buffer.flushThreadPool.erase blockId)) blockId
  exact known

end Storage

namespace Mog

variable {Db : Type*} {hash : String → UInt64} {leveldb : LevelDb Db} {config : MogConfig}
  {paths : Set String} {path : String} {files : String → Option (List UInt8)}
  {mog next : Mog Db} {caller after : Caller}

/-- The events of a run without a reset: calls of `read_file` on these paths, their accesses, and
the tasks. -/
def Event.Quiet (paths : Set String) : Event → Prop
  | .call (.readFile path) => path ∈ paths
  | .step | .flush _ | .fetch _ => True
  | _ => False

/-- Calls without a reset are calls of `read_file` on these paths. -/
theorem Event.Quiet.readsFiles {event : Event} (quiet : event.Quiet paths) :
    event.ReadsFiles paths := by
  cases event with
  | call call => cases call <;> exact quiet
  | _ => trivial

/-- The next access is the one under the lock of `WriteBuffer::write`, with the value of the
path, and the write is accepted. -/
def accepts (hash : String → UInt64) (path : String) (session : Session Db) : Bool :=
  match session.caller.pc with
  | .buffer (.insert called _) (.locked key value) => decide (called = path ∧
      (WriteBuffer.writeLocked hash key value session.mog.storage.buffer).map Prod.fst = some 0)
  | _ => false

/-- What has happened to the value of a path. -/
structure StoreHistory where
  /-- How often the write buffer has accepted it. -/
  accepted : Nat
  /-- The last call is a read of the path that began after the buffer had accepted its value. -/
  later : Bool

/-- The history after an event. -/
def noteStore (hash : String → UInt64) (path : String) (history : StoreHistory)
    (session : Session Db) : Event → StoreHistory
  | .call call => { history with
      later := match call with
        | .readFile called => decide (called = path ∧ 0 < history.accepted)
        | _ => false }
  | .step => { history with
      accepted := history.accepted + if accepts hash path session then 1 else 0 }
  | _ => history

/-! ## One access -/

/-- An access leaves every known key known. -/
theorem step_known (opened : mog.Opened hash leveldb caller.pc) {key : String}
    (known : mog.storage.Known hash leveldb key)
    (stepped : mog.step hash leveldb config files caller = some (next, after)) :
    next.storage.Known hash leveldb key := by
  cases reads : caller.pc.reading with
  | some asked =>
    rw [step_reading_storage reads stepped]
    exact known
  | none =>
    have step := step_other (fun _ _ => True) reads stepped
    rcases known with ⟨info, found, own⟩ | indexed
    · left
      refine ⟨info, ?_, own⟩
      rcases step.buffer with same | ⟨writer, inner, later, ssdFull, standing, -, taken⟩
      · rw [same]
        exact found
      · rw [standing] at opened
        rcases (WriteBuffer.step_kept opened.storage.buffer opened.short taken).2 with
          ⟨written, value, -, -, fresh, stored⟩ | ⟨unchanged, -⟩
        · have apart : hash key ≠ hash written := by
            intro same
            have present : hash key ∈ mog.storage.buffer.kvStore :=
              Finmap.mem_iff.mpr ⟨info, found⟩
            exact fresh (same ▸ present)
          rw [stored, Table.lookup_insert_if, if_neg apart]
          exact found
        · rw [unchanged]
          exact found
    · right
      rw [step.db]
      exact indexed

/-! ## What a read finds -/

/-- A value that is right for the key of a path is the file of the path. -/
theorem FileOf.own (paths_apart : Set.InjOn hash paths) (inside : path ∈ paths)
    {value : List UInt8} (right : FileOf hash paths files (keyOf hash path) value) :
    readable files path = some value := by
  obtain ⟨other, other_inside, same, read⟩ := right
  have whole : other = path := paths_apart other_inside inside (keyOf_injective same)
  rw [← whole]
  exact read

/-- The entry under the hash of the key of a path has this key. -/
theorem buffered_key {pc : MogPc} (keys_apart : Set.InjOn hash (keyOf hash '' paths))
    (inside : path ∈ paths) (opened : mog.Opened hash leveldb pc)
    (caches : mog.Caches leveldb (FileOf hash paths files)) {info : KvInfo}
    (found : mog.storage.buffer.kvStore.lookup (hash (keyOf hash path)) = some info) :
    info.key = keyOf hash path := by
  have hashed : hash info.key = hash (keyOf hash path) :=
    (opened.storage.buffer.entries _ info found).1
  obtain ⟨other, other_inside, same, -⟩ := caches.buffered _ info found
  rw [← same] at hashed ⊢
  exact keys_apart (Set.mem_image_of_mem _ other_inside) (Set.mem_image_of_mem _ inside) hashed

/-- A read of a known key delivers the file of its path. -/
theorem answer_known {pc : MogPc} (paths_apart : Set.InjOn hash paths)
    (keys_apart : Set.InjOn hash (keyOf hash '' paths)) (inside : path ∈ paths)
    (filled : files path ≠ some []) (opened : mog.Opened hash leveldb pc)
    (caches : mog.Caches leveldb (FileOf hash paths files))
    (known : mog.storage.Known hash leveldb (keyOf hash path)) {value : List UInt8}
    (answer : Answer hash leveldb (FileOf hash paths files) mog (keyOf hash path) value) :
    readable files path = some value := by
  cases answer with
  | held value right => exact FileOf.own paths_apart inside right
  | buffered info found =>
    have right := caches.buffered _ info found
    rw [buffered_key keys_apart inside opened caches found] at right
    exact FileOf.own paths_apart inside right
  | absent missed unknown =>
    rcases known with ⟨info, found, own⟩ | indexed
    · have right := caches.buffered _ info found
      rw [own, missed info found] at right
      have empty := FileOf.own paths_apart inside right
      exact absurd (files_of_readable empty) filled
    · exact absurd unknown indexed

/-! ## Where a call stands -/

/-- A call that reads the stores for the path is being served. -/
theorem served_of_reading {file : List UInt8} {key : String}
    (reads : caller.pc.reading = some (.file path, key)) : caller.Served path file := by
  unfold Caller.Served
  cases pc : caller.pc with
  | readBuffer | findItem | copyItem | getIndex | readSsd | insertItem =>
    rw [pc] at reads
    exact (Prod.mk.inj (Option.some.inj reads)).1
  | _ =>
    rw [pc] at reads
    cases reads

/-- A call that is being served has missed nothing. -/
theorem missed_of_served {file : List UInt8} (served : caller.Served path file) :
    caller.pc.missed = none := by
  unfold Caller.Served at served
  cases pc : caller.pc with
  | openFile | testTotal | buffer =>
    rw [pc] at served
    exact served.elim
  | _ => rfl

/-- An access outside a read leads to the write of a file only on the way there. -/
theorem step_missed (no_read : caller.pc.reading = none)
    (stepped : mog.step hash leveldb config files caller = some (next, after))
    (missed : after.pc.missed = some path) : caller.pc.missed = some path := by
  obtain ⟨pc, value⟩ := caller
  cases step_access stepped with
  | fileRead => exact missed
  | admitted called key buffer =>
    obtain ⟨-, -, same⟩ := Option.map_eq_some_iff.mp missed
    exact congrArg some same
  | bufferStep writer inner later buffer taken =>
    cases writer with
    | insert called bytes =>
      obtain ⟨call, unfinished, same⟩ := Option.map_eq_some_iff.mp missed
      exact Option.map_eq_some_iff.mpr ⟨call, WriteBuffer.step_call taken unfinished, same⟩
    | _ => cases missed
  | bufferReturned writer status => cases writer <;> cases missed
  | bufferHit | itemCopied | indexMissed | itemInserted => cases no_read
  | _ => cases missed

/-- A read that has missed goes on to its own path. -/
theorem step_missed_reading {called : String}
    (working : Working hash leveldb paths files mog caller)
    (reads : caller.pc.reading = some (.file called, keyOf hash called))
    (stepped : mog.step hash leveldb config files caller = some (next, after))
    (missed : after.pc.missed = some path) : called = path := by
  rcases (working.readStep reads stepped).outcome with ⟨goes_on, -⟩ | ⟨value, -, returned, -⟩
  · have served : after.Served called [] := served_of_reading goes_on
    rw [missed_of_served served] at missed
    cases missed
  · rw [returned, afterRead] at missed
    split at missed
    · cases missed
    · exact Option.some.inj missed

/-- A read of a known key goes on or returns the file. -/
theorem step_served_reading (paths_apart : Set.InjOn hash paths)
    (keys_apart : Set.InjOn hash (keyOf hash '' paths)) (inside : path ∈ paths)
    (filled : files path ≠ some []) (working : Working hash leveldb paths files mog caller)
    (known : mog.storage.Known hash leveldb (keyOf hash path))
    (reads : caller.pc.reading = some (.file path, keyOf hash path))
    (stepped : mog.step hash leveldb config files caller = some (next, after)) :
    after.Served path (direct files path) := by
  rcases (working.readStep reads stepped).outcome with
    ⟨goes_on, -⟩ | ⟨value, answer, returned, starts⟩
  · exact served_of_reading goes_on
  · have read := answer_known paths_apart keys_apart inside filled working.opened working.caches
      known answer
    have whole : direct files path = value := by rw [direct, read, Option.getD_some]
    have bytes : 0 < value.length := by
      apply List.length_pos_of_ne_nil
      intro empty
      rw [empty] at read
      exact filled (files_of_readable read)
    unfold Caller.Served
    rw [returned, afterRead, if_pos bytes, whole]
    exact ⟨rfl, rfl, starts⟩

/-- The next access of a call that is served: in a ready `mog` that knows the key of the path, the
call goes on being served, and the buffer, the index and the block files stay. -/
theorem step_served (paths_apart : Set.InjOn hash paths)
    (keys_apart : Set.InjOn hash (keyOf hash '' paths)) (filled : files path ≠ some [])
    (ready : mog.ready = true) (working : Working hash leveldb paths files mog caller)
    (known : mog.storage.Known hash leveldb (keyOf hash path))
    (served : caller.Served path (direct files path))
    (stepped : mog.step hash leveldb config files caller = some (next, after)) :
    after.Served path (direct files path) ∧ next.storage = mog.storage := by
  cases reads : caller.pc.reading with
  | none =>
    obtain ⟨pc, value⟩ := caller
    cases pc with
    | testReady called =>
      obtain ⟨rfl, rfl⟩ := Prod.mk.inj (Option.some.inj stepped)
      have same : called = path := served
      rw [if_pos ready, same]
      exact ⟨rfl, rfl⟩
    | idle | done call result => cases stepped
    | readDirect | openFile | testTotal | buffer | addTotal | syncSsd => exact served.elim
    | _ => cases reads
  | some asked =>
    obtain ⟨reader, key⟩ := asked
    obtain ⟨called, inside, rfl, rfl⟩ := (filing_reading reads).mp working.filing
    have same : called = path := by
      have own := served
      unfold Caller.Served at own
      cases pc : caller.pc with
      | readBuffer | findItem | copyItem | getIndex | readSsd | insertItem =>
        rw [pc] at own reads
        have reader := (Prod.mk.inj (Option.some.inj reads)).1
        rw [own] at reader
        exact (Reader.file.inj reader).symm
      | _ =>
        rw [pc] at reads
        cases reads
    rw [same] at inside reads
    exact ⟨step_served_reading paths_apart keys_apart inside filled working known reads stepped,
      step_reading_storage reads stepped⟩

/-! ## Accepted writes -/

/-- An accepted write of the value of a path stores its key, and ends the way to the lock. -/
theorem step_accepted {session : Session Db}
    (working : Working hash leveldb paths session.files session.mog session.caller)
    (accepted : accepts hash path session = true)
    (stepped : session.mog.step hash leveldb config session.files session.caller =
      some (next, after)) :
    session.caller.pc.missed = some path ∧ after.pc.missed = none ∧
      next.storage.Known hash leveldb (keyOf hash path) := by
  obtain ⟨mog, ⟨pc, value⟩, files, opened⟩ := session
  unfold accepts at accepted
  dsimp only at accepted working stepped ⊢
  split at accepted
  · next called buffer key bytes =>
    obtain ⟨rfl, status⟩ := of_decide_eq_true accepted
    obtain ⟨⟨later, stored⟩, taken, same⟩ := Option.map_eq_some_iff.mp stepped
    obtain ⟨rfl, rfl⟩ := Prod.mk.inj same
    obtain ⟨⟨returned, written⟩, locked, ended⟩ := Option.map_eq_some_iff.mp taken
    obtain ⟨rfl, rfl⟩ := Prod.mk.inj ended
    rw [locked] at status
    obtain rfl : returned = 0 := Option.some.inj status
    refine ⟨rfl, rfl, Or.inl ?_⟩
    obtain ⟨other, inside, file, writer, -, about⟩ := working.filing
    obtain ⟨rfl, rfl⟩ := Writer.insert.inj writer
    obtain ⟨named, -⟩ := about key bytes rfl
    rcases (WriteBuffer.step_kept working.opened.storage.buffer working.opened.short taken).2 with
      ⟨other, content, standing, -, -, inserted⟩ | ⟨-, refused⟩
    · obtain ⟨rfl, rfl⟩ := WriteBuffer.Pc.locked.inj standing
      rw [← named]
      change ∃ info, written.kvStore.lookup (hash key) = some info ∧ info.key = key
      rw [inserted]
      exact ⟨_, Finmap.lookup_insert _, rfl⟩
    · have failed := (refused key bytes rfl).1
      cases failed
  · cases accepted

/-! ## Whole runs -/

/-- What holds of a session without resets and of the value of a path. -/
structure Settled (hash : String → UInt64) (leveldb : LevelDb Db) (paths : Set String)
    (files : String → Option (List UInt8)) (path : String) (session : Session Db)
    (history : StoreHistory) : Prop where
  /-- The session is sound. -/
  sound : session.Sound hash leveldb paths
  /-- The stores are open. -/
  opened : session.opened = true
  /-- The `mog` is ready. -/
  ready : session.mog.ready = true
  /-- The files do not change. -/
  unchanged : session.files = files
  /-- The value was accepted at most once. -/
  once : history.accepted ≤ 1
  /-- An accepted value is known by its key. -/
  known : 0 < history.accepted → session.mog.storage.Known hash leveldb (keyOf hash path)
  /-- A call that has missed the value is the first to write it. -/
  first : session.caller.pc.missed = some path → history.accepted = 0
  /-- A call that began after the value was accepted is served. -/
  served : history.later = true → 0 < history.accepted ∧
    session.caller.Served path (direct files path)

/-- No access changes `ready`. -/
theorem step_ready (stepped : mog.step hash leveldb config files caller = some (next, after)) :
    next.ready = mog.ready := by
  obtain ⟨pc, value⟩ := caller
  cases step_access stepped <;> rfl

/-- An access keeps the value settled. -/
theorem access_settled {session : Session Db} {history : StoreHistory}
    (paths_apart : Set.InjOn hash paths) (keys_apart : Set.InjOn hash (keyOf hash '' paths))
    (filled : files path ≠ some [])
    (settled : Settled hash leveldb paths files path session history) {mog : Mog Db}
    {caller : Caller}
    (stepped : session.mog.step hash leveldb config session.files session.caller =
      some (mog, caller)) :
    Settled hash leveldb paths files path { session with mog, caller }
      (noteStore hash path history session .step) := by
  obtain ⟨sound, opened, ready, rfl, once, known, first, served⟩ := settled
  have working := sound.working opened
  have next_sound := (access_sound sound stepped).1
  have next_ready : mog.ready = true := (step_ready stepped).trans ready
  cases accepted : accepts hash path session with
  | true =>
    obtain ⟨missed, ended, stored⟩ := step_accepted working accepted stepped
    have none_before := first missed
    have noted : noteStore hash path history session .step =
        { history with accepted := 1 } := by
      simp [noteStore, accepted, none_before]
    rw [noted]
    refine ⟨next_sound, opened, next_ready, rfl, Nat.le_refl 1, fun _ => stored,
      fun missed => ?_, fun later => ?_⟩
    · rw [ended] at missed
      cases missed
    · have before := (served later).1
      omega
  | false =>
    have noted : noteStore hash path history session .step = history := by
      simp [noteStore, accepted]
    rw [noted]
    have next_known (positive : 0 < history.accepted) :
        mog.storage.Known hash leveldb (keyOf hash path) :=
      step_known working.opened (known positive) stepped
    refine ⟨next_sound, opened, next_ready, rfl, once, next_known, fun missed => ?_,
      fun later => ?_⟩
    · cases reads : session.caller.pc.reading with
      | none => exact first (step_missed reads stepped missed)
      | some asked =>
        obtain ⟨reader, key⟩ := asked
        obtain ⟨called, inside, rfl, rfl⟩ := (filing_reading reads).mp working.filing
        obtain rfl := step_missed_reading working reads stepped missed
        -- A read of a known key would have been served.
        by_contra positive
        have served := step_served_reading paths_apart keys_apart inside filled working
          (known (Nat.pos_of_ne_zero positive)) reads stepped
        rw [missed_of_served served] at missed
        cases missed
    · obtain ⟨positive, here⟩ := served later
      exact ⟨positive, (step_served paths_apart keys_apart filled ready working (known positive)
        here stepped).1⟩

/-- Every event without a reset keeps the value settled. -/
theorem event_settled {session next : Session Db} {history : StoreHistory} {event : Event}
    (paths_apart : Set.InjOn hash paths) (keys_apart : Set.InjOn hash (keyOf hash '' paths))
    (filled : files path ≠ some [])
    (settled : Settled hash leveldb paths files path session history)
    (quiet : event.Quiet paths)
    (stepped : (machine hash leveldb config).step session event = some next) :
    Settled hash leveldb paths files path next (noteStore hash path history session event) := by
  have sound := step_sound settled.sound quiet.readsFiles stepped
  cases step_occurs stepped with
  | step mog caller taken => exact access_settled paths_apart keys_apart filled settled taken
  | call call rest =>
    cases call with
    | readFile called =>
      refine ⟨sound, settled.opened, settled.ready, settled.unchanged, settled.once,
        settled.known, fun missed => (by cases missed), fun later => ?_⟩
      obtain ⟨same, positive⟩ := of_decide_eq_true later
      exact ⟨positive, same⟩
    | _ => exact quiet.elim
  | flush blockId storage ran =>
    have coherent := (settled.sound.working settled.opened).opened.storage.buffer
    exact ⟨sound, settled.opened, settled.ready, settled.unchanged, settled.once,
      fun positive => (settled.known positive).runFlush coherent ran, settled.first,
      settled.served⟩
  | fetch blockId =>
    exact ⟨sound, settled.opened, settled.ready, settled.unchanged, settled.once, settled.known,
      settled.first, settled.served⟩
  | _ => exact quiet.elim

/-- Before the first call nothing has been accepted. -/
theorem startOpen_settled (leveldb : LevelDb Db) (config : MogConfig)
    (files : String → Option (List UInt8)) (value : ByteMemory) :
    Settled hash leveldb paths files path (startOpen leveldb config files value) ⟨0, false⟩ where
  sound := ⟨fun _ => ⟨openDb_opened (new_cleared leveldb) leveldb config rfl,
    openDb_caches (new_cleared leveldb) leveldb config, trivial, trivial⟩,
    fun closed => (by cases closed), trivial⟩
  opened := rfl
  ready := rfl
  unchanged := rfl
  once := Nat.zero_le 1
  known := fun positive => absurd positive (Nat.lt_irrefl 0)
  first := fun _ => rfl
  served := fun later => (by cases later)

/-- A file that is not empty is stored once. In every run of `read_file` calls, one after another,
with the flush and fetch tasks in between and without a reset, where the hash tells the paths and
their keys apart: the write buffer accepts the value of the path at most once, and a later call
for the path is served by the stores and changes neither the buffer nor the block files nor the
index. -/
theorem stored_once (paths_apart : Set.InjOn hash paths)
    (keys_apart : Set.InjOn hash (keyOf hash '' paths)) (filled : files path ≠ some [])
    {events : List Event} (quiet : ∀ event ∈ events, event.Quiet paths) {value : ByteMemory}
    {session : Session Db} {history : StoreHistory}
    (ran : ((machine hash leveldb config).observed (noteStore hash path)).run
      (startOpen leveldb config files value, ⟨0, false⟩) events = some (session, history)) :
    history.accepted ≤ 1 ∧ (history.later = true →
      session.caller.Served path (direct files path) ∧
      ∀ next, (machine hash leveldb config).step session .step = some next →
        next.mog.storage = session.mog.storage) := by
  have settled : Settled hash leveldb paths files path session history :=
    Machine.run_invariant_along
      (fun state : Session Db × StoreHistory =>
        Settled hash leveldb paths files path state.1 state.2)
      (fun state event next settled quiet stepped => by
        obtain ⟨taken, noted⟩ := Machine.observed_step.mp stepped
        rw [← noted]
        exact event_settled paths_apart keys_apart filled settled quiet taken)
      (startOpen_settled leveldb config files value) (Machine.along_of_mem quiet _) ran
  refine ⟨settled.once, fun later => ?_⟩
  obtain ⟨positive, served⟩ := settled.served later
  refine ⟨served, fun next stepped => ?_⟩
  obtain ⟨⟨mog, caller⟩, taken, rfl⟩ := Option.map_eq_some_iff.mp stepped
  obtain rfl := settled.unchanged
  exact (step_served paths_apart keys_apart filled settled.ready
    (settled.sound.working settled.opened) (settled.known positive) served taken).2

/-- A file is read and stored, and read again up to the lookup in the buffer. -/
def readAgain : List Event :=
  [.call (.readFile "a")] ++ List.replicate 11 .step ++ [.call (.readFile "a"), .step]

/-- The second read of a file of two bytes is served from the buffer. -/
theorem stored_once_read_again :
    ∃ session history next,
      ((machine powerHash LevelDb.table MogConfig.oneBlock).observed (noteStore powerHash "a")).run
        (startOpen LevelDb.table MogConfig.oneBlock oneFile fun _ => 0, ⟨0, false⟩) readAgain =
        some (session, history) ∧
      history.accepted = 1 ∧ history.later = true ∧
      session.caller.pc = .readBuffer (.file "a") "10" ∧
      (machine powerHash LevelDb.table MogConfig.oneBlock).step session .step = some next ∧
      session.caller.Served "a" (direct oneFile "a") ∧
      next.mog.storage = session.mog.storage := by
  have executed : ∃ session history next,
      ((machine powerHash LevelDb.table MogConfig.oneBlock).observed (noteStore powerHash "a")).run
        (startOpen LevelDb.table MogConfig.oneBlock oneFile fun _ => 0, ⟨0, false⟩) readAgain =
        some (session, history) ∧
      history.accepted = 1 ∧ history.later = true ∧
      session.caller.pc = .readBuffer (.file "a") "10" ∧
      (machine powerHash LevelDb.table MogConfig.oneBlock).step session .step = some next :=
    ⟨_, _, _, rfl, rfl, rfl, rfl, rfl⟩
  obtain ⟨session, history, next, ran, accepted, later, standing, stepped⟩ := executed
  have quiet : ∀ event ∈ readAgain, event.Quiet {"a", "bb"} := by
    simp [readAgain, Event.Quiet]
  have filled : oneFile "a" ≠ some [] := by decide
  obtain ⟨served, stays⟩ :=
    (stored_once powerHash_injOn powerHash_keys_injOn filled quiet ran).2 later
  exact ⟨session, history, next, ran, accepted, later, standing, stepped, served,
    stays next stepped⟩

/-! ## An empty file -/

/-- A call that has missed a short file stores it, while there is room, and returns it; nothing
happens to the values of the other paths. -/
theorem run_insert {session : Session Db} {history : StoreHistory} {called key : String}
    {file : List UInt8} {buffer : WriteBuffer} {status : Int} (other : called ≠ path)
    (standing : session.caller.pc = .openFile called key)
    (found : session.files called = some file) (short : file.length ≤ maxValueLength)
    (room : 100 * session.mog.totalSize ≤ 95 * 1024 * 1024 * config.hddPageNum)
    (below : ¬ session.mog.storage.buffer.totalSize >
      session.mog.storage.buffer.maxPageNum * session.mog.storage.buffer.pageSize)
    (free : ¬ session.mog.tier.cache.blockNum ≥ session.mog.tier.cache.maxBlockNum)
    (stored : session.mog.storage.buffer.writeLocked hash key file = some (status, buffer)) :
    ((machine hash leveldb config).observed (noteStore hash path)).run (session, history)
      (List.replicate 7 .step) = some ({ session with
        mog := { session.mog with
          totalSize := session.mog.totalSize + file.length
          storage := { session.mog.storage with buffer } }
        caller :=
          { pc := .done (.readFile called) file.length
            value := session.caller.value.write file } }, history) := by
  obtain ⟨mog, ⟨pc, value⟩, files, opened⟩ := session
  dsimp only at standing found room below free stored ⊢
  subst standing
  have served : ¬ file.length > maxFileLength := by
    unfold maxFileLength
    unfold maxValueLength at short
    omega
  have fits : ¬ file.length > slabSize 10 := not_lt.mpr short
  have read : step hash leveldb config files mog ⟨.openFile called key, value⟩ =
      some (mog, ⟨.testTotal called key file, value⟩) := by
    unfold step
    dsimp only
    rw [found]
    exact if_neg served
  have tested : step hash leveldb config files mog ⟨.testTotal called key file, value⟩ =
      some (mog, ⟨.buffer (.insert called file) (.waitTotal key file), value⟩) := by
    have begun : WriteBuffer.write key file = .waitTotal key file := if_neg fits
    unfold step
    dsimp only
    rw [if_pos (And.intro short room), begun]
  have under : step hash leveldb config files mog
        ⟨.buffer (.insert called file) (.waitTotal key file), value⟩ =
      some (mog, ⟨.buffer (.insert called file) (.waitSsd key file), value⟩) := by
    unfold step
    dsimp only [WriteBuffer.step]
    rw [if_neg below]
    rfl
  have spare : step hash leveldb config files mog
        ⟨.buffer (.insert called file) (.waitSsd key file), value⟩ =
      some (mog, ⟨.buffer (.insert called file) (.locked key file), value⟩) := by
    unfold step
    dsimp only [WriteBuffer.step]
    rw [decide_eq_false free]
    rfl
  have written : step hash leveldb config files mog
        ⟨.buffer (.insert called file) (.locked key file), value⟩ =
      some ({ mog with storage := { mog.storage with buffer } },
        ⟨.buffer (.insert called file) (.returned status), value⟩) := by
    unfold step
    dsimp only [WriteBuffer.step]
    rw [stored]
    rfl
  have unwatched : accepts hash path
      ⟨mog, ⟨.buffer (.insert called file) (.locked key file), value⟩, files, opened⟩ = false :=
    decide_eq_false fun same => other same.1
  simp only [List.replicate, Machine.run, Machine.observed, machine, read, tested, under, spare,
    written, Option.map_some, Option.bind_some, noteStore, unwatched]
  rfl

/-- An empty file and one of 1 MiB. -/
def emptyAndLargest (path : String) : Option (List UInt8) :=
  if path = "a" then some [] else if path = "bb" then some WriteTraffic.largest else none

/-- 1 GiB for each store, in blocks of one page. -/
def onePage : MogConfig := MogConfig.initialPara 1 1 1 1 1

/-- The empty file is read, and the large one is missed. -/
def storeEmpty : List Event :=
  [.call (.readFile "a")] ++ List.replicate 11 .step ++
    [.call (.readFile "bb")] ++ List.replicate 4 .step

/-- The large file is stored, which fills a block with the empty one; the block is flushed, and the
empty file is read again. -/
def storeEmptyAgain : List Event :=
  [.flush 1] ++ [.call (.readFile "a")] ++ List.replicate 11 .step

/-- The states before the first call. -/
def beforeEmpty : Session (Table String IndexRecord) × StoreHistory :=
  (startOpen LevelDb.table onePage emptyAndLargest fun _ => 0, ⟨0, false⟩)

/-- The states before the large file is stored. -/
def missedLargest : Session (Table String IndexRecord) × StoreHistory :=
  (((machine powerHash LevelDb.table onePage).observed (noteStore powerHash "a")).run beforeEmpty
    storeEmpty).getD beforeEmpty

/-- The value of an empty file can be accepted twice. -/
theorem accepted_twice : ∃ session history,
    ((machine powerHash LevelDb.table onePage).observed (noteStore powerHash "a")).run beforeEmpty
      (storeEmpty ++ (List.replicate 7 .step ++ storeEmptyAgain)) = some (session, history) ∧
    history.accepted = 2 := by
  have missed : ((machine powerHash LevelDb.table onePage).observed (noteStore powerHash "a")).run
      beforeEmpty storeEmpty = some missedLargest := rfl
  have short : WriteTraffic.largest.length ≤ maxValueLength := by
    rw [WriteTraffic.largest_length]
    decide
  have rest : ∃ buffer, missedLargest.1.mog.storage.buffer.writeLocked powerHash "100"
        WriteTraffic.largest = some (0, buffer) ∧
      ∃ session history,
        ((machine powerHash LevelDb.table onePage).observed (noteStore powerHash "a")).run
          ({ missedLargest.1 with
            mog := { missedLargest.1.mog with
              totalSize := missedLargest.1.mog.totalSize + WriteTraffic.largest.length
              storage := { missedLargest.1.mog.storage with buffer } }
            caller :=
              { pc := .done (.readFile "bb") WriteTraffic.largest.length
                value := missedLargest.1.caller.value.write WriteTraffic.largest } },
          missedLargest.2) storeEmptyAgain = some (session, history) ∧
        history.accepted = 2 := by
    unfold WriteBuffer.writeLocked WriteBuffer.store
    rw [WriteTraffic.slabType_largest, WriteTraffic.largest_length]
    exact ⟨_, rfl, _, _, rfl, rfl⟩
  obtain ⟨buffer, stored, session, history, ran, accepted⟩ := rest
  exact ⟨session, history, Machine.run_append.mpr ⟨_, missed, Machine.run_append.mpr
    ⟨_, run_insert (by decide) rfl rfl short (by decide) (by decide) (by decide) stored, ran⟩⟩,
    accepted⟩

/-- An empty file is not stored once: its length reads as a miss, and after the flush of its entry
its value is accepted again. -/
theorem not_stored_once_of_empty :
    ¬ ∀ (hash : String → UInt64) (paths : Set String) (config : MogConfig)
      (files : String → Option (List UInt8)) (path : String) (events : List Event)
      (value : ByteMemory) (session : Session (Table String IndexRecord)) (history : StoreHistory),
      Set.InjOn hash paths → Set.InjOn hash (keyOf hash '' paths) →
      (∀ event ∈ events, event.Quiet paths) →
      ((machine hash LevelDb.table config).observed (noteStore hash path)).run
        (startOpen LevelDb.table config files value, ⟨0, false⟩) events = some (session, history) →
      history.accepted ≤ 1 ∧ (history.later = true →
        session.caller.Served path (direct files path) ∧
        ∀ next, (machine hash LevelDb.table config).step session .step = some next →
          next.mog.storage = session.mog.storage) := by
  intro always
  obtain ⟨session, history, ran, twice⟩ := accepted_twice
  have quiet : ∀ event ∈ storeEmpty ++ (List.replicate 7 .step ++ storeEmptyAgain),
      event.Quiet {"a", "bb"} := by
    simp [storeEmpty, storeEmptyAgain, Event.Quiet]
  have once := (always powerHash {"a", "bb"} onePage emptyAndLargest "a" _ (fun _ => 0) session
    history powerHash_injOn powerHash_keys_injOn quiet ran).1
  omega

end Mog

end CudaDb
