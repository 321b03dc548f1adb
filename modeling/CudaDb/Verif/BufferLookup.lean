import CudaDb.Verif.BufferFlush

/-!
# What the write buffer and the disk hold for a key

The history of a session is the log of the writes that returned 0. Along every run the storage
stays coherent and every buffered value is in the log. Where the hash tells the keys in use
apart, what is found for a key, in the buffer or through the index, is its last logged value.
-/

namespace CudaDb.Storage

variable {Db : Type*} {hash : String → UInt64} {leveldb : LevelDb Db}

/-- The accepted writes, the last one first. -/
abbrev Log := List (String × List UInt8)

/-- The history of the writes that returned 0. -/
def accept (hash : String → UInt64) (log : Log) (session : Session Db) : Event → Log
  | .step _ =>
    match session.pc with
    | .locked key value =>
      if (session.storage.buffer.writeLocked hash key value).map Prod.fst = some 0 then
        (key, value) :: log
      else log
    | _ => log
  | _ => log

/-- What holds of a session in every run. -/
structure Session.Coherent (hash : String → UInt64) (leveldb : LevelDb Db)
    (session : Session Db) : Prop where
  /-- The storage is coherent with what is pending where the caller stands. -/
  storage : session.storage.Coherent hash leveldb (session.storage.buffer.pendingAt session.pc)
  /-- The value of the current call is short. -/
  short : session.pc.Short

/-- What a step of the session can do to the storage and the log. -/
inductive Change (hash : String → UInt64) (leveldb : LevelDb Db) (before after : Session Db)
    (log later : Log) : Prop
  /-- The store, the index and the files stay, and so does the log. -/
  | same (kvStore : after.storage.buffer.kvStore = before.storage.buffer.kvStore)
      (db : after.storage.db = before.storage.db) (hdd : after.storage.hdd = before.storage.hdd)
      (logged : later = log)
  /-- A write is accepted. -/
  | accepted (key : String) (value : List UInt8) (pc : before.pc = .locked key value)
      (absent : hash key ∉ before.storage.buffer.kvStore)
      (kvStore : after.storage.buffer.kvStore = before.storage.buffer.kvStore.insert (hash key)
        { key, value, valueLengthType := slabType value.length })
      (db : after.storage.db = before.storage.db) (hdd : after.storage.hdd = before.storage.hdd)
      (logged : later = (key, value) :: log)
  /-- A block is flushed. -/
  | flushed (blockId : Nat)
      (ran : before.storage.runFlush hash leveldb blockId = some after.storage)
      (logged : later = log)

/-- Every step of a coherent session keeps it coherent and makes one of three changes. -/
theorem step_change (log : Log) {session next : Session Db} {event : Event}
    (coherent : session.Coherent hash leveldb)
    (stepped : (machine hash leveldb).step session event = some next) :
    next.Coherent hash leveldb ∧
      Change hash leveldb session next log (accept hash log session event) := by
  cases event with
  | write key value =>
    simp only [machine] at stepped
    split at stepped
    · next status idle =>
      obtain rfl := Option.some.inj stepped
      have storage := coherent.storage
      rw [pendingAt_returned idle, ← WriteBuffer.pendingAt_write _ key value] at storage
      exact ⟨⟨storage, fun _ _ call => (WriteBuffer.write_call call).2.2⟩,
        Change.same rfl rfl rfl rfl⟩
    · cases stepped
  | sync =>
    simp only [machine] at stepped
    split at stepped
    · next status idle =>
      obtain rfl := Option.some.inj stepped
      have storage := coherent.storage
      rw [pendingAt_returned idle] at storage
      exact ⟨⟨storage, nofun⟩, Change.same rfl rfl rfl rfl⟩
    · cases stepped
  | step ssdFull =>
    obtain ⟨⟨pc, buffer⟩, taken, rfl⟩ := Option.map_eq_some_iff.mp stepped
    obtain ⟨kept, change⟩ := WriteBuffer.step_kept coherent.storage.buffer coherent.short taken
    refine ⟨⟨⟨kept.coherent, ?_⟩,
      fun key value call => coherent.short key value (WriteBuffer.step_call taken call)⟩, ?_⟩
    · intro key info found
      obtain ⟨settled, rest⟩ := coherent.storage.indexed key info found
      exact ⟨kept.settled _ settled, rest⟩
    rcases change with ⟨key, value, locked, rfl, absent, stored⟩ | ⟨kvStore, refused⟩
    · refine Change.accepted key value locked absent stored rfl rfl ?_
      rw [locked, WriteBuffer.step] at taken
      obtain ⟨⟨status, written⟩, accepted, same⟩ := Option.map_eq_some_iff.mp taken
      simp only [Prod.mk.injEq, WriteBuffer.Pc.returned.injEq] at same
      simp only [accept, locked, accepted, Option.map_some, same.1, if_true]
    · refine Change.same kvStore rfl rfl ?_
      cases standing : session.pc with
      | locked key value =>
        have present := (refused key value standing).2.1
        simp [accept, standing, WriteBuffer.writeLocked, present]
      | _ => simp only [accept, standing]
  | flush blockId =>
    obtain ⟨storage, ran, rfl⟩ := Option.map_eq_some_iff.mp stepped
    exact ⟨⟨(runFlush_kept coherent.storage ran).1, coherent.short⟩,
      Change.flushed blockId ran rfl⟩

/-- The session starts coherent. -/
theorem start_coherent (leveldb : LevelDb Db) (pageSize pagePerBlock pageNum : Nat) :
    (start leveldb pageSize pagePerBlock pageNum).Coherent hash leveldb :=
  ⟨initial_coherent leveldb pageSize pagePerBlock pageNum, nofun⟩

/-- Every buffered value is in the log under its key. -/
def Logged (storage : Storage Db) (log : Log) : Prop :=
  ∀ hashed info, storage.buffer.kvStore.lookup hashed = some info → (info.key, info.value) ∈ log

/-- Every change keeps the buffered values logged. -/
theorem Change.keeps_logged {before after : Session Db} {log later : Log}
    (change : Change hash leveldb before after log later) (logged : before.storage.Logged log) :
    after.storage.Logged later := by
  intro hashed info found
  cases change with
  | same kvStore _ _ unchanged =>
    rw [kvStore] at found
    rw [unchanged]
    exact logged hashed info found
  | accepted key value _ _ kvStore _ _ extended =>
    rw [kvStore, Table.lookup_insert_if] at found
    rw [extended]
    split at found
    · obtain rfl := Option.some.inj found
      exact List.mem_cons_self
    · exact List.mem_cons_of_mem _ (logged hashed info found)
  | flushed blockId ran unchanged =>
    rw [unchanged]
    exact logged hashed info (runFlush_kvStore ran found)

/-- In every run the session stays coherent and the buffered values are logged. -/
theorem run_logged {pageSize pagePerBlock pageNum : Nat} {events : List Event}
    {final : Session Db} {log : Log}
    (ran : ((machine hash leveldb).observed (accept hash)).run
      (start leveldb pageSize pagePerBlock pageNum, []) events = some (final, log)) :
    final.Coherent hash leveldb ∧ final.storage.Logged log := by
  have initially : (start leveldb pageSize pagePerBlock pageNum).storage.Logged [] := by
    intro hashed info found
    simp [start, initial, WriteBuffer.new, WriteBuffer.initial] at found
  refine Machine.run_invariant (fun state : Session Db × Log =>
    state.1.Coherent hash leveldb ∧ state.1.storage.Logged state.2) ?_
    ⟨start_coherent leveldb pageSize pagePerBlock pageNum, initially⟩ ran
  intro state event next holds stepped
  obtain ⟨taken, noted⟩ := Machine.observed_step.mp stepped
  obtain ⟨coherent, change⟩ := step_change state.2 holds.1 taken
  exact ⟨coherent, noted ▸ change.keeps_logged holds.2⟩

/-! ## The last accepted value -/

/-- The keys of the calls are among these. -/
def Event.Within (keys : Set String) : Event → Prop
  | .write key _ => key ∈ keys
  | _ => True

/-- The key of the current call is among these. -/
def Session.Within (keys : Set String) (session : Session Db) : Prop :=
  ∀ key value, session.pc.call = some (key, value) → key ∈ keys

/-- The storage holds for each of the keys what was logged last, and buffers no other key. -/
structure Agrees (hash : String → UInt64) (leveldb : LevelDb Db) (keys : Set String)
    (storage : Storage Db) (log : Log) : Prop where
  /-- The buffered keys are in use. -/
  buffered : ∀ hashed info, storage.buffer.kvStore.lookup hashed = some info → info.key ∈ keys
  /-- The value found is the last logged one. -/
  found : ∀ key ∈ keys, storage.lookup hash leveldb key = log.lookup key

/-- Every change by a call on one of the keys keeps the agreement, if the hash is injective on
them. -/
theorem Change.keeps_agrees {keys : Set String} (injective : Set.InjOn hash keys)
    {before after : Session Db} {log later : Log} (coherent : before.Coherent hash leveldb)
    (within : before.Within keys) (change : Change hash leveldb before after log later)
    (agrees : Agrees hash leveldb keys before.storage log) :
    Agrees hash leveldb keys after.storage later := by
  cases change with
  | same kvStore db hdd unchanged =>
    constructor
    · intro hashed info found
      rw [kvStore] at found
      exact agrees.buffered hashed info found
    · intro key used
      rw [unchanged, ← agrees.found key used, lookup, lookup, onDisk, onDisk, kvStore, db, hdd]
  | accepted key value locked absent kvStore db hdd extended =>
    have key_used : key ∈ keys := within key value (by rw [locked]; rfl)
    constructor
    · intro hashed info found
      rw [kvStore, Table.lookup_insert_if] at found
      split at found
      · obtain rfl := Option.some.inj found
        exact key_used
      · exact agrees.buffered hashed info found
    · intro asked used
      rw [extended, List.lookup_cons, lookup, kvStore, Table.lookup_insert_if]
      by_cases same : asked = key
      · subst same
        simp
      · have apart : hash asked ≠ hash key := fun equal => same (injective used key_used equal)
        have before_lookup := agrees.found asked used
        rw [lookup] at before_lookup
        rw [if_neg apart, beq_false_of_ne same, onDisk, db, hdd]
        exact before_lookup
  | flushed blockId ran unchanged =>
    have alone (key : String) (used : key ∈ keys) : Alone hash before.storage.buffer key :=
      fun hashed info found same => injective (agrees.buffered hashed info found) used same
    constructor
    · intro hashed info found
      exact agrees.buffered hashed info (runFlush_kvStore ran found)
    · intro key used
      rw [unchanged, (runFlush_kept coherent.storage ran).2.2 key (alone key used)]
      exact agrees.found key used

/-- A call on one of the keys stays within them. -/
theorem step_within {keys : Set String} {session next : Session Db} {event : Event}
    (within : session.Within keys) (call : event.Within keys)
    (stepped : (machine hash leveldb).step session event = some next) : next.Within keys := by
  cases event with
  | write key value =>
    simp only [machine] at stepped
    split at stepped
    · obtain rfl := Option.some.inj stepped
      intro other bytes unfinished
      rw [(WriteBuffer.write_call unfinished).1]
      exact call
    · cases stepped
  | sync =>
    simp only [machine] at stepped
    split at stepped
    · obtain rfl := Option.some.inj stepped
      exact nofun
    · cases stepped
  | step ssdFull =>
    obtain ⟨⟨pc, buffer⟩, taken, rfl⟩ := Option.map_eq_some_iff.mp stepped
    exact fun key value call => within key value (WriteBuffer.step_call taken call)
  | flush blockId =>
    obtain ⟨storage, ran, rfl⟩ := Option.map_eq_some_iff.mp stepped
    exact within

/-- In every run of calls on keys that the hash tells apart, each of them has the value of the
last write that returned 0, first looked up in `kv_store` and then through the index, and none
if there was no such write. -/
theorem lookup_eq_last {keys : Set String} (injective : Set.InjOn hash keys)
    {pageSize pagePerBlock pageNum : Nat} {events : List Event}
    (within : ∀ event ∈ events, event.Within keys) {final : Session Db} {log : Log}
    (ran : ((machine hash leveldb).observed (accept hash)).run
      (start leveldb pageSize pagePerBlock pageNum, []) events = some (final, log))
    {key : String} (used : key ∈ keys) :
    final.storage.lookup hash leveldb key = log.lookup key := by
  have initially : Agrees hash leveldb keys (start leveldb pageSize pagePerBlock pageNum).storage
      [] := by
    constructor
    · intro hashed info found
      simp [start, initial, WriteBuffer.new, WriteBuffer.initial] at found
    · intro asked _
      simp [lookup, onDisk, start, initial, WriteBuffer.new, WriteBuffer.initial,
        CentraIndex.getInfo_setup]
  have idle : (start leveldb pageSize pagePerBlock pageNum).Within keys := by
    simp [Session.Within, start, WriteBuffer.Pc.call]
  have reached : final.Coherent hash leveldb ∧ final.Within keys ∧
      Agrees hash leveldb keys final.storage log := by
    refine Machine.run_invariant_along (fun state : Session Db × Log =>
      state.1.Coherent hash leveldb ∧ state.1.Within keys ∧
        Agrees hash leveldb keys state.1.storage state.2) ?_
      ⟨start_coherent leveldb pageSize pagePerBlock pageNum, idle, initially⟩
      (Machine.along_of_mem within _) ran
    intro state event next holds call stepped
    obtain ⟨taken, noted⟩ := Machine.observed_step.mp stepped
    obtain ⟨coherent, change⟩ := step_change state.2 holds.1 taken
    exact ⟨coherent, step_within holds.2.1 call taken,
      noted ▸ change.keeps_agrees injective holds.1 holds.2.1 holds.2.2⟩
  exact reached.2.2.found key used

/-- A hash that tells keys of different lengths apart. -/
def lengthHash (key : String) : UInt64 := key.length.toUInt64

/-- It tells two keys apart. -/
theorem lengthHash_injOn : Set.InjOn lengthHash {"a", "bb"} := by
  have apart : lengthHash "a" ≠ lengthHash "bb" := by decide
  rintro first (rfl | rfl) second (rfl | rfl) same
  · rfl
  · exact absurd same apart
  · exact absurd same.symm apart
  · rfl

/-- A write, a sync, and the flush of its block. -/
def writeAndSync : List Event :=
  [.write "a" [1, 2], .step false, .step false, .step false, .sync, .step false, .step false,
    .step false, .step false, .flush 1, .step false]

/-- A value that is written, drained by a sync and flushed is found on disk. -/
theorem lookup_after_flush :
    ∃ final log,
      ((machine lengthHash LevelDb.table).observed (accept lengthHash)).run
        (start LevelDb.table (1024 * 1024) 64 1024, []) writeAndSync = some (final, log) ∧
      final.storage.buffer.kvStore.lookup (lengthHash "a") = none ∧ log = [("a", [1, 2])] ∧
      final.storage.lookup lengthHash LevelDb.table "a" = log.lookup "a" := by
  have within : ∀ event ∈ writeAndSync, event.Within {"a", "bb"} := by
    simp [writeAndSync, Event.Within]
  have executed : ∃ final log,
      ((machine lengthHash LevelDb.table).observed (accept lengthHash)).run
        (start LevelDb.table (1024 * 1024) 64 1024, []) writeAndSync = some (final, log) ∧
      final.storage.buffer.kvStore.lookup (lengthHash "a") = none ∧ log = [("a", [1, 2])] :=
    ⟨_, _, rfl, rfl, rfl⟩
  obtain ⟨final, log, ran, flushed, logged⟩ := executed
  exact ⟨final, log, ran, flushed, logged, lookup_eq_last lengthHash_injOn within ran (Or.inl rfl)⟩

end CudaDb.Storage
